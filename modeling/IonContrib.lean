import IonContrib.Lib.Lts
import IonContrib.Lib.Octets
import IonContrib.Lib.Recv
import IonContrib.Lib.TailList
import IonContrib.Cursor
import IonContrib.Fields
import IonContrib.Tcpv4.Msg
import IonContrib.Lib.Doubling
import IonContrib.Tcpv4.Tx
import IonContrib.Tcpv4.Rx
import IonContrib.Tcpv4.Session
import IonContrib.Tcpv4.Steps
import IonContrib.Tcpv4.TxLedger
import IonContrib.Tcpv4.TxReport
import IonContrib.Tcpv4.Reject
import IonContrib.Tcpv4.Idle
import IonContrib.Quic.Msg
import IonContrib.Lib.Memory
import IonContrib.Quic.Datagram
import IonContrib.Lib.SortedBuf
import IonContrib.Zcl.Carrier
import IonContrib.Zcl.Rx
import IonContrib.Zcl.RxInv
import IonContrib.Zcl.Settle
import IonContrib.Bpsh.Daemon
import IonContrib.Bpsh.Moves
import IonContrib.Bpsh.Numbering
import IonContrib.Bpsh.Isolation
import IonContrib.Bpsh.Stdin
import IonContrib.Tcpv4.Term
import IonContrib.Lib.Ere
import IonContrib.Bpcmd.Daemon
import IonContrib.Bpcmd.Whitelist
import IonContrib.Bpcmd.Load
import IonContrib.Tcpv4.Negotiate
import IonContrib.Tcpv4.Engine
import IonContrib.Tcpv4.Route
import IonContrib.Quic.Stream
import IonContrib.Lib.Heap
import IonContrib.Quic.Buffers
import IonContrib.Lib.Decimal
import IonContrib.Zcl.Zcli
import IonContrib.Tcpv4.Codec
import IonContrib.Tcpv4.Ext
import IonContrib.Lib.Into
import IonContrib.Tcpv4.Streaming
import IonContrib.Mail.Msg
import IonContrib.Mail.RoundTrip
import IonContrib.Quic.Engine
import IonContrib.Quic.Forward
import IonContrib.Quic.Dialling
import IonContrib.Quic.RxBounds
import IonContrib.Quic.Acks
import IonContrib.Fields
import IonContrib.Tcpv4.X509
import IonContrib.Lib.Into
import IonContrib.Tcpv4.Streaming
import IonContrib.Lib.Transport
import IonContrib.Tcpv4.Io
import IonContrib.Tcpv4.SendIov
import IonContrib.Bpsh.Client
import IonContrib.Bpsh.Replay
import IonContrib.Mail.Clo
import IonContrib.Mail.CloLedger
import IonContrib.Lib.Transactions
import IonContrib.Mysql.Statement
import IonContrib.Mysql.Clo
import IonContrib.Mysql.CloLedger
import IonContrib.Tcpv4.Spelling
import IonContrib.Tcpv4.Dial
import IonContrib.Tcpv4.BackOff
import IonContrib.Tcpv4.Limits
import IonContrib.Lib.Der
import IonContrib.Tcpv4.Certificate
import IonContrib.Quic.Codec
import IonContrib.Lib.Train
import IonContrib.Quic.Udp
import IonContrib.Quic.PeerLimits
import IonContrib.Quic.DgQueue
import IonContrib.Zcl.Enc
import IonContrib.Zcl.EncNumbers
import IonContrib.Lib.FrontParser
import IonContrib.Zcl.Records
import IonContrib.Quic.Chunks
import IonContrib.Lib.Crc
import IonContrib.Zcl.Checksum
import IonContrib.Bptun.Route
import IonContrib.Bptun.RouteAdd
import IonContrib.Lib.Argmax
import IonContrib.Bptun.Lookup
import IonContrib.Mail.Headers
import IonContrib.DuctName.Parse
import IonContrib.DuctName.Exact
import IonContrib.DuctName.ServerSpec
import IonContrib.Linkimpair.Queue
import IonContrib.Linkimpair.Order
import IonContrib.Lib.CborHead
import IonContrib.Bpsh.Wire
import IonContrib.Bpsh.WireExact
import IonContrib.Bpsh.WireRoundTrip
import IonContrib.Lib.Keyed
import IonContrib.Mysql.CliStatement
import IonContrib.Mysql.Cli
import IonContrib.Mysql.CliAtomic
import IonContrib.Mysql.CliRuns
import IonContrib.Lib.Block
import IonContrib.Bpsh.Line
import IonContrib.Bpsh.LineSim
import IonContrib.Bpsh.LineRuns
import IonContrib.Lib.Stages
import IonContrib.Tcpv4.Incoming
import IonContrib.Tcpv4.Received
import IonContrib.Tcpv4.Reassembly
import IonContrib.Tcpv4.RxTracks
import IonContrib.Tcpv4.RxBounds
import IonContrib.Zcl.EncText
import IonContrib.Zcl.Zclo
import IonContrib.Zcl.ZcloSteps
import IonContrib.Zcl.ZcloLedger
import IonContrib.Zcl.ZcloChunks
import IonContrib.Zcl.EncChunks
import IonContrib.Zcl.Decode
import IonContrib.Zcl.OnePeer
import IonContrib.Zcl.Course
import IonContrib.Zcl.Tagged
import IonContrib.Zcl.InOrder
import IonContrib.Zcl.Exact
import IonContrib.Zcl.InTime
import IonContrib.Zcl.ZcloLots
import IonContrib.Zcl.Tunnel
import IonContrib.Tcpv4.Wire
import IonContrib.Tcpv4.Cut
import IonContrib.Tcpv4.Sent
import IonContrib.Tcpv4.Answered
import IonContrib.Tcpv4.Heard
import IonContrib.Tcpv4.Credited
import IonContrib.Tcpv4.Account
import IonContrib.Tcpv4.EndToEnd
