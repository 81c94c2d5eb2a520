/-
  IonContrib.DuctName.Parse

  The texts that name a server, and the four functions that read them:
  `parseMysqlDuctName` and `parseQuicDuctName` take "host[:port]",
  `parseMqttDuctName` takes "host:port/suffix", and `mailParseServerSpec`
  "[user[:pass]@]host[:port]".

  The out parameters are a record that is passed through: what a function has
  written before it fails stays written, and what it does not write is as it
  was.  No pointer is null.
-/
import IonContrib.Lib.CText

namespace IonContrib.DuctName

open Octets CText

/-! ## The parsers -/

/-- `char *host, int *port`. -/
structure DuctOut where
  host : Octets
  port : Int
  deriving DecidableEq, Repr

/-- "host[:port]", with the host in a field of `maxHost` octets. -/
def parseHostPort (maxHost : Nat) (ductName : Octets) (out : DuctOut) : DuctOut × Int :=
  match splitFirst 0x3a ductName with
  | none =>
    if ductName.length = 0 ∨ ductName.length ≥ maxHost then (out, -1)
    else ({ out with host := ductName.take (maxHost - 1) }, 0)
  | some (host, rest) =>
    if host.length = 0 ∨ host.length ≥ maxHost then (out, -1)
    else
      let out := { out with host := host }
      match scanInt rest with
      | none => (out, -1)
      | some port =>
        let out := { out with port := port }
        if port ≤ 0 ∨ port > 65535 then (out, -1) else (out, 0)

def mysqlMaxHostLen : Nat := 256
def quicMaxHostLen : Nat := 256
def mqttMaxHostLen : Nat := 256
def mqttMaxTopicLen : Nat := 512
def mailMaxHost : Nat := 256
def mailMaxCred : Nat := 256

def parseMysqlDuctName : Octets → DuctOut → DuctOut × Int := parseHostPort mysqlMaxHostLen

def parseQuicDuctName : Octets → DuctOut → DuctOut × Int := parseHostPort quicMaxHostLen

/-- `char *host, int *port, char *topicSuffix`. -/
structure MqttOut extends DuctOut where
  topicSuffix : Octets
  deriving DecidableEq, Repr

def parseMqttDuctName (ductName : Octets) (out : MqttOut) : MqttOut × Int :=
  match splitFirst 0x3a ductName with
  | none => (out, -1)
  | some (host, rest) =>
    if host.length = 0 ∨ host.length ≥ mqttMaxHostLen then (out, -1)
    else
      let out := { out with host := host }
      match splitFirst 0x2f rest with
      | none => (out, -1)
      | some (_, suffix) =>
        match scanInt rest with
        | none => (out, -1)
        | some port =>
          let out := { out with port := port }
          if port ≤ 0 ∨ port > 65535 then (out, -1)
          else if suffix.length = 0 ∨ suffix.length ≥ mqttMaxTopicLen then (out, -1)
          else ({ out with topicSuffix := suffix.take (mqttMaxTopicLen - 1) }, 0)

/-- `char *host, int *port, char *user, char *pass`. -/
structure MailOut extends DuctOut where
  user : Octets
  pass : Octets
  deriving DecidableEq, Repr

/-- The part of `mailParseServerSpec` on what stands in front of the at sign. -/
def readCreds (creds : Octets) (out : MailOut) : MailOut × Bool :=
  match splitFirst 0x3a creds with
  | none => if creds.length ≥ mailMaxCred then (out, false) else ({ out with user := creds }, true)
  | some (user, pass) =>
    if user.length ≥ mailMaxCred then (out, false)
    else
      let out := { out with user := user }
      if pass.length ≥ mailMaxCred then (out, false) else ({ out with pass := pass }, true)

/-- The part of `mailParseServerSpec` from `hostpart` on. -/
def readHostPart (hostpart : Octets) (out : MailOut) : MailOut × Int :=
  match splitLast 0x3a hostpart with
  | some (host, rest) =>
    if host.length = 0 ∨ host.length ≥ mailMaxHost then (out, -1)
    else
      let port := atoi rest
      let out := { out with host := host, port := port }
      if port ≤ 0 ∨ port > 65535 then (out, -1) else (out, 0)
  | none => ({ out with host := hostpart.take (mailMaxHost - 1), port := 0 }, 0)

def mailParseServerSpec (spec : Octets) (out : MailOut) : MailOut × Int :=
  match splitFirst 0x40 spec with
  | none => readHostPart spec out
  | some (creds, hostpart) =>
    let (out, fits) := readCreds creds out
    if fits then readHostPart hostpart out else (out, -1)

/-! ## What the texts mean -/

/-- A host that a field of `cap` octets has room for. -/
def HostText (cap : Nat) (host : Octets) : Prop := host ≠ [] ∧ host.length < cap

/-- Decimal digits and nothing else, with a value that is a port. -/
def PortText (text : Octets) (port : Int) : Prop :=
  text ≠ [] ∧ text.all isDigit = true ∧ port = decimal text ∧ 1 ≤ port ∧ port ≤ 65535

/-- "host[:port]" where `isHost` says what a host is. -/
inductive HostPort (isHost : Octets → Prop) : Octets → Octets → Option Int → Prop
  | bare {host : Octets} (h_host : isHost host) (h_colon : 0x3a ∉ host) :
      HostPort isHost host host none
  | port {host text : Octets} {port : Int} (h_host : isHost host) (h_port : PortText text port) :
      HostPort isHost (host ++ 0x3a :: text) host (some port)

/-- "host:port/suffix". -/
inductive HostPortSuffix : Octets → Octets → Int → Octets → Prop
  | mk {host text suffix : Octets} {port : Int} (h_host : HostText mqttMaxHostLen host)
      (h_colon : 0x3a ∉ host) (h_port : PortText text port)
      (h_suffix : suffix ≠ [] ∧ suffix.length < mqttMaxTopicLen) :
      HostPortSuffix (host ++ 0x3a :: (text ++ 0x2f :: suffix)) host port suffix

/-- "user[:pass]", each with room in its field.  A user has no colon in it. -/
inductive Creds : Octets → Octets → Option Octets → Prop
  | user {user : Octets} (h_user : user.length < mailMaxCred) (h_colon : 0x3a ∉ user) :
      Creds user user none
  | pass {user pass : Octets} (h_user : user.length < mailMaxCred) (h_colon : 0x3a ∉ user)
      (h_pass : pass.length < mailMaxCred) : Creds (user ++ 0x3a :: pass) user (some pass)

/-- What a server specification says. -/
structure MailParts where
  host : Octets
  port : Option Int
  user : Option Octets
  pass : Option Octets

/-- "[user[:pass]@]host[:port]", where the last at sign ends the credentials. -/
inductive ServerSpec : Octets → MailParts → Prop
  | bare {hostpart host : Octets} {port : Option Int} (h_at : 0x40 ∉ hostpart)
      (h_host : HostPort (HostText mailMaxHost) hostpart host port) :
      ServerSpec hostpart ⟨host, port, none, none⟩
  | creds {creds hostpart host user : Octets} {port : Option Int} {pass : Option Octets}
      (h_at : 0x40 ∉ hostpart) (h_creds : Creds creds user pass)
      (h_host : HostPort (HostText mailMaxHost) hostpart host port) :
      ServerSpec (creds ++ 0x40 :: hostpart) ⟨host, port, some user, pass⟩

/-- The parts are put where the caller wants them; a port that is not named is 0. -/
def MailParts.store (parts : MailParts) (out : MailOut) : MailOut where
  host := parts.host
  port := parts.port.getD 0
  user := parts.user.getD out.user
  pass := parts.pass.getD out.pass

/-- A host and a port are put where the caller wants them; a port that is not named stays. -/
def DuctOut.store (out : DuctOut) (host : Octets) (port : Option Int) : DuctOut where
  host := host
  port := port.getD out.port

/-! ## What is to be returned -/

/-- A text that is of the form is taken apart as it is meant, any other is refused. -/
structure Exact {Parts Out : Type} (form : Octets → Parts → Prop) (store : Parts → Out → Out)
    (parse : Octets → Out → Out × Int) (text : Octets) (out : Out) : Prop where
  accepts : ∀ parts, form text parts → parse text out = (store parts out, 0)
  refuses : (¬ ∃ parts, form text parts) → (parse text out).2 = -1

/-- `mailParseServerSpec` does with `spec` what is meant. -/
def MailExact (spec : Octets) (out : MailOut) : Prop :=
  Exact ServerSpec MailParts.store mailParseServerSpec spec out

/-- A name in front of the first colon. -/
def DuctHost (maxHost : Nat) (host : Octets) : Prop := HostText maxHost host ∧ 0x3a ∉ host

/-- A function that reads "host[:port]" does with `ductName` what is meant. -/
def HostPortExact (maxHost : Nat) (parse : Octets → DuctOut → DuctOut × Int) (ductName : Octets)
    (out : DuctOut) : Prop :=
  Exact (fun text (parts : Octets × Option Int) => HostPort (DuctHost maxHost) text parts.1 parts.2)
    (fun parts out => out.store parts.1 parts.2) parse ductName out

/-- `parseMqttDuctName` does with `ductName` what is meant. -/
def MqttExact (ductName : Octets) (out : MqttOut) : Prop :=
  Exact (fun text (parts : Octets × Int × Octets) =>
      HostPortSuffix text parts.1 parts.2.1 parts.2.2)
    (fun parts _ => ⟨⟨parts.1, parts.2.1⟩, parts.2.2⟩) parseMqttDuctName ductName out

end IonContrib.DuctName
