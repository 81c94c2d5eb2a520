/-
  IonContrib.Mail.Msg

  Messages of the mail convergence layer (`mailmsg.c`): `mailBuildMessage`
  puts bundles into one, `mailParseMessage` hands those of one to a callback.

  Memory is outside: `mem n` says whether a request for `n` octets is
  answered.  A C string is the list of its octets, and a place in a message is
  the octets from there on.
-/
import IonContrib.Lib.Doubling
import IonContrib.Lib.Find
import IonContrib.Mail.Base64

namespace IonContrib.Mail

open Octets

def crlf : Octets := [0x0d, 0x0a]
def mailBoundary : Octets := ascii "ION-BUNDLE-MAIL-SEPARATOR"
def mailSeparator : Octets := ascii "--ION-BUNDLE-MAIL-SEPARATOR--"
def mailHdrEncoding : Octets := ascii "X-ION-Bundle-Encoding"
def mailHdrCount : Octets := ascii "X-ION-Bundle-Count"
def defaultSubject : Octets := ascii "ION-DTN Bundle"

/-- `MAIL_ENC_*`. -/
inductive MailEncoding where
  | attach
  | b64
  | raw
  deriving DecidableEq, Repr

def mailEncodingName : MailEncoding → Octets
  | .attach => ascii "attach"
  | .b64 => ascii "b64"
  | .raw => ascii "raw"

/-! ## The growing buffer -/

structure Buf where
  p : Octets
  cap : Nat
  deriving DecidableEq, Repr

def bufEnsure (mem : Nat → Bool) (b : Buf) (extra : Nat) : Option Buf :=
  let want := b.p.length + extra + 1
  if want > b.cap then
    let ncap := doubleUntil want (if b.cap = 0 then 1024 else b.cap) want
    if mem ncap then some { b with cap := ncap } else none
  else some b

def bufAppend (mem : Nat → Bool) (b : Buf) (data : Octets) : Option Buf :=
  match bufEnsure mem b data.length with
  | none => none
  | some b => some { b with p := b.p ++ data }

/-- The loop of `bufB64`: lines of 76 characters. -/
def bufLines (mem : Nat → Bool) : Nat → Octets → Buf → Option Buf
  | 0, _, b => some b
  | rounds + 1, enc, b =>
    if enc = [] then some b
    else do
      let b ← bufAppend mem b (enc.take 76)
      let b ← bufAppend mem b crlf
      bufLines mem rounds (enc.drop 76) b

def bufB64 (mem : Nat → Bool) (b : Buf) (bundle : Octets) : Option Buf :=
  let cap := mailB64EncodedLen bundle.length
  if !mem cap then none
  else do
    let enc ← mailB64Encode bundle cap
    bufLines mem enc.length enc b

/-! ## Building -/

/-- `snprintf` into `char line[256]`. -/
def line (text : Octets) : Octets := text.take 255

/-- `%zu`. -/
def sizeText (n : Nat) : Octets := ascii (toString n)

theorem mem_sizeText {n : Nat} {c : UInt8} (h : c ∈ sizeText n) : 0x30 ≤ c ∧ c ≤ 0x39 := by
  unfold sizeText ascii at h
  obtain ⟨d, h_d, rfl⟩ := List.mem_map.mp h
  rw [Nat.toString_eq_ofList_toDigits, String.toList_ofList] at h_d
  have h_digit := Nat.isDigit_of_mem_toDigits (by decide) (by decide) h_d
  simp only [Char.isDigit, Bool.and_eq_true, decide_eq_true_eq] at h_digit
  obtain ⟨h_low, h_high⟩ := h_digit
  have h_low : 48 ≤ d.toNat := h_low
  have h_high : d.toNat ≤ 57 := h_high
  rw [UInt8.le_iff_toNat_le, UInt8.le_iff_toNat_le, UInt8.toNat_ofNat',
    Nat.mod_eq_of_lt (by omega)]
  exact ⟨h_low, h_high⟩

/-- Room for any number that a machine word holds. -/
theorem sizeText_length_le {n : Nat} (h : n < 2 ^ 64) : (sizeText n).length ≤ 20 := by
  rw [sizeText, ascii, List.length_map, Nat.toString_eq_ofList_toDigits, String.toList_ofList]
  exact (Nat.length_toDigits_le_iff (by decide) (by decide)).mpr (by omega)

/-- The loop of the parts of a multipart message, from part `i` on. -/
def buildParts (mem : Nat → Bool) : Nat → List Octets → Buf → Option Buf
  | _, [], b => some b
  | i, bundle :: bundles, b => do
    let b ← bufAppend mem b (ascii "--" ++ mailBoundary ++ crlf)
    let b ← bufAppend mem b (line (ascii "Content-Type: application/octet-stream; name=\"bundle" ++
      sizeText (i + 1) ++ ascii ".bp\"" ++ crlf))
    let b ← bufAppend mem b (ascii "Content-Transfer-Encoding: base64" ++ crlf ++ crlf)
    let b ← bufB64 mem b bundle
    buildParts mem (i + 1) bundles b

/-- What stands in front of each bundle of a text body but the first. -/
def bufSeparator (mem : Nat → Bool) (first : Bool) (b : Buf) : Option Buf :=
  if first then some b else bufAppend mem b (crlf ++ mailSeparator ++ crlf)

def bufItem (mem : Nat → Bool) (encoding : MailEncoding) (b : Buf) (bundle : Octets) :
    Option Buf :=
  if encoding = .b64 then bufB64 mem b bundle else bufAppend mem b bundle

/-- The loop of the bundles of a text body. -/
def buildBody (mem : Nat → Bool) (encoding : MailEncoding) :
    Bool → List Octets → Buf → Option Buf
  | _, [], b => some b
  | first, bundle :: bundles, b => do
    let b ← bufSeparator mem first b
    let b ← bufItem mem encoding b bundle
    buildBody mem encoding false bundles b

/-- The last header and the body of a multipart message. -/
def buildAttach (mem : Nat → Bool) (bundles : List Octets) (b : Buf) : Option Buf := do
  let b ← bufAppend mem b (ascii "Content-Type: multipart/mixed; boundary=\"" ++
    mailBoundary ++ ascii "\"" ++ crlf ++ crlf)
  let b ← buildParts mem 0 bundles b
  bufAppend mem b (ascii "--" ++ mailBoundary ++ ascii "--" ++ crlf)

/-- The last header and the body of a text message. -/
def buildText (mem : Nat → Bool) (encoding : MailEncoding) (bundles : List Octets) (b : Buf) :
    Option Buf := do
  let b ← bufAppend mem b (ascii "Content-Type: text/plain" ++ crlf ++ crlf)
  buildBody mem encoding true bundles b

def buildContent (mem : Nat → Bool) (encoding : MailEncoding) (bundles : List Octets) (b : Buf) :
    Option Buf :=
  if encoding = .attach then buildAttach mem bundles b else buildText mem encoding bundles b

def mailBuildMessage (mem : Nat → Bool) (sender recipient : Octets) (subject : Option Octets)
    (encoding : MailEncoding) (bundles : List Octets) : Option Octets :=
  if bundles = [] then none
  else do
    let b ← bufAppend mem ⟨[], 0⟩ (line (ascii "From: " ++ sender ++ crlf))
    let b ← bufAppend mem b (line (ascii "To: " ++ recipient ++ crlf))
    let b ← bufAppend mem b (line (ascii "Subject: " ++ subject.getD defaultSubject ++ crlf))
    let b ← bufAppend mem b (ascii "MIME-Version: 1.0" ++ crlf)
    let b ← bufAppend mem b
      (line (mailHdrEncoding ++ ascii ": " ++ mailEncodingName encoding ++ crlf))
    let b ← bufAppend mem b (line (mailHdrCount ++ ascii ": " ++ sizeText bundles.length ++ crlf))
    let b ← buildContent mem encoding bundles b
    some b.p

/-! ## Parsing -/

def memfind (hay ndl : Octets) : Option Nat := if ndl = [] then none else Find.find ndl hay

def bodyStart (msg : Octets) : Octets :=
  match memfind msg (crlf ++ crlf) with
  | some off => msg.drop (off + 4)
  | none =>
    match memfind msg [0x0a, 0x0a] with
    | some off => msg.drop (off + 2)
    | none => msg

/-- The boundary that the headers `hdr` declare. -/
def findBoundary (hdr : Octets) (outCap : Nat) : Option Octets :=
  match memfind hdr (ascii "boundary=") with
  | none => none
  | some off =>
    let out :=
      match hdr.drop (off + 9) with
      | 0x22 :: p => (p.takeWhile (· ≠ 0x22)).take (outCap - 1)
      | p => (p.takeWhile fun c => c ≠ 0x0d ∧ c ≠ 0x0a ∧ c ≠ 0x3b ∧ c ≠ 0x20).take (outCap - 1)
    if out = [] then none else some out

/-- Who takes the bundles: a callback, which may refuse one, on a context of its own. -/
structure Sink (σ : Type) where
  cb : σ → Octets → σ × Bool
  mem : Nat → Bool

variable {σ : Type} (k : Sink σ)

/-- A bundle for the callback, and 1 or -1. -/
def deliver (ctx : σ) (bundle : Octets) : σ × Int :=
  ((k.cb ctx bundle).1, if (k.cb ctx bundle).2 then 1 else -1)

def deliverB64 (ctx : σ) (chunk : Octets) : σ × Int :=
  if chunk = [] then (ctx, 0)
  else if !k.mem chunk.length then (ctx, -1)
  else
    match mailB64Decode chunk chunk.length with
    | none => (ctx, 0)
    | some bundle => if bundle = [] then (ctx, 0) else deliver k ctx bundle

/-- Without the line end it begins with. -/
def trimFront (chunk : Octets) : Octets := if chunk.take 2 = crlf then chunk.drop 2 else chunk

/-- Without the line end it ends with. -/
def trimEnd (chunk : Octets) : Octets :=
  if chunk.length ≥ 2 ∧ chunk.drop (chunk.length - 2) = crlf then chunk.take (chunk.length - 2)
  else chunk

/-- The loop of `parseAttach` from a delimiter on.  A round takes at least the delimiter, so
    there are no more than octets. -/
def attachLoop (delim : Octets) : Nat → Octets → σ → Int → σ × Int
  | 0, _, ctx, count => (ctx, count)
  | rounds + 1, p, ctx, count =>
    let partHdr := p.drop delim.length
    if partHdr.take 2 = [0x2d, 0x2d] then (ctx, count)
    else
      match memfind partHdr (crlf ++ crlf) with
      | none => (ctx, count)
      | some hsep =>
        let partBody := partHdr.drop (hsep + 4)
        match memfind partBody delim with
        | none => (ctx, count)
        | some next =>
          match deliverB64 k ctx (trimEnd (partBody.take next)) with
          | (ctx, rc) =>
            if rc < 0 then (ctx, -1)
            else attachLoop delim rounds (partBody.drop next) ctx
              (if rc > 0 then count + 1 else count)

def parseAttach (msg : Octets) (ctx : σ) : σ × Int :=
  let hdrLen := (memfind msg (crlf ++ crlf)).getD msg.length
  match findBoundary (msg.take hdrLen) 128 with
  | none => (ctx, 0)
  | some boundary =>
    let delim := (ascii "--" ++ boundary.takeWhile (· ≠ 0)).take 131
    let body := bodyStart msg
    match memfind body delim with
    | none => (ctx, 0)
    | some p => attachLoop k delim body.length (body.drop p) ctx 0

/-- The loop of `parseBody`.  A round but the last takes a separator. -/
def bodyLoop (encoding : MailEncoding) : Nat → Octets → Bool → σ → Int → σ × Int
  | 0, _, _, ctx, count => (ctx, count)
  | rounds + 1, p, first, ctx, count =>
    if p = [] then (ctx, count)
    else
      let sep := memfind p mailSeparator
      let chunk := p.take (sep.getD p.length)
      let chunk := if first then chunk else trimFront chunk
      let chunk := if sep.isSome then trimEnd chunk else chunk
      match if encoding = .b64 then deliverB64 k ctx chunk
        else if chunk = [] then (ctx, 0) else deliver k ctx chunk with
      | (ctx, rc) =>
        if rc < 0 then (ctx, -1)
        else
          let count := if rc > 0 then count + 1 else count
          match sep with
          | none => (ctx, count)
          | some off => bodyLoop encoding rounds (p.drop (off + mailSeparator.length)) false ctx count

def parseBody (msg : Octets) (encoding : MailEncoding) (ctx : σ) : σ × Int :=
  let body := bodyStart msg
  bodyLoop k encoding (body.length + 1) body true ctx 0

def mailParseMessage (msg : Octets) (encoding : MailEncoding) (ctx : σ) : σ × Int :=
  if encoding = .attach then parseAttach k msg ctx else parseBody k msg encoding ctx

end IonContrib.Mail
