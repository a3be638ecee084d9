import GameWire.Rsa.Der
import GameWire.Text.Base64
import GameWire.Text.Utf8

/-!
# Keys in PEM

A PEM text holds a byte string in Base64 between two boundaries that carry the same label. Text may
stand before the first boundary, and one line end may follow the second. All lines between them have
64 characters, except the last, which may have fewer.
-/

namespace GameWire.Rsa.Pem

def opening : Bytes := Utf8.encode "-----BEGIN "

def closing : Bytes := Utf8.encode "-----END "

/-- What both boundaries end with. -/
def dashes : Bytes := Utf8.encode "-----"

def lineWidth : Nat := 64

/-- What follows the line end at the front. -/
def afterBreak? : Bytes → Option Bytes
  | 0x0D :: 0x0A :: bs => some bs
  | 0x0D :: bs | 0x0A :: bs => some bs
  | _ => none

/-- What comes before the line end at the back. -/
def beforeBreak? (bs : Bytes) : Option Bytes :=
  match bs.reverse with
  | 0x0A :: 0x0D :: rest => some rest.reverse
  | 0x0A :: rest | 0x0D :: rest => some rest.reverse
  | _ => none

/-- What follows the beginning of the first boundary, which stands at the start of a line. -/
def afterOpening? (atLineStart : Bool) : Bytes → Option Bytes
  | [] => none
  | b :: bs =>
    match if atLineStart then opening.isPrefixOf? (b :: bs) else none with
    | some rest => some rest
    | none => if b = 0 then none else afterOpening? (b = 0x0A) bs

theorem length_le_of_afterBreak? {bs rest : Bytes} (h : afterBreak? bs = some rest) :
    rest.length ≤ bs.length := by
  unfold afterBreak? at h
  split at h <;> simp_all
  omega

/-- The lines of an encoded byte string in one piece. -/
def joinLines? (bs : Bytes) : Option Bytes :=
  if _h : lineWidth < bs.length then
    match hb : afterBreak? (bs.drop lineWidth) with
    | some rest =>
      have := length_le_of_afterBreak? hb
      (joinLines? rest).map (bs.take lineWidth ++ ·)
    | none => none
  else some ((beforeBreak? bs).getD bs)
termination_by bs.length
decreasing_by simp only [List.length_drop, lineWidth] at *; omega

def decode? (label : String) (text : Bytes) : Option Bytes := do
  let name := Utf8.encode label
  let rest ← (name ++ dashes).isPrefixOf? (← afterOpening? true text)
  let rest ← afterBreak? rest
  let body ← (closing ++ name ++ dashes).isSuffixOf? ((beforeBreak? rest).getD rest)
  Base64.decode? (← joinLines? (← beforeBreak? body))

def privateKey? (text : Bytes) : Option PrivateKey :=
  (decode? "PRIVATE KEY" text).bind Der.privateKey?

def publicKey? (text : Bytes) : Option PublicKey :=
  (decode? "PUBLIC KEY" text).bind Der.publicKey?

end GameWire.Rsa.Pem
