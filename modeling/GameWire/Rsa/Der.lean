import GameWire.Rsa.Key

/-!
# Keys in DER

A DER element is a tag, a length in its shortest form, and as many bytes of content. Keys are
sequences of elements: a private key in PKCS #8 form, a public one as the key info of a subject.
Both say that they are RSA keys and wrap the sequence of the key's numbers.
-/

namespace GameWire.Rsa.Der

structure Element where
  tag : UInt8
  content : Bytes
  deriving DecidableEq, Repr

/-- The length at the front, in its shortest form. -/
def length? : Bytes → Option (Nat × Bytes)
  | [] => none
  | b :: bs =>
    if b < 0x80 then some (b.toNat, bs)
    else
      let width := b.toNat - 0x80
      if 1 ≤ width ∧ width ≤ 4 then do
        let (digits, rest) ← Bytes.cut? width bs
        -- A shorter form must not have been possible.
        let n := Bytes.ofBE digits
        if 0x80 ≤ n ∧ 256 ^ (width - 1) ≤ n then some (n, rest) else none
      else none

def element? : Bytes → Option (Element × Bytes)
  | [] => none
  | tag :: bs =>
    -- Tags that go on in further bytes are not used in keys.
    if tag &&& 0x1F = 0x1F then none
    else do
      let (count, bs) ← length? bs
      let (content, rest) ← Bytes.cut? count bs
      some ({ tag, content }, rest)

/-- The elements that a byte string consists of, of which there are at most `limit`. -/
def elements? : (limit : Nat) → Bytes → Option (List Element)
  | _, [] => some []
  | 0, _ :: _ => none
  | limit + 1, bs => do
    let (e, rest) ← element? bs
    let es ← elements? limit rest
    some (e :: es)

def Element.items? (e : Element) : Option (List Element) :=
  if e.tag = 0x30 then elements? e.content.length e.content else none

/-- The elements of the sequence that is all of a byte string. -/
def sequence? (bs : Bytes) : Option (List Element) :=
  match element? bs with
  | some (e, []) => e.items?
  | _ => none

/-- A number that is not negative, in its shortest form. -/
def Element.number? (e : Element) : Option Nat :=
  match e.tag, e.content with
  | 0x02, [0] => some 0
  | 0x02, 0 :: b :: bs => if b < 0x80 then none else some (Bytes.ofBE (b :: bs))
  | 0x02, b :: bs => if b < 0x80 then some (Bytes.ofBE (b :: bs)) else none
  | _, _ => none

/-- Whether an element says that a key is an RSA key. -/
def Element.saysRsa (e : Element) : Bool :=
  e.items? == some [⟨0x06, [0x2A, 0x86, 0x48, 0x86, 0xF7, 0x0D, 0x01, 0x01, 0x01]⟩, ⟨0x05, []⟩]

/-- Whether an element is of the kind that each kind of sequence numbers for itself. -/
def Element.isSpecific (e : Element) : Bool :=
  e.tag &&& 0xC0 == 0x80

/-- The private key of which a byte string is the sequence of numbers. Its numbers must belong
together. -/
def privateNumbers? (bs : Bytes) : Option PrivateKey := do
  let ns ← (← sequence? bs).mapM Element.number?
  match ns with
  -- Version, the three numbers of the key, the two primes, and three that follow from them.
  | [0, modulus, publicExponent, exponent, p, q, _, _, _] =>
    let fits (prime : Nat) : Bool := 1 < prime && publicExponent * exponent % (prime - 1) == 1
    if isUsable modulus publicExponent && p * q == modulus && fits p && fits q then
      some { modulus, publicExponent, exponent }
    else none
  | _ => none

/-- A private key. With version one a public key must come along, and with version zero none. -/
def privateKey? (bs : Bytes) : Option PrivateKey := do
  match ← sequence? bs with
  | version :: algorithm :: key :: more =>
    let n ← version.number?
    let named := more.any fun e => e.tag &&& 0x1F == 1
    if n ≤ 1 ∧ named = (n == 1) ∧ algorithm.saysRsa ∧ key.tag = 0x04 ∧ more.all Element.isSpecific
    then privateNumbers? key.content
    else none
  | _ => none

/-- The public key of which a byte string is the sequence of numbers. -/
def publicNumbers? (bs : Bytes) : Option PublicKey := do
  let ns ← (← sequence? bs).mapM Element.number?
  match ns with
  | [modulus, exponent] => if isUsable modulus exponent then some { modulus, exponent } else none
  | _ => none

/-- A public key. It stands in a string of bits that fill whole bytes. -/
def publicKey? (bs : Bytes) : Option PublicKey := do
  match ← sequence? bs with
  | [algorithm, ⟨0x03, 0 :: key⟩] => if algorithm.saysRsa then publicNumbers? key else none
  | _ => none

end GameWire.Rsa.Der
