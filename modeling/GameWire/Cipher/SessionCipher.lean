import GameWire.Cipher.Chaining
import GameWire.Cipher.Sha256
import GameWire.Cipher.XChaCha
import GameWire.Error
import GameWire.Text.Utf8

/-!
# Session ciphers

A session cipher seals whole frames. What it makes of a frame is an envelope, which announces its
own length near its front, so that a reader can cut it out of a stream. Two envelopes come with the
library:

    XChaCha20-Poly1305   [length, 4 bytes] [nonce, 24] [ciphertext and tag]
    AES-256              [digest, 32] [digest, 32] [magic, 4] [length, 4] [block, 16] [ciphertext]

Lengths are little-endian. The digests of the second one are written for peers that look at them,
and are not looked at here.
-/

namespace GameWire

inductive CipherSuite where
  /-- XChaCha20-Poly1305, the cipher used unless another is chosen. -/
  | xchacha
  /-- AES-256 in block chaining mode. -/
  | aes
  deriving DecidableEq, Repr

namespace CipherSuite

instance : Inhabited CipherSuite := ⟨xchacha⟩

def all : List CipherSuite := [xchacha, aes]

theorem mem_all (s : CipherSuite) : s ∈ all := by cases s <;> decide

/-- The name of a suite, shown to people and written into configuration files. -/
def key : CipherSuite → String
  | xchacha => "xchacha20poly1305"
  | aes => "aes256cbc"

def ofKey? (s : String) : Option CipherSuite :=
  all.find? fun c => c.key == s

theorem ofKey?_key (c : CipherSuite) : ofKey? c.key = some c := by cases c <;> decide

end CipherSuite

/-- Random bytes for one call, by place. -/
abbrev Entropy := Nat → UInt8

def Entropy.take (entropy : Entropy) (count : Nat) : Bytes :=
  (List.range count).map entropy

@[simp] theorem Entropy.length_take (entropy : Entropy) (count : Nat) :
    (entropy.take count).length = count := by
  simp [Entropy.take]

structure SessionCipher where
  sealFrame : Entropy → Bytes → Except ProtocolError Bytes
  openFrame : Bytes → Except ProtocolError Bytes
  /-- The length that the envelope at the front of a stream announces, once it is there. -/
  sealedLength? : Bytes → Option Nat
  /-- The length of the shortest envelope. -/
  minSealedLength : Nat
  /-- The most that sealing adds to a frame. -/
  maxOverhead : Nat

abbrev CipherFactory := Bytes → Except ProtocolError SessionCipher

def requireSecret (secret : Bytes) : Except ProtocolError Unit :=
  if secret.isEmpty then .error (.handshake .emptySecret) else .ok ()

/-! ## Keys -/

/-- What is put before a secret when it is hashed into a key. -/
def sessionLabel : String := "packet-protocol session v1"

def deriveKey (secret : Bytes) : Bytes :=
  Sha256.digest (Utf8.encode sessionLabel ++ secret)

@[simp] theorem length_deriveKey (secret : Bytes) : (deriveKey secret).length = 32 := by
  simp [deriveKey]

/-! ## The envelope of XChaCha20-Poly1305 -/

namespace XChaCha

def overhead : Nat := 4 + nonceLength + tagLength

def sealFrame (key : Bytes) (entropy : Entropy) (frame : Bytes) : Except ProtocolError Bytes :=
  let nonce := entropy.take nonceLength
  let ciphertext := encrypt key nonce frame
  let total := 4 + nonceLength + ciphertext.length
  if total < 2 ^ 32 then .ok (Bytes.le 4 total ++ nonce ++ ciphertext)
  else .error (.encode (.envelopeTooLong total))

def openFrame (key sealed : Bytes) : Except ProtocolError Bytes :=
  if sealed.length < overhead then .error (.decode .shortEnvelope)
  else
    let behindLength := sealed.drop 4
    match decrypt? key (behindLength.take nonceLength) (behindLength.drop nonceLength) with
    | some frame => .ok frame
    | none => .error .decryptionFailure

def cipher (key : Bytes) : SessionCipher where
  sealFrame := sealFrame key
  openFrame := openFrame key
  sealedLength? := Bytes.u32At? 0
  minSealedLength := overhead
  maxOverhead := overhead

end XChaCha

/-! ## The envelope of AES-256 -/

namespace Chaining

/-- What stands before the length of an envelope. -/
def magic : Bytes := [0x01, 0x00, 0xFF, 0xFF]

def lengthOffset : Nat := 0x44

/-- Where the random block stands. -/
def initialOffset : Nat := 0x48

/-- Where the ciphertext stands. -/
def headLength : Nat := 0x58

/-- The envelope of a frame. The second digest is that of what begins with the length, and the first
is that of everything before the ciphertext, with zeros in its own place. -/
def sealFrame (key : Bytes) (entropy : Entropy) (frame : Bytes) : Except ProtocolError Bytes :=
  let initial := entropy.take blockLength
  let ciphertext := encrypt key initial frame
  let total := headLength + ciphertext.length
  if total < 2 ^ 32 then
    let body := Bytes.le 4 total ++ initial ++ ciphertext
    let second := Sha256.digest body
    let first := Sha256.digest (Bytes.zeros 0x20 ++ second ++ magic ++ Bytes.le 4 total ++ initial)
    .ok (first ++ second ++ magic ++ body)
  else .error (.encode (.envelopeTooLong total))

def openFrame (key sealed : Bytes) : Except ProtocolError Bytes :=
  if sealed.length < headLength + blockLength then .error (.decode .shortEnvelope)
  else
    match decrypt? key ((sealed.drop initialOffset).take blockLength) (sealed.drop headLength) with
    | some frame => .ok frame
    | none => .error .decryptionFailure

def cipher (key : Bytes) : SessionCipher where
  sealFrame := sealFrame key
  openFrame := openFrame key
  sealedLength? := Bytes.u32At? lengthOffset
  minSealedLength := headLength + blockLength
  maxOverhead := headLength + blockLength

/-- The key of a secret: 32 bytes in the middle of a long one, and otherwise a hash. -/
def keyOf (secret : Bytes) : Bytes :=
  if 0x50 ≤ secret.length then (secret.drop 0x30).take 0x20 else deriveKey secret

end Chaining

/-! ## Suites -/

def CipherSuite.establish (suite : CipherSuite) : CipherFactory := fun secret => do
  requireSecret secret
  pure (match suite with
    | .xchacha => XChaCha.cipher (deriveKey secret)
    | .aes => Chaining.cipher (Chaining.keyOf secret))

end GameWire
