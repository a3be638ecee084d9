import GameWire.Bytes

/-!
# AES-256

A block is a column-wise table of four by four bytes. Fourteen rounds substitute bytes, shift rows,
mix columns and add a key; the last of them mixes no columns. Bytes are multiplied as polynomials
modulo x⁸ + x⁴ + x³ + x + 1.
-/

namespace GameWire.Aes

/-! ## Arithmetic of bytes -/

/-- A byte times x. -/
def double (b : UInt8) : UInt8 :=
  if b &&& 0x80 = 0 then b <<< 1 else (b <<< 1) ^^^ 0x1B

/-- The sum of the multiples of `a` by the powers of x that the lowest `bits` bits of `b` select. -/
def mulBits : (bits : Nat) → (a b : UInt8) → UInt8
  | 0, _, _ => 0
  | bits + 1, a, b => (if b &&& 1 = 0 then 0 else a) ^^^ mulBits bits (double a) (b >>> 1)

def mul (a b : UInt8) : UInt8 := mulBits 8 a b

def pow (a : UInt8) (n : Nat) : UInt8 := Nat.repeat (mul a) n 1

def rotl (b : UInt8) (n : UInt8) : UInt8 := (b <<< n) ||| (b >>> (8 - n))

/-- The substitute of a byte: its inverse, which is its 254th power, under an affine map. -/
def substitute (b : UInt8) : UInt8 :=
  let i := pow b 254
  i ^^^ rotl i 1 ^^^ rotl i 2 ^^^ rotl i 3 ^^^ rotl i 4 ^^^ 0x63

def substitutes : Array UInt8 :=
  Array.ofFn fun i : Fin 256 => substitute (UInt8.ofNat i)

/-- The bytes by their substitutes. -/
def preimages : Array UInt8 :=
  (List.range 256).foldl (fun table i =>
    table.setIfInBounds (substitute (UInt8.ofNat i)).toNat (UInt8.ofNat i)) (Array.replicate 256 0)

/-! ## Keys -/

def words (bs : Bytes) : List Bytes := Bytes.chunks 4 bs

def substituteAll (word : Bytes) : Bytes :=
  word.map fun b => substitutes.getD b.toNat 0

/-- The next eight words of an expanded key, given the eight before them and a round constant. -/
def nextWords (round : UInt8) (previous : List Bytes) : List Bytes :=
  let last := previous.getD 7 []
  let turned := substituteAll (last.drop 1 ++ last.take 1)
  let first := Bytes.xor (previous.getD 0 []) (Bytes.xor turned [round, 0, 0, 0])
  let second := Bytes.xor (previous.getD 1 []) first
  let third := Bytes.xor (previous.getD 2 []) second
  let fourth := Bytes.xor (previous.getD 3 []) third
  -- Half-way through, keys of this size substitute once more.
  let fifth := Bytes.xor (previous.getD 4 []) (substituteAll fourth)
  let sixth := Bytes.xor (previous.getD 5 []) fifth
  let seventh := Bytes.xor (previous.getD 6 []) sixth
  let eighth := Bytes.xor (previous.getD 7 []) seventh
  [first, second, third, fourth, fifth, sixth, seventh, eighth]

/-- The words of an expanded key behind the ones given, eight for each round constant. -/
def expandFrom (previous : List Bytes) : List UInt8 → List Bytes
  | [] => []
  | round :: rounds =>
    let next := nextWords round previous
    next ++ expandFrom next rounds

/-- The fifteen keys of 16 bytes that a key of 32 bytes is expanded to. -/
def roundKeys (key : Bytes) : List Bytes :=
  let all := words key ++ expandFrom (words key) [0x01, 0x02, 0x04, 0x08, 0x10, 0x20, 0x40]
  (Bytes.chunks 16 all.flatten).take 15

/-! ## Rounds -/

def select (places : List Nat) (block : Bytes) : Bytes :=
  places.map fun i => block.getD i 0

/-- Turns the second, third and fourth row left by one, two and three bytes. -/
def shiftRows (block : Bytes) : Bytes :=
  select [0, 5, 10, 15, 4, 9, 14, 3, 8, 13, 2, 7, 12, 1, 6, 11] block

def unshiftRows (block : Bytes) : Bytes :=
  select [0, 13, 10, 7, 4, 1, 14, 11, 8, 5, 2, 15, 12, 9, 6, 3] block

/-- A column times the cyclic matrix whose first row is `a b c d`. -/
def mixColumn (a b c d : UInt8) : Bytes → Bytes
  | [w, x, y, z] =>
    [mul a w ^^^ mul b x ^^^ mul c y ^^^ mul d z, mul d w ^^^ mul a x ^^^ mul b y ^^^ mul c z,
      mul c w ^^^ mul d x ^^^ mul a y ^^^ mul b z, mul b w ^^^ mul c x ^^^ mul d y ^^^ mul a z]
  | column => column

def mixColumns (block : Bytes) : Bytes :=
  (words block).flatMap (mixColumn 2 3 1 1)

def unmixColumns (block : Bytes) : Bytes :=
  (words block).flatMap (mixColumn 0x0E 0x0B 0x0D 0x09)

def encryptRounds (block : Bytes) : List Bytes → Bytes
  | [] => block
  | [key] => Bytes.xor (shiftRows (substituteAll block)) key
  | key :: keys =>
    encryptRounds (Bytes.xor (mixColumns (shiftRows (substituteAll block))) key) keys

def encryptBlock (keys : List Bytes) (block : Bytes) : Bytes :=
  match keys with
  | [] => block
  | key :: keys => encryptRounds (Bytes.xor block key) keys

/-- The bytes of which a block holds the substitutes. -/
def restore (block : Bytes) : Bytes :=
  block.map fun b => preimages.getD b.toNat 0

/-- Takes the rounds with the given keys back, the last first. -/
def decryptRounds (block : Bytes) : List Bytes → Bytes
  | [] => block
  | [key] => restore (unshiftRows (Bytes.xor block key))
  | key :: keys =>
    restore (unshiftRows (unmixColumns (Bytes.xor (decryptRounds block keys) key)))

/-- The block of 16 bytes that another is the encryption of. -/
def decryptBlock (keys : List Bytes) (block : Bytes) : Bytes :=
  match keys with
  | [] => block
  | key :: keys => Bytes.xor (decryptRounds block keys) key

end GameWire.Aes
