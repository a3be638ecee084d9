import GameWire.Bytes

/-!
# ChaCha20

The state is sixteen words: four constants, eight words of key, and four words of counter and nonce.
Twenty rounds mix it; a block of key stream adds the state to its mixture, and `subkey` takes parts
of the mixture itself.
-/

namespace GameWire.ChaCha20

abbrev State := Vector UInt32 16

def rotl (x : UInt32) (n : UInt32) : UInt32 :=
  (x <<< n) ||| (x >>> (32 - n))

/-- Mixes four words of the state. -/
def quarterRound (a b c d : Fin 16) (s : State) : State :=
  let s := s.set a (s[a] + s[b])
  let s := s.set d (rotl (s[d] ^^^ s[a]) 16)
  let s := s.set c (s[c] + s[d])
  let s := s.set b (rotl (s[b] ^^^ s[c]) 12)
  let s := s.set a (s[a] + s[b])
  let s := s.set d (rotl (s[d] ^^^ s[a]) 8)
  let s := s.set c (s[c] + s[d])
  s.set b (rotl (s[b] ^^^ s[c]) 7)

/-- A round on the columns and one on the diagonals. -/
def doubleRound (s : State) : State :=
  let s := quarterRound 0 4 8 12 s
  let s := quarterRound 1 5 9 13 s
  let s := quarterRound 2 6 10 14 s
  let s := quarterRound 3 7 11 15 s
  let s := quarterRound 0 5 10 15 s
  let s := quarterRound 1 6 11 12 s
  let s := quarterRound 2 7 8 13 s
  quarterRound 3 4 9 14 s

def mix (s : State) : State :=
  Nat.repeat doubleRound 10 s

/-- The word whose four bytes, lowest first, begin at byte `4 * i`. -/
def wordAt (bs : Bytes) (i : Nat) : UInt32 :=
  UInt32.ofNat (Bytes.ofLE ((bs.drop (4 * i)).take 4))

/-- The state with the given key of 32 bytes and the given last 16 bytes. -/
def start (key tail : Bytes) : State :=
  #v[0x61707865, 0x3320646E, 0x79622D32, 0x6B206574,
    wordAt key 0, wordAt key 1, wordAt key 2, wordAt key 3,
    wordAt key 4, wordAt key 5, wordAt key 6, wordAt key 7,
    wordAt tail 0, wordAt tail 1, wordAt tail 2, wordAt tail 3]

/-- The bytes of words, lowest byte first. -/
def bytesOf (ws : List UInt32) : Bytes :=
  ws.flatMap fun w => Bytes.le 4 w.toNat

/-- The block of key stream with the given number, under a nonce of 12 bytes. -/
def block (key nonce : Bytes) (counter : Nat) : Bytes :=
  let s := start key (Bytes.le 4 counter ++ nonce)
  bytesOf (s.zipWith (· + ·) (mix s)).toList

/-- A text under the key stream that begins with the block of the given number. -/
def apply (key nonce : Bytes) (counter : Nat) (text : Bytes) : Bytes :=
  ((Bytes.chunks 64 text).mapIdx fun i piece =>
    Bytes.xor piece (block key nonce (counter + i))).flatten

/-- The key derived from a key and the first 16 bytes of a long nonce. -/
def subkey (key nonce : Bytes) : Bytes :=
  let s := (mix (start key nonce)).toList
  bytesOf (s.take 4 ++ s.drop 12)

end GameWire.ChaCha20
