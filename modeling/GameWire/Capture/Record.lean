import GameWire.Packet.Tag

/-!
# Capture records

What a capture file holds: frames with the time and the direction in which they travelled. Reading
a file yields a `CaptureRecord` for each frame, and the `CaptureOutput` selects what it carries.
-/

namespace GameWire

/-- Which way a recorded frame was travelling. -/
inductive Direction where
  | toServer
  | toClient
  deriving DecidableEq, Repr, Inhabited

namespace Direction

def name : Direction → String
  | toServer => "ToServer"
  | toClient => "ToClient"

def toByte : Direction → UInt8
  | toServer => 0
  | toClient => 1

/-- The direction of a byte; every byte but zero leads to the client. -/
def ofByte (b : UInt8) : Direction :=
  if b = 0 then toServer else toClient

theorem ofByte_toByte (d : Direction) : ofByte d.toByte = d := by cases d <;> rfl

end Direction

def nanosPerSecond : Nat := 1000000000

/-- A time since the start of 1970. -/
structure Timestamp where
  seconds : UInt64 := 0
  /-- Nanoseconds beyond the whole seconds. -/
  nanos : Nat := 0
  nanos_lt : nanos < nanosPerSecond := by decide
  deriving DecidableEq, Repr, Inhabited

namespace Timestamp

def toNanos (t : Timestamp) : Nat := t.seconds.toNat * nanosPerSecond + t.nanos

/-- The time of a number of nanoseconds. Seconds beyond the largest number stay there. -/
def ofNanos (n : Nat) : Timestamp where
  seconds := UInt64.ofNat (min (n / nanosPerSecond) (2 ^ 64 - 1))
  nanos := n % nanosPerSecond
  nanos_lt := Nat.mod_lt n (by decide)

def ofSeconds (seconds : UInt64) : Timestamp := { seconds }

theorem ofNanos_toNanos (t : Timestamp) : ofNanos t.toNanos = t := by
  obtain ⟨seconds, nanos, h⟩ := t
  have hs := seconds.toNat_lt
  have hd : (seconds.toNat * nanosPerSecond + nanos) / nanosPerSecond = seconds.toNat := by
    rw [Nat.mul_comm, Nat.mul_add_div (by decide), Nat.div_eq_of_lt h, Nat.add_zero]
  have hm : (seconds.toNat * nanosPerSecond + nanos) % nanosPerSecond = nanos := by
    rw [Nat.mul_comm, Nat.mul_add_mod, Nat.mod_eq_of_lt h]
  simp only [ofNanos, toNanos, hd, hm]
  congr 1
  rw [Nat.min_eq_left (by omega)]
  simp

end Timestamp

inductive CaptureOutput where
  /-- The decoded packet only. -/
  | packet
  /-- The recorded bytes only, which are not looked at. -/
  | raw
  /-- The decoded packet and the recorded bytes. -/
  | both
  deriving DecidableEq, Repr, Inhabited

namespace CaptureOutput

def all : List CaptureOutput := [packet, raw, both]

def key : CaptureOutput → String
  | packet => "packet"
  | raw => "raw"
  | both => "both"

def ofKey? (s : String) : Option CaptureOutput :=
  all.find? fun o => o.key == s

theorem ofKey?_key (o : CaptureOutput) : ofKey? o.key = some o := by cases o <;> decide

end CaptureOutput

structure CaptureRecord where
  timestamp : Timestamp
  direction : Direction
  dialect : Dialect
  packet : Option Model := none
  data : Option Bytes := none
  /-- Why there is no packet although one was asked for. -/
  parseError : Option String := none
  deriving DecidableEq, Repr

end GameWire
