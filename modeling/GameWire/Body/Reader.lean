import GameWire.Error
import GameWire.Bytes

/-!
# Reading bodies

A `BodyReader` walks through a packet body and fails on short input. A failing step keeps what the
steps before it consumed, so `Reading` carries the reader through failures as well.
-/

namespace GameWire

structure BodyReader where
  /-- What is being read, for error messages. -/
  context : String
  consumed : Nat := 0
  rest : Bytes
  deriving DecidableEq, Repr

/-- A step of reading that may fail. -/
abbrev Reading (α : Type) := EStateM ProtocolError BodyReader α

namespace Reading

/-- A step that succeeds hands its value and its reader on to the next one. -/
theorem bind_ok {α β : Type} {m : Reading α} {a : α} {r r' : BodyReader} (h : m r = .ok a r')
    (next : α → Reading β) : (m >>= next) r = next a r' := by
  show EStateM.bind m next r = _
  rw [EStateM.bind, h]

theorem map_ok {α β : Type} {m : Reading α} {a : α} {r r' : BodyReader} (h : m r = .ok a r')
    (f : α → β) : (f <$> m) r = .ok (f a) r' := by
  show EStateM.map f m r = _
  rw [EStateM.map, h]

/-- A step that follows another one succeeds only if both do. -/
theorem bind_eq_ok {α β : Type} {m : Reading α} {next : α → Reading β} {b : β}
    {r r' : BodyReader} (h : (m >>= next) r = .ok b r') :
    ∃ a s, m r = .ok a s ∧ next a s = .ok b r' := by
  change EStateM.bind m next r = .ok b r' at h
  unfold EStateM.bind at h
  cases hm : m r with
  | error e s => rw [hm] at h; cases h
  | ok a s =>
    rw [hm] at h
    exact ⟨a, s, rfl, h⟩

theorem map_eq_ok {α β : Type} {m : Reading α} {f : α → β} {b : β} {r r' : BodyReader}
    (h : (f <$> m) r = .ok b r') : ∃ a, m r = .ok a r' ∧ f a = b := by
  change EStateM.map f m r = .ok b r' at h
  unfold EStateM.map at h
  cases hm : m r with
  | error e s => rw [hm] at h; cases h
  | ok a s =>
    rw [hm] at h
    cases h
    exact ⟨a, rfl, rfl⟩

end Reading

namespace BodyReader

def size (r : BodyReader) : Nat := r.consumed + r.rest.length

def remaining : Reading Nat := fun r => .ok r.rest.length r

def bytes (n : Nat) : Reading Bytes := fun r =>
  if n ≤ r.rest.length then
    .ok (r.rest.take n) { r with consumed := r.consumed + n, rest := r.rest.drop n }
  else .error (.insufficientData r.context (r.consumed + n) r.size) r

def skip (n : Nat) : Reading Unit := do
  let _ ← bytes n

def fixed (n : Nat) : Reading (FixedBytes n) := do
  let bs ← bytes n
  pure ((FixedBytes.ofBytes? n bs).getD (.zero n))

/-- The next `width` bytes as a little-endian number. -/
def number (width : Nat) : Reading Nat := do
  let bs ← bytes width
  pure (Bytes.ofLE bs)

def u8 : Reading UInt8 := UInt8.ofNat <$> number 1
def u16 : Reading UInt16 := UInt16.ofNat <$> number 2
def u32 : Reading UInt32 := UInt32.ofNat <$> number 4
def u64 : Reading UInt64 := UInt64.ofNat <$> number 8

def takeRest : Reading Bytes := fun r =>
  .ok r.rest { r with consumed := r.size, rest := [] }

def finish : Reading Unit := fun r =>
  if r.rest.isEmpty then .ok () r
  else .error (.decode (.trailingBytes r.context r.rest.length)) r

/-- Runs a reading over a whole body and fails if it leaves something over. -/
def run {α : Type} (context : String) (read : Reading α) (body : Bytes) :
    Except ProtocolError α :=
  match (do let a ← read; finish; pure a : Reading α) { context, rest := body } with
  | .ok a _ => .ok a
  | .error e _ => .error e

/-- A reading of `n` bytes takes exactly those. -/
theorem bytes_append (context : String) (consumed : Nat) (front rest : Bytes) :
    bytes front.length ⟨context, consumed, front ++ rest⟩ =
      .ok front ⟨context, consumed + front.length, rest⟩ := by
  simp [bytes]

/-- A number reads back from its digits. -/
theorem number_le (context : String) (consumed : Nat) {width n : Nat} (h : n < 256 ^ width)
    (rest : Bytes) :
    number width ⟨context, consumed, Bytes.le width n ++ rest⟩ =
      .ok n ⟨context, consumed + width, rest⟩ := by
  have hb := bytes_append context consumed (Bytes.le width n) rest
  rw [Bytes.length_le] at hb
  rw [number, Reading.bind_ok hb, Bytes.ofLE_le h]
  rfl

end BodyReader

end GameWire
