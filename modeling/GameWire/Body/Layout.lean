import GameWire.Body.MaskedText

/-!
# Layouts

A `Layout` says how a value lies in a body: how it is read and how it is written. Layouts are put
together from those of single fields, so each body states its fields once, for both directions.
`Layout.RoundTrip` says that what is written is read back and nothing behind it is touched; every
way of putting layouts together keeps it.
-/

namespace GameWire

/-- How a value is read from a body and written into one. -/
structure Layout (α : Type) where
  read : Reading α
  write : α → Except ProtocolError Bytes

namespace Layout

/-! ## Single fields -/

def u8 : Layout UInt8 := ⟨BodyReader.u8, fun n => .ok [n]⟩

def u16 : Layout UInt16 := ⟨BodyReader.u16, fun n => .ok (Bytes.le 2 n.toNat)⟩

def u32 : Layout UInt32 := ⟨BodyReader.u32, fun n => .ok (Bytes.le 4 n.toNat)⟩

def u64 : Layout UInt64 := ⟨BodyReader.u64, fun n => .ok (Bytes.le 8 n.toNat)⟩

def fixed (n : Nat) : Layout (FixedBytes n) := ⟨BodyReader.fixed n, fun f => .ok f.bytes⟩

/-- `n` bytes that mean nothing: read over, written as zeros. -/
def gap (n : Nat) : Layout Unit := ⟨BodyReader.skip n, fun _ => .ok (Bytes.zeros n)⟩

def text (mask : LengthMask) : Layout String := ⟨MaskedText.read mask, MaskedText.write mask⟩

/-! ## Putting layouts together -/

/-- One value behind another. -/
def both {α β : Type} (a : Layout α) (b : Layout β) : Layout (α × β) where
  read := do
    let x ← a.read
    let y ← b.read
    pure (x, y)
  write := fun (x, y) => do
    let front ← a.write x
    let back ← b.write y
    pure (front ++ back)

/-- The same bytes with another meaning: `decode` gives it and `encode` takes it back. -/
def as {α β : Type} (a : Layout α) (decode : α → β) (encode : β → α) : Layout β where
  read := decode <$> a.read
  write := fun y => a.write (encode y)

/-- A value behind `n` bytes that mean nothing. -/
def after {α : Type} (n : Nat) (a : Layout α) : Layout α :=
  ((gap n).both a).as Prod.snd fun x => ((), x)

/-! ## What is written is read back -/

/-- Whatever a layout writes, it reads back whole, leaving what follows untouched. -/
def RoundTrip {α : Type} (l : Layout α) : Prop :=
  ∀ (x : α) (out : Bytes), l.write x = .ok out →
    ∀ (context : String) (consumed : Nat) (rest : Bytes),
      l.read ⟨context, consumed, out ++ rest⟩ = .ok x ⟨context, consumed + out.length, rest⟩

theorem roundTrip_u8 : u8.RoundTrip := by
  intro n out hw context consumed rest
  cases hw
  have hr := BodyReader.number_le context consumed (show n.toNat < 256 ^ 1 from n.toNat_lt) rest
  have ho : Bytes.le 1 n.toNat = [n] := by simp [Bytes.le]
  rw [ho] at hr
  exact (Reading.map_ok hr UInt8.ofNat).trans (by simp)

theorem roundTrip_u16 : u16.RoundTrip := by
  intro n out hw context consumed rest
  cases hw
  have hr := BodyReader.number_le context consumed (show n.toNat < 256 ^ 2 from n.toNat_lt) rest
  exact (Reading.map_ok hr UInt16.ofNat).trans (by simp)

theorem roundTrip_u32 : u32.RoundTrip := by
  intro n out hw context consumed rest
  cases hw
  have hr := BodyReader.number_le context consumed (show n.toNat < 256 ^ 4 from n.toNat_lt) rest
  exact (Reading.map_ok hr UInt32.ofNat).trans (by simp)

theorem roundTrip_u64 : u64.RoundTrip := by
  intro n out hw context consumed rest
  cases hw
  have hr := BodyReader.number_le context consumed (show n.toNat < 256 ^ 8 from n.toNat_lt) rest
  exact (Reading.map_ok hr UInt64.ofNat).trans (by simp)

theorem roundTrip_fixed (n : Nat) : (fixed n).RoundTrip := by
  intro f out hw context consumed rest
  cases hw
  have hr := BodyReader.bytes_append context consumed f.bytes rest
  rw [f.length_eq] at hr
  refine (Reading.bind_ok hr _).trans ?_
  rw [FixedBytes.ofBytes?_bytes, f.length_eq]
  rfl

theorem roundTrip_gap (n : Nat) : (gap n).RoundTrip := by
  intro _ out hw context consumed rest
  cases hw
  have hr := BodyReader.bytes_append context consumed (Bytes.zeros n) rest
  rw [Bytes.length_zeros] at hr
  refine (Reading.bind_ok hr _).trans ?_
  rw [Bytes.length_zeros]
  rfl

theorem both_write_eq_ok {α β : Type} {a : Layout α} {b : Layout β} {x : α} {y : β} {out : Bytes}
    (h : (a.both b).write (x, y) = .ok out) :
    ∃ front back, a.write x = .ok front ∧ b.write y = .ok back ∧ out = front ++ back := by
  cases hx : a.write x with
  | error e => simp [Layout.both, hx, bind, Except.bind] at h
  | ok front =>
    cases hy : b.write y with
    | error e => simp [Layout.both, hx, hy, bind, Except.bind] at h
    | ok back =>
      simp only [Layout.both, hx, hy, bind, Except.bind, pure, Except.pure, Except.ok.injEq] at h
      exact ⟨front, back, rfl, rfl, h.symm⟩

theorem RoundTrip.both {α β : Type} {a : Layout α} {b : Layout β} (ha : a.RoundTrip)
    (hb : b.RoundTrip) : (a.both b).RoundTrip := by
  intro (x, y) out hw context consumed rest
  obtain ⟨front, back, hx, hy, rfl⟩ := both_write_eq_ok hw
  have hr := ha x front hx context consumed (back ++ rest)
  have hs := hb y back hy context (consumed + front.length) rest
  rw [List.append_assoc]
  refine (Reading.bind_ok hr _).trans ((Reading.bind_ok hs _).trans ?_)
  rw [List.length_append, Nat.add_assoc]
  rfl

theorem RoundTrip.as {α β : Type} {a : Layout α} (ha : a.RoundTrip) {decode : α → β}
    {encode : β → α} (h : ∀ y, decode (encode y) = y) : (a.as decode encode).RoundTrip := by
  intro y out hw context consumed rest
  have hr := ha (encode y) out hw context consumed rest
  exact (Reading.map_ok hr decode).trans (by rw [h])

end Layout

end GameWire
