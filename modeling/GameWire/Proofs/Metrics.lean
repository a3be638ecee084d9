import Mathlib.Algebra.Group.Defs
import GameWire.Metrics

/-!
# Tallies

A tally says how many frames passed, how many bytes were moved and how many keys were exchanged.
`Metrics.grows_recordAll` is that the counters of these have gone up, after a list of activities, by
the tally of the list.
-/

namespace GameWire

/-! ## What activities come to -/

/-- How many frames passed, how many bytes were moved and how many keys were exchanged. -/
@[ext]
structure Tally where
  framesOut : Nat := 0
  framesIn : Nat := 0
  bytesOut : Nat := 0
  bytesIn : Nat := 0
  keyExchanges : Nat := 0
  keyExchangesEstablished : Nat := 0
  keyExchangesRejected : Nat := 0

namespace Tally

instance : Zero Tally := ⟨{}⟩

instance : Add Tally where
  add s t :=
    { framesOut := s.framesOut + t.framesOut
      framesIn := s.framesIn + t.framesIn
      bytesOut := s.bytesOut + t.bytesOut
      bytesIn := s.bytesIn + t.bytesIn
      keyExchanges := s.keyExchanges + t.keyExchanges
      keyExchangesEstablished := s.keyExchangesEstablished + t.keyExchangesEstablished
      keyExchangesRejected := s.keyExchangesRejected + t.keyExchangesRejected }

instance : AddMonoid Tally where
  zero_add t := Tally.ext (Nat.zero_add _) (Nat.zero_add _) (Nat.zero_add _) (Nat.zero_add _)
    (Nat.zero_add _) (Nat.zero_add _) (Nat.zero_add _)
  add_zero _ := rfl
  add_assoc s t u := Tally.ext (Nat.add_assoc _ _ _) (Nat.add_assoc _ _ _) (Nat.add_assoc _ _ _)
    (Nat.add_assoc _ _ _) (Nat.add_assoc _ _ _) (Nat.add_assoc _ _ _) (Nat.add_assoc _ _ _)
  nsmul := nsmulRec

def one : Activity → Tally
  | .frameSent => { framesOut := 1 }
  | .frameReceived => { framesIn := 1 }
  | .bytesWritten count => { bytesOut := count }
  | .bytesRead count => { bytesIn := count }
  | .keyExchangeAttempted => { keyExchanges := 1 }
  | .keyExchangeEstablished => { keyExchangesEstablished := 1 }
  | .keyExchangeRejected => { keyExchangesRejected := 1 }
  | _ => 0

def of : List Activity → Tally
  | [] => 0
  | a :: log => one a + of log

theorem of_append (log more : List Activity) : of (log ++ more) = of log + of more := by
  induction log with
  | nil => exact (zero_add _).symm
  | cons a log ih =>
    show one a + of (log ++ more) = one a + of log + of more
    rw [ih, add_assoc]

end Tally

/-! ## Counters -/

/-- Counters that have gone up by a tally. -/
structure Metrics.Grows (m m' : Metrics) (t : Tally) : Prop where
  framesOut : m'.framesOut = m.framesOut + UInt64.ofNat t.framesOut
  framesIn : m'.framesIn = m.framesIn + UInt64.ofNat t.framesIn
  bytesOut : m'.bytesOut = m.bytesOut + UInt64.ofNat t.bytesOut
  bytesIn : m'.bytesIn = m.bytesIn + UInt64.ofNat t.bytesIn
  keyExchanges : m'.keyExchanges = m.keyExchanges + UInt64.ofNat t.keyExchanges
  keyExchangesEstablished :
    m'.keyExchangesEstablished = m.keyExchangesEstablished + UInt64.ofNat t.keyExchangesEstablished
  keyExchangesRejected :
    m'.keyExchangesRejected = m.keyExchangesRejected + UInt64.ofNat t.keyExchangesRejected

namespace Metrics

theorem grows_zero (m : Metrics) : m.Grows m 0 := by
  constructor <;> exact (UInt64.add_zero _).symm

/-- A counter that goes up twice has gone up by both. -/
theorem eq_add_ofNat_trans {a b c : UInt64} {p q : Nat} (hb : b = a + UInt64.ofNat p)
    (hc : c = b + UInt64.ofNat q) : c = a + UInt64.ofNat (p + q) := by
  rw [hc, hb, UInt64.ofNat_add, UInt64.add_assoc]

theorem Grows.trans {m m' m'' : Metrics} {s t : Tally} (h : m.Grows m' s) (h' : m'.Grows m'' t) :
    m.Grows m'' (s + t) where
  framesOut := eq_add_ofNat_trans h.framesOut h'.framesOut
  framesIn := eq_add_ofNat_trans h.framesIn h'.framesIn
  bytesOut := eq_add_ofNat_trans h.bytesOut h'.bytesOut
  bytesIn := eq_add_ofNat_trans h.bytesIn h'.bytesIn
  keyExchanges := eq_add_ofNat_trans h.keyExchanges h'.keyExchanges
  keyExchangesEstablished :=
    eq_add_ofNat_trans h.keyExchangesEstablished h'.keyExchangesEstablished
  keyExchangesRejected := eq_add_ofNat_trans h.keyExchangesRejected h'.keyExchangesRejected

/-- The counters that an activity does not concern stay as they are. -/
theorem grows_record (m : Metrics) (a : Activity) : m.Grows (m.record a) (.one a) := by
  cases a <;> constructor <;> first | rfl | exact (UInt64.add_zero _).symm

/-- Counters go up by the tally of what happened. -/
theorem grows_recordAll (m : Metrics) (log : List Activity) :
    m.Grows (m.recordAll log) (.of log) := by
  induction log generalizing m with
  | nil => exact m.grows_zero
  | cons a log ih => exact (m.grows_record a).trans (ih (m.record a))

end Metrics

/-! ## What calls come to -/

section Calls

variable {σ ι : Type} (perform : σ → ι → σ)

def reportAll (report : σ → ι → List Activity) (s : σ) : List ι → List Activity
  | [] => []
  | op :: ops => report s op ++ reportAll report (perform s op) ops

def countCalls (kind : σ → ι → Bool) (s : σ) : List ι → Nat
  | [] => 0
  | op :: ops => (kind s op).toNat + countCalls kind (perform s op) ops

end Calls

end GameWire
