/-!
# Activity

Components report what they did as a list of activities, oldest first. A `Call` is the outcome of
one call on a component: its result, the component as it is afterwards, and the activities.
`Throughout` says something of every call of a sequence, and of the component as it is then.
-/

namespace GameWire

/-- Something a component did that is worth counting. -/
inductive Activity where
  | connectionEstablished
  | connectionClosed
  | connectionFailed
  | keyExchangeAttempted
  | keyExchangeEstablished
  | keyExchangeRejected
  /-- A frame was queued on a connection. -/
  | frameSent
  /-- A frame was decoded off a connection. -/
  | frameReceived
  | bytesWritten (count : Nat)
  | bytesRead (count : Nat)
  /-- A frame was wrapped in a session's envelope. -/
  | frameSealed
  /-- A frame was taken out of a session's envelope. -/
  | frameOpened
  | decodeFailed
  | encodeFailed
  | captureRecordRead
  | captureRecordWritten
  deriving DecidableEq, Repr

structure Call (σ α : Type) where
  result : α
  state : σ
  /-- What the call did, oldest first. -/
  activity : List Activity := []

/-! ## Sequences of calls -/

section Throughout

variable {σ ι : Type} {step : σ → ι → σ} {P Q : σ → ι → Prop}

/-- Whether each of some calls, made one after the other, is as `P` says of it and of the component
that it is made on. -/
def Throughout (step : σ → ι → σ) (P : σ → ι → Prop) (s : σ) : List ι → Prop
  | [] => True
  | op :: ops => P s op ∧ Throughout step P (step s op) ops

theorem throughout_of_forall (h : ∀ s op, P s op) (s : σ) (ops : List ι) :
    Throughout step P s ops := by
  induction ops generalizing s with
  | nil => trivial
  | cons op ops ih => exact ⟨h s op, ih (step s op)⟩

theorem Throughout.imp (h : ∀ s op, P s op → Q s op) {s : σ} {ops : List ι}
    (hs : Throughout step P s ops) : Throughout step Q s ops := by
  induction ops generalizing s with
  | nil => trivial
  | cons op ops ih => exact ⟨h s op hs.1, ih hs.2⟩

end Throughout

end GameWire
