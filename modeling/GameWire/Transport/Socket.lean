import GameWire.Bytes
import GameWire.Error

/-!
# Sockets

A socket is modelled by the answers it is going to give: one list for each of reading, writing and
flushing, and each call takes the next answer of its list. When a list is used up, reading would
block, and writing and flushing succeed.
-/

namespace GameWire

inductive Poll where
  | ready
  /-- Try again later; nothing was lost. -/
  | blocked
  /-- There is no socket to do it with. -/
  | noSocket
  /-- The operation failed; the owner's error slot says why. -/
  | failed
  deriving DecidableEq, Repr

namespace Poll

def all : List Poll := [ready, blocked, noSocket, failed]

def name : Poll → String
  | ready => "Ready"
  | blocked => "Blocked"
  | noSocket => "NoSocket"
  | failed => "SocketError"

def isReady (p : Poll) : Bool := p == ready

def isBlocked (p : Poll) : Bool := p == blocked

end Poll

inductive ReadAnswer where
  /-- Bytes, as many as are asked for; the others stay for the next read. None end the stream. -/
  | bytes (bs : Bytes)
  | failed (e : IoError)
  deriving DecidableEq, Repr

/-- What an answer counts for: one, and one for each byte. -/
def ReadAnswer.size : ReadAnswer → Nat
  | .bytes bs => bs.length + 1
  | .failed _ => 1

inductive WriteAnswer where
  /-- Bytes are accepted, up to this many. -/
  | accept (most : Nat)
  | failed (e : IoError)
  deriving DecidableEq, Repr

structure Socket where
  reads : List ReadAnswer := []
  writes : List WriteAnswer := []
  /-- The failures of flushes; `none` is a success. -/
  flushes : List (Option IoError) := []
  /-- The bytes accepted so far. -/
  accepted : Bytes := []
  deriving DecidableEq, Repr, Inhabited

/-- The failure of a call that can do nothing now. -/
def IoError.wouldBlock : IoError := ⟨.wouldBlock, "operation would block"⟩

/-- The failure of a write that succeeded without accepting anything. -/
def IoError.writeZero : IoError := ⟨.permanent, "Socket accepted zero bytes"⟩

namespace Socket

def read (s : Socket) (most : Nat) : Except IoError Bytes × Socket :=
  match s.reads with
  | [] => (.error .wouldBlock, s)
  | .failed e :: reads => (.error e, { s with reads })
  | .bytes bs :: reads =>
    let rest := bs.drop most
    (.ok (bs.take most),
      { s with reads := if rest.isEmpty then reads else .bytes rest :: reads })

/-- Writes from the front of `bs`, and tells how many bytes are accepted. -/
def write (s : Socket) (bs : Bytes) : Except IoError Nat × Socket :=
  match s.writes with
  | [] => (.ok bs.length, { s with accepted := s.accepted ++ bs })
  | .failed e :: writes => (.error e, { s with writes })
  | .accept most :: writes =>
    (.ok (min most bs.length), { s with writes, accepted := s.accepted ++ bs.take most })

def flush (s : Socket) : Except IoError Unit × Socket :=
  match s.flushes with
  | [] => (.ok (), s)
  | none :: flushes => (.ok (), { s with flushes })
  | some e :: flushes => (.error e, { s with flushes })

def readSize (s : Socket) : Nat :=
  s.reads.foldr (fun answer size => size + answer.size) 0

/-- A read that yields bytes, or fails on its own account, leaves less to be read. -/
theorem readSize_read_lt {s : Socket} {most : Nat} (hm : 0 < most) (h : s.reads ≠ []) :
    (s.read most).2.readSize < s.readSize := by
  unfold read readSize
  cases hr : s.reads with
  | nil => exact absurd hr h
  | cons answer reads =>
    cases answer with
    | failed e => simp [ReadAnswer.size]
    | bytes bs =>
      cases bs with
      | nil => simp [ReadAnswer.size]
      | cons b bs =>
        by_cases hd : ((b :: bs).drop most).isEmpty
        · simp [hd, ReadAnswer.size]
        · simp only [hd, Bool.false_eq_true, if_false, List.foldr_cons, ReadAnswer.size,
            List.length_drop, List.length_cons]
          omega

/-- A write uses up one answer. -/
@[simp] theorem writes_write (s : Socket) (bs : Bytes) : (s.write bs).2.writes = s.writes.tail := by
  unfold write
  cases hw : s.writes with
  | nil => simp
  | cons answer writes => cases answer <;> simp

/-- A write fails only with an answer that says so. -/
theorem writes_ne_nil_of_write_error {s : Socket} {bs : Bytes} {e : IoError}
    (h : (s.write bs).1 = .error e) : s.writes ≠ [] := by
  intro hw
  simp [write, hw] at h

end Socket

end GameWire
