import GameWire.Bytes
import GameWire.Error

/-!
# Files that can be written

A file is modelled by its content and by the answers it is going to give: each call takes the next
of them, and when they are used up calls succeed. A file may also have a limit beyond which it
cannot grow.
-/

namespace GameWire

inductive FileAnswer where
  | success
  /-- The call fails; a write stores this many bytes first. -/
  | failure (e : IoError) (stored : Nat)
  deriving DecidableEq, Repr

structure ScriptedFile where
  content : Bytes := []
  position : Nat := 0
  answers : List FileAnswer := []
  /-- The largest size of the file, and what writes beyond it fail with. -/
  limit? : Option (Nat × IoError) := none
  deriving DecidableEq, Repr, Inhabited

namespace ScriptedFile

def answer (f : ScriptedFile) : FileAnswer × ScriptedFile :=
  match f.answers with
  | [] => (.success, f)
  | a :: answers => (a, { f with answers })

/-- The file with the given bytes at its position. A gap before them is filled with zeros. -/
def store (f : ScriptedFile) (bs : Bytes) : ScriptedFile :=
  let gap := Bytes.zeros (f.position - f.content.length)
  { f with
    content := f.content.take f.position ++ gap ++ bs ++ f.content.drop (f.position + bs.length)
    position := f.position + bs.length }

/-- What a write of `count` bytes would fail with because of the limit. -/
def refusal? (f : ScriptedFile) (count : Nat) : Option IoError :=
  match f.limit? with
  | none => none
  | some (limit, e) => if limit < f.position + count then some e else none

/-- Writes bytes at the position. Writing nothing is no call. -/
def write (f : ScriptedFile) (bs : Bytes) : Except IoError Unit × ScriptedFile :=
  if bs.isEmpty then (.ok (), f)
  else
    match f.answer, f.refusal? bs.length with
    -- A failing write may leave a part of the bytes behind.
    | (.failure e stored, f), _ => (.error e, f.store (bs.take stored))
    | (.success, f), some e => (.error e, f)
    | (.success, f), none => (.ok (), f.store bs)

/-- Writes byte strings one after the other, up to the first that fails. -/
def writeAll (f : ScriptedFile) : List Bytes → Except IoError Unit × ScriptedFile
  | [] => (.ok (), f)
  | bs :: more =>
    match f.write bs with
    | (.error e, f) => (.error e, f)
    | (.ok (), f) => f.writeAll more

def tell (f : ScriptedFile) : Except IoError Nat × ScriptedFile :=
  match f.answer with
  | (.failure e _, f) => (.error e, f)
  | (.success, f) => (.ok f.position, f)

def seek (f : ScriptedFile) (position : Nat) : Except IoError Unit × ScriptedFile :=
  match f.answer with
  | (.failure e _, f) => (.error e, f)
  | (.success, f) => (.ok (), { f with position })

/-- Writes bytes at another place and comes back. -/
def writeAt (f : ScriptedFile) (place : Nat) (bs : Bytes) : Except IoError Unit × ScriptedFile :=
  match f.tell with
  | (.error e, f) => (.error e, f)
  | (.ok position, f) =>
    match f.seek place with
    | (.error e, f) => (.error e, f)
    | (.ok (), f) =>
      match f.write bs with
      | (.error e, f) => (.error e, f)
      | (.ok (), f) => f.seek position

end ScriptedFile

end GameWire
