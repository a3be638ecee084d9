import GameWire.Text.Utf8

/-!
# Serialized values

Serialized packets come in several formats, and all of them agree on two views of a value. An
`Outline` is a value about to be written: numbers, texts, lists, records with named fields, and
tagged values. A `Tree` is what a reader found: it knows less, since a record may have been written
as a list, a name as a number, and a value may be of a kind that no field takes.
-/

namespace GameWire

inductive Outline where
  | number (n : Nat)
  | text (s : String)
  | list (items : List Outline)
  | record (fields : List (String × Outline))
  | tagged (tag : String) (payload : Outline)
  deriving Repr

inductive Tree where
  | null
  /-- A whole number. An `ordinal` one may stand for a name, by its place among the names. -/
  | number (n : Nat) (ordinal : Bool)
  | text (s : String)
  /-- Raw bytes, which may also stand for a text or a name. -/
  | blob (bs : Bytes)
  /-- A text that is none; as a name it is one that nobody has. -/
  | garbled
  /-- A text that is none, and that can only be passed over. -/
  | broken
  /-- A value that no field takes, such as a truth value or a fraction. -/
  | other
  | list (items : List Tree)
  | table (entries : List (Tree × Tree))
  deriving Repr

namespace Tree

/-! ## Single values -/

def number? (bound : Nat) : Tree → Option Nat
  | number n _ => if n < bound then some n else none
  | _ => none

def text? : Tree → Option String
  | text s => some s
  | blob bs => Utf8.decode? bs
  | _ => none

def list? : Tree → Option (List Tree)
  | list items => some items
  | _ => none

/-! ## Names -/

/-- Looks a name up among `names`. Something that cannot be a name at all gives `none`, and a name
that is not among them gives `some none`. -/
def place? (names : List String) : Tree → Option (Option Nat)
  | text s => some (names.findIdx? (· == s))
  | blob bs => some (names.findIdx? (Utf8.encode · == bs))
  | number n true => some (if n < names.length then some n else none)
  | garbled => some none
  | _ => none

/-- The place of the name a value spells, either by itself or as a table with nothing under it. -/
def choice? (names : List String) : Tree → Option Nat
  | table [(key, null)] => (place? names key).join
  | table _ => none
  | t => (place? names t).join

/-! ## Records -/

/-- Files the entries of a table under their fields. Other keys are passed over; a field given
twice is a mistake, and so is a key that is no name. -/
def file? (names : List String) : List (Tree × Tree) → Option (List (Option Tree))
  | [] => some (names.map fun _ => none)
  | (key, value) :: entries => do
    let filed ← file? names entries
    match ← place? names key with
    | none => some filed
    | some i => if (filed[i]?).join.isNone then some (filed.set i (some value)) else none

/-- The fields of a record, given by name or in order. Fields left out are `none`. -/
def fields? (names : List String) : Tree → Option (List (Option Tree))
  | list items =>
    if items.length ≤ names.length then
      some (items.map some ++ List.replicate (names.length - items.length) none)
    else none
  | table entries => file? names entries
  | _ => none

/-! ## Tags -/

/-- The tag of a tagged value: a text by itself, or the first key of a table. Keys that can only be
passed over spoil the table. -/
def tag? : Tree → Option String
  | text s => some s
  | table ((key, _) :: entries) =>
    if entries.any (fun e => e.1 matches broken) then none else key.text?
  | _ => none

end Tree

end GameWire
