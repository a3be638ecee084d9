/-!
# TOML values

What a TOML document holds. Numbers with a fraction, dates and times are valid in a document but
mean nothing to the settings, so they are not told apart.
-/

namespace GameWire.Toml

inductive Value where
  | text (s : String)
  | integer (n : Int)
  | truth (b : Bool)
  /-- A fraction, a date or a time. -/
  | other
  | array (items : List Value)
  | table (entries : List (String × Value))
  deriving Repr

namespace Value

def text? : Value → Option String
  | text s => some s
  | _ => none

def integer? : Value → Option Int
  | integer n => some n
  | _ => none

def truth? : Value → Option Bool
  | truth b => some b
  | _ => none

def array? : Value → Option (List Value)
  | array items => some items
  | _ => none

/-- The name that a value spells, by itself or as a table with nothing under it. -/
def name? : Value → Option String
  | text s => some s
  | table [(key, table [])] | table [(key, array [])] => some key
  | _ => none

/-- The fields of a record with the given field names. Entries with other names are passed over; an
array gives the fields in order. -/
def fields? (names : List String) : Value → Option (List (Option Value))
  | table entries => some (names.map fun name => entries.lookup name)
  | array items =>
    some ((items.take names.length).map some ++
      List.replicate (names.length - items.length) none)
  | _ => none

end Value

/-- Whether a number is one that a document can hold. -/
def isInRange (n : Int) : Bool :=
  -2 ^ 63 ≤ n && n < 2 ^ 63

end GameWire.Toml
