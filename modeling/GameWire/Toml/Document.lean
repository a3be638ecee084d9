import GameWire.Toml.Value

/-!
# TOML tables

A document spells out its tables piece by piece: a header names a table, a dotted name reaches into
one, and what they lead through is made on the way. A table may be spelled out only once, and
whether a later line may still add to it depends on how it came about.
-/

namespace GameWire.Toml

inductive Origin where
  /-- A header names it. -/
  | header
  /-- The header of a table inside it leads through it. -/
  | implied
  /-- A dotted name leads through it. -/
  | dotted
  deriving DecidableEq, Repr

/-- A table that is being spelled out. -/
inductive Node where
  | leaf (value : Value)
  | table (origin : Origin) (entries : List (String × Node))
  /-- Tables under one name, each behind a header of its own. -/
  | series (tables : List (List (String × Node)))

/-- The entries with the one of the given name replaced, or a new one at the end. -/
def replace (name : String) (node : Node) : List (String × Node) → List (String × Node)
  | [] => [(name, node)]
  | (key, old) :: entries =>
    if key = name then (name, node) :: entries else (key, old) :: replace name node entries

/-- Gives a value to a name. The name must be new, and the tables that a dotted name leads through
must not have a header; the last of them must have come about by dotted names alone. -/
def assign? (last : Bool) (entries : List (String × Node)) : List String → Value →
    Option (List (String × Node))
  | [], _ => none
  | [name], value =>
    if last ∧ (entries.lookup name).isNone then some (replace name (.leaf value) entries) else none
  | name :: path, value =>
    match entries.lookup name with
    | none => (assign? true [] path value).map fun inner =>
      replace name (.table .dotted inner) entries
    | some (.table origin inner) =>
      -- A table with a header is complete below that header.
      if origin = .header then none
      else (assign? (origin == .dotted) inner path value).map fun inner =>
        replace name (.table origin inner) entries
    | some _ => none

def assignAll? (entries : List (String × Node)) (assignments : List (List String × Value)) :
    Option (List (String × Node)) :=
  assignments.foldlM (fun entries (path, value) => assign? true entries path value) entries

/-- Changes what a path leads to. Tables that are missing on the way are made, and of a series the
last table is taken. -/
def change? (change : Option Node → Option Node) (entries : List (String × Node)) :
    List String → Option (List (String × Node))
  | [] => none
  | [name] => (change (entries.lookup name)).map fun node => replace name node entries
  | name :: path =>
    match entries.lookup name with
    | none => (change? change [] path).map fun inner =>
      replace name (.table .implied inner) entries
    | some (.table origin inner) => (change? change inner path).map fun inner =>
      replace name (.table origin inner) entries
    | some (.series tables) => do
      let inner ← change? change (← tables.getLast?) path
      some (replace name (.series (tables.dropLast ++ [inner])) entries)
    | some (.leaf _) => none

/-- What a header says: the path of a table, and whether the table is one of a series. -/
structure Header where
  path : List String
  series : Bool
  deriving DecidableEq, Repr

structure Section where
  header : Header
  assignments : List (List String × Value)

def addSection? (entries : List (String × Node)) (s : Section) : Option (List (String × Node)) :=
  change? (fun node => match s.header.series, node with
    | false, none => (assignAll? [] s.assignments).map (.table .header)
    | false, some (.table .implied inner) => (assignAll? inner s.assignments).map (.table .header)
    | true, none => (assignAll? [] s.assignments).map fun inner => .series [inner]
    | true, some (.series tables) => (assignAll? [] s.assignments).map fun inner =>
      .series (tables ++ [inner])
    | _, _ => none) entries s.header.path

mutual

/-- The value of a table, now that nothing is added to it any more. -/
def Node.value : Node → Value
  | .leaf value => value
  | .table _ entries => .table (valuesOf entries)
  | .series tables => .array (tablesOf tables)

def valuesOf : List (String × Node) → List (String × Value)
  | [] => []
  | (name, node) :: entries => (name, node.value) :: valuesOf entries

def tablesOf : List (List (String × Node)) → List Value
  | [] => []
  | entries :: tables => .table (valuesOf entries) :: tablesOf tables

end

/-- The table of a document: the assignments before the first header, and the sections. -/
def ofSections? (assignments : List (List String × Value)) (sections : List Section) :
    Option Value := do
  let top ← assignAll? [] assignments
  let entries ← sections.foldlM addSection? top
  some (.table (valuesOf entries))

end GameWire.Toml
