import GameWire.Toml.Document
import GameWire.Toml.Number
import GameWire.Toml.Text

/-!
# Reading TOML

The reader splits a document into assignments and headers, from which `ofSections?` makes the table.
Arrays and inline tables nest less than `maxDepth` levels deep, and dotted names have fewer parts
than that.
-/

namespace GameWire.Toml

def maxDepth : Nat := 80

/-! ## Between tokens -/

def skipBlanks (cs : List Char) : List Char := cs.dropWhile isBlank

def skipComment : List Char → List Char
  | '#' :: cs => cs.dropWhile isPlain
  | cs => cs

/-- What follows the white space, line breaks and comments at the front. -/
def skipFiller : (limit : Nat) → List Char → List Char
  | 0, cs => cs
  | limit + 1, cs =>
    match skipComment (skipBlanks cs) with
    | '\n' :: rest => skipFiller limit rest
    | rest => rest

/-- What follows the rest of a line, on which nothing but a comment may stand. -/
def endLine? (cs : List Char) : Option (List Char) :=
  match skipComment (skipBlanks cs) with
  | [] => some []
  | '\n' :: rest => some rest
  | _ => none

/-! ## Names -/

/-- Whether a character may stand in a name without quotation marks. -/
def isBare (c : Char) : Bool := c.isAlphanum || c == '_' || c == '-'

def namePart? (cs : List Char) : Option (String × List Char) :=
  match cs.takeWhile isBare with
  | [] => (shortText? cs).map fun (name, rest) => (String.ofList name, rest)
  | name => some (String.ofList name, cs.dropWhile isBare)

/-- The parts of a dotted name, of which there are at most `limit`. -/
def nameParts? : (limit : Nat) → List Char → Option (List String × List Char)
  | 0, _ => none
  | limit + 1, cs => do
    let (part, rest) ← namePart? (skipBlanks cs)
    match skipBlanks rest with
    | '.' :: rest =>
      let (parts, rest) ← nameParts? limit rest
      some (part :: parts, rest)
    | rest => some ([part], rest)

/-- A dotted name and the blanks around it. -/
def name? (cs : List Char) : Option (List String × List Char) :=
  nameParts? (maxDepth - 1) cs

/-! ## Values -/

/-- The items of an array up to its closing bracket, each read by `item`. -/
def items? (item : List Char → Option (Value × List Char)) : (limit : Nat) → List Char →
    Option (List Value × List Char)
  | 0, _ => none
  | limit + 1, cs =>
    match skipFiller cs.length cs with
    | ']' :: rest => some ([], rest)
    | cs => do
      let (v, rest) ← item cs
      match skipFiller rest.length rest with
      | ',' :: rest =>
        let (vs, rest) ← items? item limit rest
        some (v :: vs, rest)
      | ']' :: rest => some ([v], rest)
      | _ => none

/-- One assignment, whose value is read by `item`. -/
def assignment? (item : List Char → Option (Value × List Char)) (cs : List Char) :
    Option ((List String × Value) × List Char) := do
  let (path, rest) ← name? cs
  match rest with
  | '=' :: rest =>
    let (v, rest) ← item (skipBlanks rest)
    some ((path, v), rest)
  | _ => none

/-- The assignments of an inline table up to its closing brace. There is one to come. -/
def inlined? (item : List Char → Option (Value × List Char)) : (limit : Nat) → List Char →
    Option (List (List String × Value) × List Char)
  | 0, _ => none
  | limit + 1, cs => do
    let (a, rest) ← assignment? item cs
    match skipBlanks rest with
    | ',' :: rest =>
      let (as, rest) ← inlined? item limit rest
      some (a :: as, rest)
    | '\x7D' :: rest => some ([a], rest)
    | _ => none

/-- An inline table whose opening brace has been read. -/
def inlineTable? (item : List Char → Option (Value × List Char)) (cs : List Char) :
    Option (Value × List Char) :=
  match skipBlanks cs with
  | '\x7D' :: rest => some (.table [], rest)
  | cs => do
    let (as, rest) ← inlined? item cs.length cs
    let entries ← assignAll? [] as
    some (.table (valuesOf entries), rest)

/-- A value that holds at most `depth` levels of arrays and inline tables. -/
def value? : (depth : Nat) → List Char → Option (Value × List Char)
  | depth, '[' :: rest =>
    match depth with
    | 0 => none
    | depth + 1 => (items? (value? depth) rest.length rest).map fun (vs, rest) => (.array vs, rest)
  | depth, '\x7B' :: rest =>
    match depth with
    | 0 => none
    | depth + 1 => inlineTable? (value? depth) rest
  | _, 't' :: rest => (['r', 'u', 'e'].isPrefixOf? rest).map fun rest => (.truth true, rest)
  | _, 'f' :: rest => (['a', 'l', 's', 'e'].isPrefixOf? rest).map fun rest => (.truth false, rest)
  | _, cs =>
    ((text? cs).map fun (s, rest) => (.text (String.ofList s), rest)).or (number? cs)

/-! ## Documents -/

/-- A header, if a bracket stands at the front: `none` inside when it is malformed. -/
def header? (cs : List Char) : Option (Header × List Char) :=
  let closed (series : Bool) (closing : List Char) (cs : List Char) := do
    let (path, rest) ← name? cs
    let rest ← closing.isPrefixOf? rest
    some (({ path, series } : Header), rest)
  match cs with
  | '[' :: '[' :: cs => closed true [']', ']'] cs
  | '[' :: cs => closed false [']'] cs
  | _ => none

/-- The assignments before the first header, and the sections. -/
def sections? : (limit : Nat) → List Char → Option (List (List String × Value) × List Section)
  | 0, cs => if cs.isEmpty then some ([], []) else none
  | limit + 1, cs =>
    match skipFiller cs.length cs with
    | [] => some ([], [])
    | '[' :: rest => do
      let (header, rest) ← header? ('[' :: rest)
      let (assignments, sections) ← sections? limit (← endLine? rest)
      some ([], { header, assignments } :: sections)
    | cs => do
      let (a, rest) ← assignment? (value? (maxDepth - 1)) cs
      let (assignments, sections) ← sections? limit (← endLine? rest)
      some (a :: assignments, sections)

/-- The text with every line break as one character. -/
def joinBreaks : List Char → List Char
  | '\r' :: '\n' :: cs => '\n' :: joinBreaks cs
  | c :: cs => c :: joinBreaks cs
  | [] => []

/-- The text without the byte order mark it may begin with. -/
def dropMark : List Char → List Char
  | '\uFEFF' :: cs => cs
  | cs => cs

def read? (s : String) : Option Value := do
  let cs := joinBreaks (dropMark s.toList)
  let (assignments, sections) ← sections? (cs.length + 1) cs
  ofSections? assignments sections

end GameWire.Toml
