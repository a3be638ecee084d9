import GameWire.Toml.Value
import GameWire.Toml.Text

/-!
# Writing TOML

A document is written as named sections, with a blank line between them. An array of two or more
items takes a line for each. A string is put between the plainest marks that need no escape: first
quotation marks, then apostrophes, then both of them in triple; only where none will do are there
escapes.
-/

namespace GameWire.Toml

/-! ## Strings -/

def hexDigit (n : Nat) : Char :=
  let d := n % 16
  if d < 10 then Char.ofNat (0x30 + d) else Char.ofNat (0x37 + d)

/-- A character that is no quotation mark as it stands between them; `long` tells whether they are
triple. -/
def escape (long : Bool) (c : Char) : List Char :=
  if c = '\x08' then ['\\', 'b']
  else if c = '\t' then ['\\', 't']
  else if c = '\n' then (if long then ['\n'] else ['\\', 'n'])
  else if c = '\x0C' then ['\\', 'f']
  else if c = '\r' then ['\\', 'r']
  else if c = '\\' then ['\\', '\\']
  else if isPlain c then [c]
  else ['\\', 'u', '0', '0', hexDigit (c.toNat / 16), hexDigit c.toNat]

/-- A text as it stands between quotation marks, where `run` of them have just been written. Between
triple ones up to two in a row stand for themselves. -/
def escapeAll (long : Bool) (run : Nat) : List Char → List Char
  | [] => []
  | c :: cs =>
    if c = '"' then
      if long ∧ run < 2 then '"' :: escapeAll long (run + 1) cs
      else '\\' :: '"' :: escapeAll long 0 cs
    else escape long c ++ escapeAll long 0 cs

/-- The length of the longest run of `mark`, where `run` of them have just been passed. -/
def longestRun (mark : Char) (run : Nat) : List Char → Nat
  | [] => run
  | c :: cs => if c = mark then longestRun mark (run + 1) cs else max run (longestRun mark 0 cs)

def styleFor (cs : List Char) : TextStyle :=
  let plain := cs.all fun c => isPlain c || c == '\n'
  let unescaped := plain && !cs.contains '\\'
  let broken := cs.contains '\n'
  if unescaped ∧ !broken ∧ longestRun '"' 0 cs = 0 then ⟨'"', false⟩
  else if plain ∧ !broken ∧ longestRun '\'' 0 cs = 0 then ⟨'\'', false⟩
  else if unescaped ∧ longestRun '"' 0 cs ≤ 2 then ⟨'"', true⟩
  else if plain ∧ longestRun '\'' 0 cs ≤ 2 then ⟨'\'', true⟩
  else ⟨'"', broken⟩

/-- A string with its marks. A text with line breaks starts on a line of its own. -/
def quote (s : String) : List Char :=
  let cs := s.toList
  let style := styleFor cs
  let marks := List.replicate (if style.long then 3 else 1) style.mark
  let opening := if cs.contains '\n' then marks ++ ['\n'] else marks
  let body := if style.mark = '"' then escapeAll style.long 0 cs else cs
  opening ++ body ++ marks

/-! ## Values and documents -/

mutual

/-- The text of a value, if it is of a kind that is written. -/
def write? : Value → Option (List Char)
  | .text s => some (quote s)
  | .integer n => if isInRange n then some (toString n).toList else none
  | .truth b => some (if b then ['t', 'r', 'u', 'e'] else ['f', 'a', 'l', 's', 'e'])
  | .array [] => some ['[', ']']
  | .array [item] => (write? item).map fun text => '[' :: text ++ [']']
  | .array items => (writeItems? items).map fun lines => '[' :: '\n' :: lines ++ [']']
  | .other | .table _ => none

def writeItems? : List Value → Option (List Char)
  | [] => some []
  | item :: items => do
    let line ← write? item
    let lines ← writeItems? items
    some ([' ', ' ', ' ', ' '] ++ line ++ ',' :: '\n' :: lines)

end

def writeEntries? (entries : List (String × Value)) : Option (List Char) := do
  let lines ← entries.mapM fun (name, value) => do
    let text ← write? value
    some (name.toList ++ [' ', '=', ' '] ++ text ++ ['\n'])
  some lines.flatten

def writeSection? (name : String) (entries : List (String × Value)) : Option (List Char) :=
  (writeEntries? entries).map fun lines => '[' :: name.toList ++ [']', '\n'] ++ lines

def render? (sections : List (String × List (String × Value))) : Option String := do
  let parts ← sections.mapM fun (name, entries) => writeSection? name entries
  some (String.ofList (['\n'].intercalate parts))

end GameWire.Toml
