/-!
# TOML strings

A string stands between single marks on one line, or between triple marks on one or more lines.
Between quotation marks a backslash starts an escape, and at the end of a line it takes away the
white space that follows; between apostrophes every character stands for itself.
-/

namespace GameWire.Toml

def isBlank (c : Char) : Bool := c == ' ' || c == '\t'

/-- Whether a character may stand for itself on a line. -/
def isPlain (c : Char) : Bool := c == '\t' || (' ' ≤ c && c.toNat != 0x7F)

structure TextStyle where
  mark : Char
  /-- Whether the marks are triple. -/
  long : Bool
  deriving DecidableEq, Repr

inductive TextState where
  | plain
  /-- In a run of marks, which may turn out to close the string. -/
  | marks (count : Nat)
  | escape
  /-- In the number of a scalar, with some digits owed. -/
  | code (owed value : Nat)
  /-- Behind a backslash that may end a line; `broken` once the line has ended. -/
  | fold (broken : Bool)
  deriving DecidableEq, Repr

/-- What one character does inside a string. -/
inductive TextMove where
  /-- It adds to the text. -/
  | go (out : List Char) (next : TextState)
  /-- The string ends with it, or before it if it is kept. -/
  | stop (out : List Char) (keep : Bool)

def hexValue? (c : Char) : Option Nat :=
  let n := c.toNat
  if 0x30 ≤ n ∧ n ≤ 0x39 then some (n - 0x30)
  else if 0x41 ≤ n ∧ n ≤ 0x46 then some (n - 0x37)
  else if 0x61 ≤ n ∧ n ≤ 0x66 then some (n - 0x57)
  else none

/-- The character with a given number, if it is that of a scalar. -/
def scalar? (n : Nat) : Option Char :=
  if n.isValidChar then some (Char.ofNat n) else none

/-- What the letter behind a backslash stands for. -/
def unescape? : Char → Option Char
  | 'b' => some '\x08'
  | 't' => some '\t'
  | 'n' => some '\n'
  | 'f' => some '\x0C'
  | 'r' => some '\r'
  | '"' => some '"'
  | '\\' => some '\\'
  | _ => none

namespace TextStyle

/-- What a character does outside of escapes and runs of marks. -/
def plainMove? (s : TextStyle) (c : Char) : Option TextMove :=
  if c = s.mark then
    some (if s.long then .go [] (.marks 1) else .stop [] false)
  else if c = '\\' ∧ s.mark = '"' then some (.go [] .escape)
  else if isPlain c || (c == '\n' && s.long) then some (.go [c] .plain)
  else none

def move? (s : TextStyle) (state : TextState) (c : Char) : Option TextMove :=
  match state with
  | .plain => s.plainMove? c
  | .marks count =>
    if c = s.mark then
      -- Two marks may stand before the three that close, so a fifth one ends the string.
      some (if count = 4 then .stop [s.mark, s.mark] false else .go [] (.marks (count + 1)))
    else if 3 ≤ count then some (.stop (List.replicate (count - 3) s.mark) true)
    else match s.plainMove? c with
      | some (.go out next) => some (.go (List.replicate count s.mark ++ out) next)
      | other => other
  | .escape =>
    if c = 'u' then some (.go [] (.code 4 0))
    else if c = 'U' then some (.go [] (.code 8 0))
    else match unescape? c with
      | some d => some (.go [d] .plain)
      | none =>
        if s.long && (isBlank c || c == '\n') then some (.go [] (.fold (c == '\n'))) else none
  | .code owed value =>
    match hexValue? c with
    | none => none
    | some d =>
      let value := value * 16 + d
      if owed = 1 then (scalar? value).map fun x => .go [x] .plain
      else some (.go [] (.code (owed - 1) value))
  | .fold broken =>
    if isBlank c then some (.go [] (.fold broken))
    else if c = '\n' then some (.go [] (.fold true))
    else if broken then s.plainMove? c
    else none

/-- Reads on inside a string: its text, and what stands behind it. -/
def scan? (s : TextStyle) : TextState → List Char → Option (List Char × List Char)
  | .marks count, [] =>
    if 3 ≤ count then some (List.replicate (count - 3) s.mark, []) else none
  | _, [] => none
  | state, c :: cs =>
    match s.move? state c with
    | none => none
    | some (.go out next) => (scan? s next cs).map fun (text, rest) => (out ++ text, rest)
    | some (.stop out keep) => some (out, if keep then c :: cs else cs)

end TextStyle

/-- A string on one line, if one stands at the front. -/
def shortText? : List Char → Option (List Char × List Char)
  | c :: cs =>
    if c = '"' ∨ c = '\'' then TextStyle.scan? ⟨c, false⟩ .plain cs else none
  | [] => none

/-- A string, if one stands at the front. A line break right behind triple marks does not count. -/
def text? : List Char → Option (List Char × List Char)
  | a :: b :: c :: cs =>
    if a = b ∧ b = c ∧ (a = '"' ∨ a = '\'') then
      TextStyle.scan? ⟨a, true⟩ .plain (match cs with
        | '\n' :: cs => cs
        | cs => cs)
    else shortText? (a :: b :: c :: cs)
  | cs => shortText? cs

end GameWire.Toml
