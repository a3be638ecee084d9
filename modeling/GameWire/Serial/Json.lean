import GameWire.Serial.Json.Quoted
import GameWire.Serial.Tree

/-!
# JSON

An outline is written without any blanks. Records and tagged values become objects.

The reader accepts exactly the JSON grammar, with nothing but blanks around the value. Strings need
only be well-formed as tokens; one that spells no text becomes a `broken` tree. Of the numbers,
those without sign, fraction and exponent are kept. Every level of nesting takes at least one byte,
so the length of the input bounds the depth of the descent.
-/

namespace GameWire.Json

/-! ## Writing -/

def digits (n : Nat) : Bytes :=
  (Nat.toDigits 10 n).map fun c => UInt8.ofNat c.toNat

mutual

def write : Outline → Bytes
  | .number n => digits n
  | .text s => quote s
  | .list items => 0x5B :: writeItems true items
  | .record fields => 0x7B :: writeFields true fields
  | .tagged tag payload => 0x7B :: quote tag ++ 0x3A :: write payload ++ [0x7D]

/-- The rest of a list up to its closing bracket. A comma goes before every item but the first. -/
def writeItems (first : Bool) : List Outline → Bytes
  | [] => [0x5D]
  | item :: items => (if first then [] else [0x2C]) ++ write item ++ writeItems false items

/-- The rest of an object up to its closing brace. -/
def writeFields (first : Bool) : List (String × Outline) → Bytes
  | [] => [0x7D]
  | (name, value) :: fields =>
    (if first then [] else [0x2C]) ++ quote name ++ 0x3A :: write value ++ writeFields false fields

end

/-! ## Reading -/

def isBlank (b : UInt8) : Bool := b == 0x20 || b == 0x09 || b == 0x0A || b == 0x0D

def skipBlanks (bs : Bytes) : Bytes := bs.dropWhile isBlank

def isDigit (b : UInt8) : Bool := 0x30 ≤ b && b ≤ 0x39

def ofDigits (ds : Bytes) : Nat := ds.foldl (fun n d => n * 10 + (d.toNat - 0x30)) 0

/-- The digits at the front, of which there must be at least one. -/
def readDigits? (bs : Bytes) : Option (Bytes × Bytes) :=
  let ds := bs.takeWhile isDigit
  if ds.isEmpty then none else some (ds, bs.dropWhile isDigit)

/-- Passes over the fraction at the front, if there is one. Tells whether there was one. -/
def skipFraction? : Bytes → Option (Bool × Bytes)
  | [] => some (false, [])
  | b :: bs => if b = 0x2E then (readDigits? bs).map fun (_, rest) => (true, rest)
    else some (false, b :: bs)

/-- Passes over the exponent at the front, if there is one. Tells whether there was one. -/
def skipExponent? : Bytes → Option (Bool × Bytes)
  | [] => some (false, [])
  | b :: bs =>
    if b = 0x65 ∨ b = 0x45 then
      let unsigned := match bs with
        | s :: more => if s = 0x2B ∨ s = 0x2D then more else bs
        | [] => bs
      (readDigits? unsigned).map fun (_, rest) => (true, rest)
    else some (false, b :: bs)

/-- A number without its sign. A zero stands alone before the point. -/
def readUnsigned? (bs : Bytes) : Option (Tree × Bytes) := do
  let (whole, rest) ← readDigits? bs
  let (whole, rest) := if whole.head? = some 0x30 then ([0x30], whole.drop 1 ++ rest)
    else (whole, rest)
  let (fraction, rest) ← skipFraction? rest
  let (exponent, rest) ← skipExponent? rest
  some (if fraction || exponent then .other else .number (ofDigits whole) false, rest)

/-- A string whose opening quotation mark has been read. -/
def readString? (bs : Bytes) : Option (Tree × Bytes) :=
  (cut? bs).map fun (literal, rest) =>
    (match unquote? literal with
      | some s => .text s
      | none => .broken, rest)

/-- Items of a list up to its closing bracket, each read by `item`. There is one to come. -/
def readItems? (item : Bytes → Option (Tree × Bytes)) : (limit : Nat) → Bytes →
    Option (List Tree × Bytes)
  | 0, _ => none
  | limit + 1, bs => do
    let (t, rest) ← item bs
    match skipBlanks rest with
    | 0x2C :: rest =>
      let (ts, rest) ← readItems? item limit rest
      some (t :: ts, rest)
    | 0x5D :: rest => some ([t], rest)
    | _ => none

/-- Entries of an object up to its closing brace. There is one to come. -/
def readEntries? (item : Bytes → Option (Tree × Bytes)) : (limit : Nat) → Bytes →
    Option (List (Tree × Tree) × Bytes)
  | 0, _ => none
  | limit + 1, bs =>
    match skipBlanks bs with
    | 0x22 :: rest => do
      let (key, rest) ← readString? rest
      match skipBlanks rest with
      | 0x3A :: rest =>
        let (t, rest) ← item rest
        match skipBlanks rest with
        | 0x2C :: rest =>
          let (entries, rest) ← readEntries? item limit rest
          some ((key, t) :: entries, rest)
        | 0x7D :: rest => some ([(key, t)], rest)
        | _ => none
      | _ => none
    | _ => none

/-- A value nested at most `depth` levels deep. -/
def readValue? : (depth : Nat) → Bytes → Option (Tree × Bytes)
  | 0, _ => none
  | depth + 1, bs =>
    match skipBlanks bs with
    | [] => none
    | b :: rest =>
      if b = 0x22 then readString? rest
      else if b = 0x7B then
        match skipBlanks rest with
        | 0x7D :: rest => some (.table [], rest)
        | rest => (readEntries? (readValue? depth) rest.length rest).map fun (entries, rest) =>
          (.table entries, rest)
      else if b = 0x5B then
        match skipBlanks rest with
        | 0x5D :: rest => some (.list [], rest)
        | rest => (readItems? (readValue? depth) rest.length rest).map fun (items, rest) =>
          (.list items, rest)
      -- No field takes a number with a minus sign, not even zero.
      else if b = 0x2D then (readUnsigned? rest).map fun (_, rest) => (.other, rest)
      else if isDigit b then readUnsigned? (b :: rest)
      else if b = 0x6E then ([0x75, 0x6C, 0x6C].isPrefixOf? rest).map fun rest => (.null, rest)
      else if b = 0x74 then ([0x72, 0x75, 0x65].isPrefixOf? rest).map fun rest => (.other, rest)
      else if b = 0x66 then
        ([0x61, 0x6C, 0x73, 0x65].isPrefixOf? rest).map fun rest => (.other, rest)
      else none

def read? (bs : Bytes) : Option Tree := do
  let (t, rest) ← readValue? (bs.length + 1) bs
  if (skipBlanks rest).isEmpty then some t else none

end GameWire.Json
