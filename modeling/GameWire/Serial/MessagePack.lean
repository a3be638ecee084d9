import GameWire.Serial.Tree

/-!
# MessagePack

Numbers, texts, lists and maps are written with the shortest header that fits. A record becomes a
map from its field names, or with `named` off the list of its values.

The reader takes one value off the front and does not look at what follows it. Containers nest at
most `maxDepth` levels deep. Unsigned numbers are `ordinal`, signed ones are not, and a negative
number is one that no field takes.
-/

namespace GameWire.MessagePack

/-! ## Writing -/

/-- The header of something counted: up to `small` values with the count in the marker itself, or
a marker followed by the count in big-endian order. A marker that does not exist is `none`. -/
def header (small : Nat) (fix : Nat) (one : Option UInt8) (two four : UInt8) (n : Nat) : Bytes :=
  if n < small then [UInt8.ofNat (fix + n)]
  else match one with
    | some marker =>
      if n < 2 ^ 8 then marker :: Bytes.be 1 n
      else if n < 2 ^ 16 then two :: Bytes.be 2 n
      else four :: Bytes.be 4 n
    | none => if n < 2 ^ 16 then two :: Bytes.be 2 n else four :: Bytes.be 4 n

def numberBytes (n : Nat) : Bytes :=
  if n < 2 ^ 32 then header 0x80 0 (some 0xCC) 0xCD 0xCE n else 0xCF :: Bytes.be 8 n

def textHeader (n : Nat) : Bytes := header 0x20 0xA0 (some 0xD9) 0xDA 0xDB n

def listHeader (n : Nat) : Bytes := header 0x10 0x90 none 0xDC 0xDD n

def mapHeader (n : Nat) : Bytes := header 0x10 0x80 none 0xDE 0xDF n

def textBytes (s : String) : Bytes :=
  let bs := Utf8.encode s
  textHeader bs.length ++ bs

mutual

def write (named : Bool) : Outline → Bytes
  | .number n => numberBytes n
  | .text s => textBytes s
  | .list items => listHeader items.length ++ writeItems named items
  | .record fields =>
    (if named then mapHeader fields.length else listHeader fields.length) ++
      writeFields named fields
  | .tagged tag payload => mapHeader 1 ++ textBytes tag ++ write named payload

def writeItems (named : Bool) : List Outline → Bytes
  | [] => []
  | item :: items => write named item ++ writeItems named items

def writeFields (named : Bool) : List (String × Outline) → Bytes
  | [] => []
  | (name, value) :: fields =>
    (if named then textBytes name else []) ++ write named value ++ writeFields named fields

end

/-! ## Reading -/

def maxDepth : Nat := 1024

def readNumber? (width : Nat) (bs : Bytes) : Option (Nat × Bytes) :=
  (Bytes.cut? width bs).map fun (digits, rest) => (Bytes.ofBE digits, rest)

def readSigned? (width : Nat) (bs : Bytes) : Option (Tree × Bytes) :=
  (readNumber? width bs).map fun (n, rest) =>
    (if n < 256 ^ width / 2 then .number n false else .other, rest)

def readUnsigned? (width : Nat) (bs : Bytes) : Option (Tree × Bytes) :=
  (readNumber? width bs).map fun (n, rest) => (.number n true, rest)

def readText? (count : Nat) (bs : Bytes) : Option (Tree × Bytes) :=
  (Bytes.cut? count bs).map fun (content, rest) =>
    (match Utf8.decode? content with
      | some s => .text s
      | none => .garbled, rest)

def readBlob? (count : Nat) (bs : Bytes) : Option (Tree × Bytes) :=
  (Bytes.cut? count bs).map fun (content, rest) => (.blob content, rest)

/-- Passes over `count` bytes of a value that no field takes. -/
def readOther? (count : Nat) (bs : Bytes) : Option (Tree × Bytes) :=
  (Bytes.cut? count bs).map fun (_, rest) => (.other, rest)

/-- Something behind its count of `width` bytes. -/
def counted? (width : Nat) (content : Nat → Bytes → Option (Tree × Bytes)) (bs : Bytes) :
    Option (Tree × Bytes) := do
  let (count, rest) ← readNumber? width bs
  content count rest

def readItems? (item : Bytes → Option (Tree × Bytes)) : (count : Nat) → Bytes →
    Option (List Tree × Bytes)
  | 0, bs => some ([], bs)
  | count + 1, bs => do
    let (t, rest) ← item bs
    let (ts, rest) ← readItems? item count rest
    some (t :: ts, rest)

def readEntries? (item : Bytes → Option (Tree × Bytes)) : (count : Nat) → Bytes →
    Option (List (Tree × Tree) × Bytes)
  | 0, bs => some ([], bs)
  | count + 1, bs => do
    let (key, rest) ← item bs
    let (value, rest) ← item rest
    let (entries, rest) ← readEntries? item count rest
    some ((key, value) :: entries, rest)

def readList? (item : Bytes → Option (Tree × Bytes)) (count : Nat) (bs : Bytes) :
    Option (Tree × Bytes) :=
  (readItems? item count bs).map fun (items, rest) => (.list items, rest)

def readMap? (item : Bytes → Option (Tree × Bytes)) (count : Nat) (bs : Bytes) :
    Option (Tree × Bytes) :=
  (readEntries? item count bs).map fun (entries, rest) => (.table entries, rest)

/-- A value with a marker of 0xC0 to 0xDF, whose containers hold values read by `item`. -/
def readMarked? (item : Bytes → Option (Tree × Bytes)) (marker : Nat) (bs : Bytes) :
    Option (Tree × Bytes) :=
  match marker with
  | 0xC0 => some (.null, bs)
  | 0xC2 | 0xC3 => some (.other, bs)
  | 0xC4 => counted? 1 readBlob? bs
  | 0xC5 => counted? 2 readBlob? bs
  | 0xC6 => counted? 4 readBlob? bs
  -- Extensions have one more byte, for their type.
  | 0xC7 => counted? 1 (fun count => readOther? (count + 1)) bs
  | 0xC8 => counted? 2 (fun count => readOther? (count + 1)) bs
  | 0xC9 => counted? 4 (fun count => readOther? (count + 1)) bs
  | 0xCA => readOther? 4 bs
  | 0xCB => readOther? 8 bs
  | 0xCC => readUnsigned? 1 bs
  | 0xCD => readUnsigned? 2 bs
  | 0xCE => readUnsigned? 4 bs
  | 0xCF => readUnsigned? 8 bs
  | 0xD0 => readSigned? 1 bs
  | 0xD1 => readSigned? 2 bs
  | 0xD2 => readSigned? 4 bs
  | 0xD3 => readSigned? 8 bs
  | 0xD4 => readOther? 2 bs
  | 0xD5 => readOther? 3 bs
  | 0xD6 => readOther? 5 bs
  | 0xD7 => readOther? 9 bs
  | 0xD8 => readOther? 17 bs
  | 0xD9 => counted? 1 readText? bs
  | 0xDA => counted? 2 readText? bs
  | 0xDB => counted? 4 readText? bs
  | 0xDC => counted? 2 (readList? item) bs
  | 0xDD => counted? 4 (readList? item) bs
  | 0xDE => counted? 2 (readMap? item) bs
  | 0xDF => counted? 4 (readMap? item) bs
  | _ => none

/-- The value at the front, nested at most `depth` levels deep, and the bytes behind it. -/
def readValue? : (depth : Nat) → Bytes → Option (Tree × Bytes)
  | 0, _ => none
  | _ + 1, [] => none
  | depth + 1, b :: bs =>
    let marker := b.toNat
    if marker < 0x80 then some (.number marker true, bs)
    else if marker < 0x90 then readMap? (readValue? depth) (marker - 0x80) bs
    else if marker < 0xA0 then readList? (readValue? depth) (marker - 0x90) bs
    else if marker < 0xC0 then readText? (marker - 0xA0) bs
    else if marker < 0xE0 then readMarked? (readValue? depth) marker bs
    -- What remains are small negative numbers.
    else some (.other, bs)

def read? (bs : Bytes) : Option Tree :=
  (readValue? maxDepth bs).map Prod.fst

end GameWire.MessagePack
