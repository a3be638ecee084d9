import GameWire.Toml.Value
import GameWire.Toml.Text

/-!
# TOML numbers, dates and times

Each reader takes what it knows off the front of a text and gives what is left.
-/

namespace GameWire.Toml

def digit? (base : Nat) (c : Char) : Option Nat :=
  (hexValue? c).filter (· < base)

/-- The digits at the front, between which single underscores may stand. -/
def digits (base : Nat) : List Char → List Nat × List Char
  | '_' :: c :: cs =>
    match digit? base c with
    | some d => let (ds, rest) := digits base cs; (d :: ds, rest)
    | none => ([], '_' :: c :: cs)
  | c :: cs =>
    match digit? base c with
    | some d => let (ds, rest) := digits base cs; (d :: ds, rest)
    | none => ([], c :: cs)
  | [] => ([], [])

/-- Digits of which the first comes without an underscore. -/
def digits? (base : Nat) (cs : List Char) : Option (List Nat × List Char) :=
  match cs with
  | '_' :: _ => none
  | cs =>
    let (ds, rest) := digits base cs
    if ds.isEmpty then none else some (ds, rest)

def ofDigits (base : Nat) (ds : List Nat) : Nat :=
  ds.foldl (fun n d => n * base + d) 0

/-- The sign at the front, if there is one: whether it is a minus. -/
def sign : List Char → Bool × List Char
  | '+' :: cs => (false, cs)
  | '-' :: cs => (true, cs)
  | cs => (false, cs)

/-- A decimal number without leading zeros: whether it is negative, and its digits. -/
def decimal? (cs : List Char) : Option ((Bool × List Nat) × List Char) := do
  let (negative, cs) := sign cs
  match cs with
  | '0' :: cs => some ((negative, [0]), cs)
  | cs =>
    let (ds, rest) ← digits? 10 cs
    some ((negative, ds), rest)

def integer? (cs : List Char) : Option (Value × List Char) := do
  let (n, rest) ← match cs with
    | '0' :: 'x' :: cs => (digits? 16 cs).map fun (ds, rest) => ((ofDigits 16 ds : Int), rest)
    | '0' :: 'o' :: cs => (digits? 8 cs).map fun (ds, rest) => ((ofDigits 8 ds : Int), rest)
    | '0' :: 'b' :: cs => (digits? 2 cs).map fun (ds, rest) => ((ofDigits 2 ds : Int), rest)
    | cs => (decimal? cs).map fun ((negative, ds), rest) =>
      let n : Int := ofDigits 10 ds
      (if negative then -n else n, rest)
  if isInRange n then some (.integer n, rest) else none

/-! ## Fractions -/

/-- Whether `mantissa * 10 ^ exponent` is too large for a 64-bit floating-point number. -/
def overflows (mantissa : Nat) (exponent : Int) : Bool :=
  let bound := 2 ^ 1024 - 2 ^ 970
  if mantissa = 0 then false
  else if exponent ≥ 400 then true
  else if exponent ≥ 0 then bound ≤ mantissa * 10 ^ exponent.toNat
  else if (mantissa.log2 : Int) + 4 < -exponent then false
  else bound * 10 ^ (-exponent).toNat ≤ mantissa

/-- The exponent at the front: a letter, a sign and digits. -/
def exponent? : List Char → Option (Int × List Char)
  | c :: cs =>
    if c = 'e' ∨ c = 'E' then do
      let (negative, cs) := sign cs
      let (ds, rest) ← digits? 10 cs
      let n : Int := ofDigits 10 ds
      some (if negative then -n else n, rest)
    else none
  | [] => none

/-- The fraction at the front: a point and digits. -/
def fraction? : List Char → Option (List Nat × List Char)
  | '.' :: cs => digits? 10 cs
  | _ => none

/-- A number with a fraction or an exponent, an infinity, or no number at all. One that is too large
is a mistake, unless it is negative. -/
def float? (cs : List Char) : Option (Value × List Char) :=
  let unsigned := (sign cs).2
  let special := (['i', 'n', 'f'].isPrefixOf? unsigned).or (['n', 'a', 'n'].isPrefixOf? unsigned)
  match special with
  | some rest => some (.other, rest)
  | none => do
    let ((negative, whole), rest) ← decimal? cs
    let (fraction, afterFraction) := (fraction? rest).getD ([], rest)
    let (exponent, afterAll) := (exponent? afterFraction).getD (0, afterFraction)
    -- Without a fraction and an exponent it is a whole number.
    if afterAll.length = rest.length then none
    else if !negative &&
        overflows (ofDigits 10 (whole ++ fraction)) (exponent - fraction.length) then none
    else some (.other, afterAll)

/-! ## Dates and times -/

/-- A number of exactly `count` digits, between two bounds. -/
def fixedNumber? (count low high : Nat) (cs : List Char) : Option (Nat × List Char) := do
  let ds ← (cs.take count).mapM (digit? 10)
  let n := ofDigits 10 ds
  if ds.length = count ∧ low ≤ n ∧ n ≤ high then some (n, cs.drop count) else none

def daysIn (year month : Nat) : Nat :=
  if month = 2 then
    if year % 4 = 0 ∧ (year % 100 ≠ 0 ∨ year % 400 = 0) then 29 else 28
  else if month = 4 ∨ month = 6 ∨ month = 9 ∨ month = 11 then 30
  else 31

def date? (cs : List Char) : Option (List Char) := do
  let (year, cs) ← fixedNumber? 4 0 9999 cs
  let (month, cs) ← fixedNumber? 2 1 12 (← ['-'].isPrefixOf? cs)
  let (_, cs) ← fixedNumber? 2 1 (daysIn year month) (← ['-'].isPrefixOf? cs)
  some cs

/-- A time of day. The last second of a day may be a leap second. -/
def time? (cs : List Char) : Option (List Char) := do
  let (_, cs) ← fixedNumber? 2 0 23 cs
  let (_, cs) ← fixedNumber? 2 0 59 (← [':'].isPrefixOf? cs)
  let (_, cs) ← fixedNumber? 2 0 60 (← [':'].isPrefixOf? cs)
  match cs with
  | '.' :: ds =>
    let rest := ds.dropWhile fun c => (digit? 10 c).isSome
    if rest.length < ds.length then some rest else some cs
  | cs => some cs

/-- The difference of a time from universal time. -/
def offset? : List Char → Option (List Char)
  | c :: cs =>
    if c = 'Z' ∨ c = 'z' then some cs
    else if c = '+' ∨ c = '-' then do
      let (_, cs) ← fixedNumber? 2 0 23 cs
      let (_, cs) ← fixedNumber? 2 0 59 (← [':'].isPrefixOf? cs)
      some cs
    else none
  | [] => none

/-- A time behind a date, with or without an offset. -/
def clock? : List Char → Option (List Char)
  | c :: cs =>
    if c = 'T' ∨ c = 't' ∨ c = ' ' then
      (time? cs).map fun rest => (offset? rest).getD rest
    else none
  | [] => none

def moment? (cs : List Char) : Option (Value × List Char) :=
  match date? cs with
  | some rest => some (.other, (clock? rest).getD rest)
  | none => (time? cs).map fun rest => (.other, rest)

def number? (cs : List Char) : Option (Value × List Char) :=
  ((moment? cs).or (float? cs)).or (integer? cs)

end GameWire.Toml
