import GameWire.Text.Utf8

/-!
# JSON strings

A text is written between quotation marks, with a backslash before quotation marks, backslashes and
control characters. Reading takes two steps: `cut?` finds the closing mark and checks the syntax of
escapes, which is all that a string that is passed over has to satisfy, and `unescape?` resolves the
escapes, where a surrogate needs its partner.
-/

namespace GameWire.Json

/-! ## Writing -/

def hexDigit (n : Nat) : UInt8 :=
  let d := n % 16
  UInt8.ofNat (if d < 10 then 0x30 + d else 0x57 + d)

/-- The letter that follows the backslash in the short escape of a control character. -/
def shortEscape? (b : UInt8) : Option UInt8 :=
  if b = 0x08 then some 0x62
  else if b = 0x09 then some 0x74
  else if b = 0x0A then some 0x6E
  else if b = 0x0C then some 0x66
  else if b = 0x0D then some 0x72
  else none

/-- One byte of a text as it stands between quotation marks. -/
def escape (b : UInt8) : Bytes :=
  if b = 0x22 ∨ b = 0x5C then [0x5C, b]
  else if b < 0x20 then
    match shortEscape? b with
    | some letter => [0x5C, letter]
    | none => [0x5C, 0x75, 0x30, 0x30, hexDigit (b.toNat / 16), hexDigit b.toNat]
  else [b]

def quote (s : String) : Bytes :=
  0x22 :: (Utf8.encode s).flatMap escape ++ [0x22]

/-! ## Reading -/

def hexValue? (b : UInt8) : Option Nat :=
  let n := b.toNat
  if 0x30 ≤ n ∧ n ≤ 0x39 then some (n - 0x30)
  else if 0x41 ≤ n ∧ n ≤ 0x46 then some (n - 0x37)
  else if 0x61 ≤ n ∧ n ≤ 0x66 then some (n - 0x57)
  else none

def hexUnit? (a b c d : UInt8) : Option Nat := do
  some ((((← hexValue? a) * 16 + (← hexValue? b)) * 16 + (← hexValue? c)) * 16 + (← hexValue? d))

/-- What a one-letter escape stands for. -/
def unescapeLetter? (b : UInt8) : Option UInt8 :=
  if b = 0x22 ∨ b = 0x5C ∨ b = 0x2F then some b
  else if b = 0x62 then some 0x08
  else if b = 0x74 then some 0x09
  else if b = 0x6E then some 0x0A
  else if b = 0x66 then some 0x0C
  else if b = 0x72 then some 0x0D
  else none

/-- Cuts a string at its closing quotation mark. The first part is what stands before the mark, with
escapes as they are written; control characters and unknown escapes are mistakes. -/
def cut? : Bytes → Option (Bytes × Bytes)
  | [] => none
  | b :: bs =>
    if b = 0x22 then some ([], bs)
    else if b = 0x5C then
      match bs with
      | [] => none
      | e :: bs =>
        if e = 0x75 then
          match bs with
          | h₁ :: h₂ :: h₃ :: h₄ :: bs =>
            if (hexUnit? h₁ h₂ h₃ h₄).isSome then
              (cut? bs).map fun (front, rest) => (b :: e :: h₁ :: h₂ :: h₃ :: h₄ :: front, rest)
            else none
          | _ => none
        else if (unescapeLetter? e).isSome then
          (cut? bs).map fun (front, rest) => (b :: e :: front, rest)
        else none
    else if b < 0x20 then none
    else (cut? bs).map fun (front, rest) => (b :: front, rest)

/-- The scalar with the given number in UTF-8. -/
def scalarBytes (n : Nat) : Bytes := String.utf8EncodeChar (Char.ofNat n)

/-- Resolves escapes, taking surrogates in pairs only. `pending` is a high surrogate that still
waits for its partner. -/
def unescape? : (pending : Option Nat) → Bytes → Option Bytes
  | none, [] => some []
  | some _, [] => none
  | pending, b :: bs =>
    if b = 0x5C then
      match bs with
      | [] => none
      | e :: bs =>
        if e = 0x75 then
          match bs with
          | h₁ :: h₂ :: h₃ :: h₄ :: bs =>
            match hexUnit? h₁ h₂ h₃ h₄, pending with
            | none, _ => none
            | some unit, none =>
              if 0xD800 ≤ unit ∧ unit ≤ 0xDBFF then unescape? (some unit) bs
              else if 0xDC00 ≤ unit ∧ unit ≤ 0xDFFF then none
              else (unescape? none bs).map (scalarBytes unit ++ ·)
            | some unit, some high =>
              if 0xDC00 ≤ unit ∧ unit ≤ 0xDFFF then
                (unescape? none bs).map
                  (scalarBytes (0x10000 + (high - 0xD800) * 0x400 + (unit - 0xDC00)) ++ ·)
              else none
          | _ => none
        else
          match unescapeLetter? e, pending with
          | some letter, none => (unescape? none bs).map (letter :: ·)
          | _, _ => none
    -- A high surrogate is followed by an escape or not at all.
    else if pending.isSome then none
    else (unescape? none bs).map (b :: ·)

/-- The text of a string, given what stands between its quotation marks. -/
def unquote? (literal : Bytes) : Option String :=
  (unescape? none literal).bind Utf8.decode?

end GameWire.Json
