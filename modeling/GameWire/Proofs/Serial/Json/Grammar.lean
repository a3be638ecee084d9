import GameWire.Serial.Json
import Mathlib.Data.List.TakeWhile

/-!
# The grammar of JSON

`Spells text t` says that a JSON text spells the value `t`, without reference to the reader. Of its
tokens, strings and numbers are shown here to be what the reader takes for them.
-/

namespace GameWire.Json

/-! ## The grammar -/

def Blanks (bs : Bytes) : Prop := ∀ b ∈ bs, isBlank b = true

/-- What may stand between quotation marks. It need not be the spelling of a text: bytes are not
checked for UTF-8, nor surrogates for their partners. -/
inductive Literal : Bytes → Prop
  | nil : Literal []
  | plain {b : UInt8} {bs : Bytes} (hquote : b ≠ 0x22) (hslash : b ≠ 0x5C) (hcontrol : ¬ b < 0x20)
      (h : Literal bs) : Literal (b :: bs)
  | letter {e : UInt8} {bs : Bytes} (hletter : (unescapeLetter? e).isSome) (h : Literal bs) :
      Literal (0x5C :: e :: bs)
  | unit {h₁ h₂ h₃ h₄ : UInt8} {bs : Bytes} (hunit : (hexUnit? h₁ h₂ h₃ h₄).isSome)
      (h : Literal bs) : Literal (0x5C :: 0x75 :: h₁ :: h₂ :: h₃ :: h₄ :: bs)

/-- The value of a string, given what stands between its quotation marks. -/
def stringTree (literal : Bytes) : Tree := (unquote? literal).elim .broken .text

/-- Decimal digits, of which there is at least one. -/
def IsDigits (ds : Bytes) : Prop := ds ≠ [] ∧ ∀ d ∈ ds, isDigit d = true

inductive Fraction : Bytes → Prop
  | none : Fraction []
  | point {ds : Bytes} (h : IsDigits ds) : Fraction (0x2E :: ds)

inductive Exponent : Bytes → Prop
  | none : Exponent []
  | power {e : UInt8} {sign ds : Bytes} (he : e = 0x65 ∨ e = 0x45)
      (hsign : sign = [] ∨ sign = [0x2B] ∨ sign = [0x2D]) (h : IsDigits ds) :
      Exponent (e :: (sign ++ ds))

/-- A number without its sign. -/
structure Numeral where
  whole : Bytes
  fraction : Bytes
  exponent : Bytes
  isDigits_whole : IsDigits whole
  /-- A zero stands alone before the point. -/
  eq_zero : whole.head? = some 0x30 → whole = [0x30]
  isFraction : Fraction fraction
  isExponent : Exponent exponent

namespace Numeral

def bytes (n : Numeral) : Bytes := n.whole ++ (n.fraction ++ n.exponent)

/-- Only whole numbers are kept. -/
def tree (n : Numeral) : Tree :=
  if n.fraction = [] ∧ n.exponent = [] then .number (ofDigits n.whole) false else .other

end Numeral

/-- One member of an object, where `value` is said to spell `tree`. -/
structure Member where
  before : Bytes
  literal : Bytes
  after : Bytes
  value : Bytes
  tree : Tree
  blanks_before : Blanks before
  isLiteral : Literal literal
  blanks_after : Blanks after

namespace Member

def bytes (m : Member) : Bytes :=
  m.before ++ 0x22 :: (m.literal ++ 0x22 :: (m.after ++ 0x3A :: m.value))

def entry (m : Member) : Tree × Tree := (stringTree m.literal, m.tree)

end Member

inductive Spells : Bytes → Tree → Prop
  | padded {before text after : Bytes} {t : Tree} (hbefore : Blanks before) (hafter : Blanks after)
      (h : Spells text t) : Spells (before ++ (text ++ after)) t
  | null : Spells [0x6E, 0x75, 0x6C, 0x6C] .null
  | yes : Spells [0x74, 0x72, 0x75, 0x65] .other
  | no : Spells [0x66, 0x61, 0x6C, 0x73, 0x65] .other
  | number (n : Numeral) : Spells n.bytes n.tree
  | negative (n : Numeral) : Spells (0x2D :: n.bytes) .other
  | string {literal : Bytes} (h : Literal literal) :
      Spells (0x22 :: (literal ++ [0x22])) (stringTree literal)
  | emptyList {blanks : Bytes} (h : Blanks blanks) : Spells (0x5B :: (blanks ++ [0x5D])) (.list [])
  | list {items : List (Bytes × Tree)} (hne : items ≠ []) (h : ∀ i ∈ items, Spells i.1 i.2) :
      Spells (0x5B :: ([0x2C].intercalate (items.map Prod.fst) ++ [0x5D]))
        (.list (items.map Prod.snd))
  | emptyObject {blanks : Bytes} (h : Blanks blanks) :
      Spells (0x7B :: (blanks ++ [0x7D])) (.table [])
  | object {members : List Member} (hne : members ≠ [])
      (h : ∀ m ∈ members, Spells m.value m.tree) :
      Spells (0x7B :: ([0x2C].intercalate (members.map Member.bytes) ++ [0x7D]))
        (.table (members.map Member.entry))

/-! ## Blanks -/

theorem Blanks.append {as bs : Bytes} (ha : Blanks as) (hb : Blanks bs) : Blanks (as ++ bs) :=
  fun b h => (List.mem_append.1 h).elim (ha b) (hb b)

theorem blanks_nil : Blanks [] := fun _ h => by cases h

theorem skipBlanks_cons {b : UInt8} (hb : isBlank b = false) (bs : Bytes) :
    skipBlanks (b :: bs) = b :: bs :=
  List.dropWhile_cons_of_neg (by rw [hb]; decide)

theorem Blanks.skipBlanks_append {before : Bytes} (h : Blanks before) (bs : Bytes) :
    skipBlanks (before ++ bs) = skipBlanks bs :=
  List.dropWhile_append_of_pos h

theorem exists_eq_append_skipBlanks (bs : Bytes) :
    ∃ before, Blanks before ∧ bs = before ++ skipBlanks bs :=
  ⟨bs.takeWhile isBlank, fun _ => List.mem_takeWhile_imp,
    List.takeWhile_append_dropWhile.symm⟩

theorem isBlank_of_skipBlanks_eq_cons {bs rest : Bytes} {b : UInt8}
    (h : skipBlanks bs = b :: rest) : isBlank b = false := by
  have hb := List.head?_dropWhile_not isBlank bs
  rw [show bs.dropWhile isBlank = b :: rest from h] at hb
  exact hb

theorem skipBlanks_skipBlanks (bs : Bytes) : skipBlanks (skipBlanks bs) = skipBlanks bs := by
  cases h : skipBlanks bs with
  | nil => rfl
  | cons b rest => exact skipBlanks_cons (isBlank_of_skipBlanks_eq_cons h) rest

theorem blanks_of_skipBlanks_eq_nil {bs : Bytes} (h : skipBlanks bs = []) : Blanks bs :=
  List.dropWhile_eq_nil_iff.1 h

/-- What is behind the first byte that is not blank is kept. -/
theorem length_lt_length_skipBlanks {mark : UInt8} (hmark : isBlank mark = false)
    (bs tail : Bytes) : tail.length < (skipBlanks (bs ++ mark :: tail)).length := by
  induction bs with
  | nil =>
    rw [List.nil_append, skipBlanks_cons hmark]
    exact Nat.lt_succ_self _
  | cons b bs ih =>
    cases hb : isBlank b with
    | true =>
      have hskip : skipBlanks (b :: bs ++ mark :: tail) = skipBlanks (bs ++ mark :: tail) :=
        List.dropWhile_cons_of_pos hb
      rw [hskip]
      exact ih
    | false =>
      rw [List.cons_append, skipBlanks_cons hb, List.length_cons, List.length_append,
        List.length_cons]
      omega

/-- Whether a value may end in front of a byte string: at its end, or where a blank, a comma or a
closing bracket follows. -/
def Ends (rest : Bytes) : Prop :=
  ∀ b ∈ rest.head?, isBlank b = true ∨ b = 0x2C ∨ b = 0x5D ∨ b = 0x7D

theorem ends_nil : Ends [] := fun _ h => by cases h

theorem ends_cons {b : UInt8} (hb : b = 0x2C ∨ b = 0x5D ∨ b = 0x7D) (bs : Bytes) :
    Ends (b :: bs) := by
  intro c hc
  cases hc
  exact .inr hb

theorem Blanks.ends_append {after rest : Bytes} (h : Blanks after) (hrest : Ends rest) :
    Ends (after ++ rest) := by
  cases after with
  | nil => exact hrest
  | cons b bs =>
    intro c hc
    cases hc
    exact .inl (h b List.mem_cons_self)

/-! ## Strings -/

/-- A string ends at its closing quotation mark. -/
theorem Literal.cut? {literal : Bytes} (h : Literal literal) (rest : Bytes) :
    Json.cut? (literal ++ 0x22 :: rest) = some (literal, rest) := by
  have hslash : ¬ (0x5C : UInt8) = 0x22 := by decide
  induction h with
  | nil =>
    rw [List.nil_append, Json.cut?.eq_def]
    exact if_pos rfl
  | plain hquote hslash hcontrol h ih =>
    rw [List.cons_append, Json.cut?.eq_def]
    simp only [hquote, hslash, hcontrol, if_false, ih, Option.map_some]
  | @letter e bs hletter h ih =>
    have hunit : e ≠ 0x75 := by
      rintro rfl
      cases hletter
    rw [List.cons_append, List.cons_append, Json.cut?.eq_def]
    simp only [hslash, hunit, hletter, if_false, if_true, ih, Option.map_some]
  | unit hunit h ih =>
    simp only [List.cons_append]
    rw [Json.cut?.eq_def]
    simp only [hslash, hunit, if_false, if_true, ih, Option.map_some]

theorem literal_of_cut? {bs literal rest : Bytes} (h : cut? bs = some (literal, rest)) :
    Literal literal ∧ bs = literal ++ 0x22 :: rest := by
  fun_induction cut? bs generalizing literal rest with
  | case2 =>
    cases h
    exact ⟨.nil, rfl⟩
  | case4 _ _ _ _ bs hunit _ ih =>
    obtain ⟨⟨front, behind⟩, hcut, hp⟩ := Option.map_eq_some_iff.1 h
    cases hp
    obtain ⟨hfront, rfl⟩ := ih hcut
    exact ⟨.unit hunit hfront, rfl⟩
  | case7 e bs _ hletter _ ih =>
    obtain ⟨⟨front, behind⟩, hcut, hp⟩ := Option.map_eq_some_iff.1 h
    cases hp
    obtain ⟨hfront, rfl⟩ := ih hcut
    exact ⟨.letter hletter hfront, rfl⟩
  | case10 b bs hquote hslash hcontrol ih =>
    obtain ⟨⟨front, behind⟩, hcut, hp⟩ := Option.map_eq_some_iff.1 h
    cases hp
    obtain ⟨hfront, rfl⟩ := ih hcut
    exact ⟨.plain hquote hslash hcontrol hfront, rfl⟩
  | _ => cases h

theorem readString?_eq (bs : Bytes) :
    readString? bs = (cut? bs).map fun (literal, rest) => (stringTree literal, rest) := by
  unfold readString?
  congr 1
  funext ⟨literal, rest⟩
  dsimp only [stringTree]
  cases unquote? literal <;> rfl

theorem Literal.readString? {literal : Bytes} (h : Literal literal) (rest : Bytes) :
    Json.readString? (literal ++ 0x22 :: rest) = some (stringTree literal, rest) := by
  rw [readString?_eq, h.cut?]
  rfl

theorem literal_of_readString? {bs rest : Bytes} {t : Tree} (h : readString? bs = some (t, rest)) :
    ∃ literal, Literal literal ∧ bs = literal ++ 0x22 :: rest ∧ t = stringTree literal := by
  rw [readString?_eq] at h
  obtain ⟨⟨literal, behind⟩, hcut, hp⟩ := Option.map_eq_some_iff.1 h
  cases hp
  obtain ⟨hliteral, hbs⟩ := literal_of_cut? hcut
  exact ⟨literal, hliteral, hbs, rfl⟩

/-! ## Numbers -/

theorem readDigits?_append {ds rest : Bytes} (h : IsDigits ds)
    (hrest : ∀ b ∈ rest.head?, isDigit b = false) : readDigits? (ds ++ rest) = some (ds, rest) := by
  have htake : rest.takeWhile isDigit = [] ∧ rest.dropWhile isDigit = rest := by
    cases rest with
    | nil => exact ⟨rfl, rfl⟩
    | cons b bs =>
      have hb : ¬ isDigit b = true := by rw [hrest b rfl]; decide
      exact ⟨List.takeWhile_cons_of_neg hb, List.dropWhile_cons_of_neg hb⟩
  unfold readDigits?
  rw [List.takeWhile_append_of_pos h.2, List.dropWhile_append_of_pos h.2, htake.1, htake.2,
    List.append_nil]
  exact if_neg fun hnil => h.1 (List.isEmpty_iff.1 hnil)

theorem isDigits_of_readDigits? {bs ds rest : Bytes} (h : readDigits? bs = some (ds, rest)) :
    IsDigits ds ∧ bs = ds ++ rest := by
  unfold readDigits? at h
  dsimp only at h
  split at h
  · cases h
  · rename_i hne
    cases h
    exact ⟨⟨fun hnil => hne (List.isEmpty_iff.2 hnil), fun _ => List.mem_takeWhile_imp⟩,
      List.takeWhile_append_dropWhile.symm⟩

theorem Ends.not_isDigit {b : UInt8} {bs : Bytes} (h : Ends (b :: bs)) :
    isDigit b = false ∧ b ≠ 0x2E ∧ b ≠ 0x65 ∧ b ≠ 0x45 := by
  rcases h b rfl with hb | rfl | rfl | rfl
  · simp only [isBlank, Bool.or_eq_true, beq_iff_eq] at hb
    rcases hb with ((rfl | rfl) | rfl) | rfl <;> decide
  · decide
  · decide
  · decide

/-- What follows the fraction of a number is neither a digit nor a point. -/
theorem Exponent.head?_append {exponent rest : Bytes} (h : Exponent exponent) (hrest : Ends rest) :
    ∀ b ∈ (exponent ++ rest).head?, isDigit b = false ∧ b ≠ 0x2E := by
  intro b hb
  cases h with
  | none =>
    cases rest with
    | nil => cases hb
    | cons c bs =>
      cases hb
      exact ⟨hrest.not_isDigit.1, hrest.not_isDigit.2.1⟩
  | power he =>
    cases hb
    rcases he with rfl | rfl <;> decide

theorem Exponent.skipExponent? {exponent rest : Bytes} (h : Exponent exponent)
    (hrest : Ends rest) : Json.skipExponent? (exponent ++ rest) = some (!exponent.isEmpty, rest) := by
  cases h with
  | none =>
    cases rest with
    | nil => rfl
    | cons b bs =>
      obtain ⟨-, -, hlower, hupper⟩ := hrest.not_isDigit
      exact if_neg (not_or.2 ⟨hlower, hupper⟩)
  | @power e sign ds he hsign h =>
    have hdigits : readDigits? (ds ++ rest) = some (ds, rest) :=
      readDigits?_append h fun b hb => (none.head?_append hrest b hb).1
    rw [List.cons_append, List.append_assoc]
    unfold Json.skipExponent?
    simp only [he, if_true]
    rcases hsign with rfl | rfl | rfl
    · obtain ⟨d, more, rfl⟩ := List.exists_cons_of_ne_nil h.1
      have hd : ¬ (d = 0x2B ∨ d = 0x2D) := by
        have hdigit := h.2 d List.mem_cons_self
        rintro (rfl | rfl) <;> cases hdigit
      rw [List.cons_append] at hdigits
      simp only [List.nil_append, List.cons_append, hd, if_false, hdigits]
      rfl
    · simp only [List.cons_append, List.nil_append, true_or, if_true, hdigits]
      rfl
    · simp only [List.cons_append, List.nil_append, or_true, if_true, hdigits]
      rfl

theorem exponent_of_skipExponent? {bs rest : Bytes} {found : Bool}
    (h : skipExponent? bs = some (found, rest)) :
    ∃ exponent, Exponent exponent ∧ bs = exponent ++ rest ∧ found = !exponent.isEmpty := by
  cases bs with
  | nil =>
    cases h
    exact ⟨[], .none, rfl, rfl⟩
  | cons e bs =>
    by_cases he : e = 0x65 ∨ e = 0x45
    · simp only [skipExponent?.eq_def, he, if_true] at h
      obtain ⟨⟨ds, behind⟩, hdigits, hp⟩ := Option.map_eq_some_iff.1 h
      cases hp
      cases bs with
      | nil => cases hdigits
      | cons s bs =>
        by_cases hs : s = 0x2B ∨ s = 0x2D
        · simp only [hs, if_true] at hdigits
          obtain ⟨hds, rfl⟩ := isDigits_of_readDigits? hdigits
          exact ⟨e :: ([s] ++ ds), .power he (.inr (by simpa using hs)) hds, rfl, rfl⟩
        · simp only [hs, if_false] at hdigits
          obtain ⟨hds, hbs⟩ := isDigits_of_readDigits? hdigits
          exact ⟨e :: ([] ++ ds), .power he (.inl rfl) hds, by rw [hbs]; rfl, rfl⟩
    · simp only [skipExponent?.eq_def, he, if_false] at h
      cases h
      exact ⟨[], .none, rfl, rfl⟩

theorem Fraction.head?_append {fraction rest : Bytes} (h : Fraction fraction)
    (hrest : ∀ b ∈ rest.head?, isDigit b = false) :
    ∀ b ∈ (fraction ++ rest).head?, isDigit b = false := by
  cases h with
  | none => exact hrest
  | point =>
    intro b hb
    cases hb
    decide

theorem Fraction.skipFraction? {fraction rest : Bytes} (h : Fraction fraction)
    (hrest : ∀ b ∈ rest.head?, isDigit b = false ∧ b ≠ 0x2E) :
    Json.skipFraction? (fraction ++ rest) = some (!fraction.isEmpty, rest) := by
  cases h with
  | none =>
    cases rest with
    | nil => rfl
    | cons b bs => exact if_neg (hrest b rfl).2
  | point h =>
    have hdigits := readDigits?_append h fun b hb => (hrest b hb).1
    rw [List.cons_append, Json.skipFraction?, if_pos rfl, hdigits]
    rfl

theorem fraction_of_skipFraction? {bs rest : Bytes} {found : Bool}
    (h : skipFraction? bs = some (found, rest)) :
    ∃ fraction, Fraction fraction ∧ bs = fraction ++ rest ∧ found = !fraction.isEmpty := by
  cases bs with
  | nil =>
    cases h
    exact ⟨[], .none, rfl, rfl⟩
  | cons b bs =>
    by_cases hb : b = 0x2E
    · rw [skipFraction?, if_pos hb] at h
      obtain ⟨⟨ds, behind⟩, hdigits, hp⟩ := Option.map_eq_some_iff.1 h
      cases hp
      obtain ⟨hds, rfl⟩ := isDigits_of_readDigits? hdigits
      exact ⟨0x2E :: ds, .point hds, by rw [hb]; rfl, rfl⟩
    · rw [skipFraction?, if_neg hb] at h
      cases h
      exact ⟨[], .none, rfl, rfl⟩

theorem Numeral.tree_eq (n : Numeral) :
    n.tree = if !n.fraction.isEmpty || !n.exponent.isEmpty then .other
      else .number (ofDigits n.whole) false := by
  unfold tree
  cases n.fraction <;> cases n.exponent <;> rfl

/-- A number without its sign is read to its end. -/
theorem Numeral.readUnsigned? (n : Numeral) {rest : Bytes} (hrest : Ends rest) :
    Json.readUnsigned? (n.bytes ++ rest) = some (n.tree, rest) := by
  have hbehind := n.isExponent.head?_append hrest
  have hdigits : readDigits? (n.whole ++ (n.fraction ++ (n.exponent ++ rest))) =
      some (n.whole, n.fraction ++ (n.exponent ++ rest)) :=
    readDigits?_append n.isDigits_whole
      (n.isFraction.head?_append fun b hb => (hbehind b hb).1)
  have hwhole : (if n.whole.head? = some 0x30 then
      ([0x30], n.whole.drop 1 ++ (n.fraction ++ (n.exponent ++ rest)))
      else (n.whole, n.fraction ++ (n.exponent ++ rest))) =
      (n.whole, n.fraction ++ (n.exponent ++ rest)) := by
    by_cases hzero : n.whole.head? = some 0x30
    · rw [if_pos hzero, n.eq_zero hzero]
      rfl
    · exact if_neg hzero
  unfold Json.readUnsigned? Numeral.bytes
  rw [List.append_assoc, List.append_assoc, hdigits, n.tree_eq]
  simp only [bind, Option.bind, hwhole, n.isFraction.skipFraction? hbehind,
    n.isExponent.skipExponent? hrest]

/-- Of digits that begin with a zero, the reader takes no more than the zero. -/
theorem exists_whole {ds : Bytes} (h : IsDigits ds) (behind : Bytes) :
    ∃ whole rest, (if ds.head? = some 0x30 then ([0x30], ds.drop 1 ++ behind)
        else (ds, behind)) = (whole, rest) ∧
      IsDigits whole ∧ (whole.head? = some 0x30 → whole = [0x30]) ∧
      ds ++ behind = whole ++ rest := by
  by_cases hzero : ds.head? = some 0x30
  · obtain ⟨more, rfl⟩ := List.head?_eq_some_iff.1 hzero
    exact ⟨[0x30], more ++ behind, if_pos hzero, ⟨by decide, List.forall_mem_singleton.2 rfl⟩,
      fun _ => rfl, rfl⟩
  · exact ⟨ds, behind, if_neg hzero, h, fun hz => absurd hz hzero, rfl⟩

theorem numeral_of_readUnsigned? {bs rest : Bytes} {t : Tree}
    (h : readUnsigned? bs = some (t, rest)) : ∃ n : Numeral, bs = n.bytes ++ rest ∧ t = n.tree := by
  simp only [readUnsigned?, bind, Option.bind_eq_some_iff] at h
  obtain ⟨⟨ds, behind⟩, hdigits, h⟩ := h
  obtain ⟨hds, rfl⟩ := isDigits_of_readDigits? hdigits
  obtain ⟨whole, behind, hsplit, hwhole, hzero, hbs⟩ := exists_whole hds behind
  simp only [hsplit] at h
  obtain ⟨⟨foundFraction, behind⟩, hfraction, ⟨foundExponent, behind⟩, hexponent, hp⟩ := h
  obtain ⟨fraction, hf, rfl, rfl⟩ := fraction_of_skipFraction? hfraction
  obtain ⟨exponent, he, rfl, rfl⟩ := exponent_of_skipExponent? hexponent
  cases hp
  refine ⟨⟨whole, fraction, exponent, hwhole, hzero, hf, he⟩, ?_, ?_⟩
  · rw [hbs]
    simp only [Numeral.bytes, List.append_assoc]
  · rw [Numeral.tree_eq]

end GameWire.Json
