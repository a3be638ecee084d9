import GameWire.Toml.Number
import Mathlib.Data.List.Basic

/-!
# TOML numbers read back

Before a number is read as a whole one, it is tried as a date, a time and a fraction.  The decimal
digits that are written begin none of these, as long as a line break, a comma or a closing bracket
stands behind them.
-/

namespace GameWire.Toml

/-- Whether a value is over where the text goes on. -/
def Ends (rest : List Char) : Prop :=
  ∃ c more, rest = c :: more ∧ (c = '\n' ∨ c = ',' ∨ c = ']')

theorem Ends.head?_ne {rest : List Char} (h : Ends rest) {c : Char}
    (hc : c ≠ '\n' ∧ c ≠ ',' ∧ c ≠ ']') : rest.head? ≠ some c := by
  obtain ⟨d, more, rfl, hd⟩ := h
  rintro ⟨⟩
  rcases hd with rfl | rfl | rfl
  · exact hc.1 rfl
  · exact hc.2.1 rfl
  · exact hc.2.2 rfl

/-! ## Digits -/

def digitOf (c : Char) : Nat := c.toNat - '0'.toNat

theorem digit?_of_isDigit {c : Char} (hc : c.isDigit = true) :
    digit? 10 c = some (digitOf c) := by
  have hbounds : 0x30 ≤ c.toNat ∧ c.toNat ≤ 0x39 := by
    simpa [Char.isDigit, UInt32.le_iff_toNat_le] using hc
  have hten : c.toNat - 0x30 < 10 := by omega
  have hhex : hexValue? c = some (c.toNat - 0x30) := if_pos hbounds
  unfold digit?
  rw [hhex]
  exact Option.filter_some_pos (decide_eq_true hten)

/-- The decimal digits of a number: without leading zeros. -/
structure Decimal (ds : List Char) : Prop where
  isDigit : ∀ c ∈ ds, c.isDigit = true
  ne_nil : ds ≠ []
  eq_zero : ds.head? = some '0' → ds = ['0']

theorem toDigits_ne_nil (n : Nat) : Nat.toDigits 10 n ≠ [] := by
  rw [Nat.toDigits_eq_if (by decide)]
  split <;> simp

theorem eq_zero_of_head?_toDigits (n : Nat) (h : (Nat.toDigits 10 n).head? = some '0') :
    n = 0 := by
  induction n using Nat.strongRecOn with
  | ind n ih =>
    rw [Nat.toDigits_eq_if (by decide)] at h
    split at h
    · rename_i hn
      have hdigit : ∀ n < 10, n.digitChar = '0' → n = 0 := by decide
      exact hdigit n hn (Option.some.inj h)
    · rename_i hn
      rw [List.head?_append_of_ne_nil _ (toDigits_ne_nil _)] at h
      have htenth := ih (n / 10) (by omega) h
      omega

theorem decimal_toDigits (n : Nat) : Decimal (Nat.toDigits 10 n) where
  isDigit c hc := Nat.isDigit_of_mem_toDigits (by decide) (by decide) hc
  ne_nil := toDigits_ne_nil n
  eq_zero h := by rw [eq_zero_of_head?_toDigits n h]; rfl

theorem ofDigits_toDigits (n : Nat) : ofDigits 10 ((Nat.toDigits 10 n).map digitOf) = n := by
  have hdigits := Nat.ofDigitChars_ten_toDigits (n := n)
  unfold Nat.ofDigitChars at hdigits
  unfold ofDigits
  simp only [List.foldl_map, digitOf, Nat.mul_comm _ 10]
  exact hdigits

section Read

variable {ds rest : List Char}

theorem digits_append (hds : ∀ c ∈ ds, c.isDigit = true) (hrest : Ends rest) :
    digits 10 (ds ++ rest) = (ds.map digitOf, rest) := by
  induction ds with
  | nil =>
    obtain ⟨c, more, rfl, hc⟩ := hrest
    rw [List.nil_append, digits]
    · rcases hc with rfl | rfl | rfl <;> rfl
    · rintro _ _ rfl
      exact absurd hc (by decide)
  | cons d ds ih =>
    obtain ⟨hd, hds⟩ := List.forall_mem_cons.mp hds
    rw [List.cons_append, digits, digit?_of_isDigit hd, ih hds]
    · rfl
    · rintro _ _ rfl
      exact absurd hd (by decide)

theorem Decimal.digits? (h : Decimal ds) (hrest : Ends rest) :
    Toml.digits? 10 (ds ++ rest) = some (ds.map digitOf, rest) := by
  obtain ⟨d, ds, rfl⟩ := List.exists_cons_of_ne_nil h.ne_nil
  have hd : d ≠ '_' := by
    rintro rfl
    exact absurd (h.isDigit _ List.mem_cons_self) (by decide)
  unfold Toml.digits?
  split
  · rename_i heq
    exact absurd (List.cons.inj heq).1 hd
  · rw [digits_append h.isDigit hrest]
    rfl

def signed (negative : Bool) (cs : List Char) : List Char := if negative then '-' :: cs else cs

theorem Decimal.sign (h : Decimal ds) (negative : Bool) (rest : List Char) :
    Toml.sign (signed negative (ds ++ rest)) = (negative, ds ++ rest) := by
  cases negative with
  | true => rfl
  | false =>
    obtain ⟨d, ds, rfl⟩ := List.exists_cons_of_ne_nil h.ne_nil
    have hd := h.isDigit d List.mem_cons_self
    show Toml.sign (d :: (ds ++ rest)) = _
    unfold Toml.sign
    split
    · rename_i heq
      obtain rfl := (List.cons.inj heq).1
      exact absurd hd (by decide)
    · rename_i heq
      obtain rfl := (List.cons.inj heq).1
      exact absurd hd (by decide)
    · rfl

theorem Decimal.decimal? (h : Decimal ds) (negative : Bool) (hrest : Ends rest) :
    Toml.decimal? (signed negative (ds ++ rest)) = some ((negative, ds.map digitOf), rest) := by
  unfold Toml.decimal?
  rw [h.sign]
  dsimp only
  split
  · rename_i cs heq
    have hzero : ds = ['0'] := by
      apply h.eq_zero
      rw [← List.head?_append_of_ne_nil ds h.ne_nil, heq]
      rfl
    subst hzero
    obtain rfl : rest = cs := (List.cons.inj heq).2
    rfl
  · rw [h.digits? hrest]
    rfl

/-! ## Not a date, a time or a fraction -/

/-- Behind any number of digits comes another digit or the end. -/
theorem head?_drop_of_digits (hds : ∀ c ∈ ds, c.isDigit = true) (hrest : Ends rest) {count : Nat}
    (hcount : ∀ c ∈ (ds ++ rest).take count, (digit? 10 c).isSome = true) {c : Char}
    (hc : ((ds ++ rest).drop count).head? = some c) :
    c.isDigit = true ∨ c = '\n' ∨ c = ',' ∨ c = ']' := by
  induction ds generalizing count with
  | nil =>
    obtain ⟨d, more, rfl, hd⟩ := hrest
    cases count with
    | zero =>
      obtain rfl : d = c := Option.some.inj hc
      exact .inr hd
    | succ count =>
      have hdigit := hcount d List.mem_cons_self
      rcases hd with rfl | rfl | rfl <;> exact absurd hdigit (by decide)
  | cons d ds ih =>
    obtain ⟨hd, hds⟩ := List.forall_mem_cons.mp hds
    cases count with
    | zero =>
      obtain rfl : d = c := Option.some.inj hc
      exact .inl hd
    | succ count => exact ih hds (fun c hc => hcount c (List.mem_cons_of_mem d hc)) hc

theorem isSome_mapM_iff {α β : Type} {f : α → Option β} {xs : List α} :
    (xs.mapM f).isSome = true ↔ ∀ x ∈ xs, (f x).isSome = true := by
  induction xs with
  | nil => simp
  | cons x xs ih =>
    rw [List.mapM_cons, List.forall_mem_cons, ← ih]
    cases f x with
    | none => simp
    | some y => cases xs.mapM f <;> simp

theorem isPrefixOf?_of_head? {c : Char} {cs word : List Char} (h : cs.head? ≠ some c) :
    (c :: word).isPrefixOf? cs = none := by
  cases cs with
  | nil => rfl
  | cons d cs => exact if_neg fun hd => h (congrArg some (beq_iff_eq.mp hd).symm)

/-- No part of a date or a time stands in front of its separator. -/
theorem Decimal.fixedNumber?_cases (h : Decimal ds) (negative : Bool) (hrest : Ends rest)
    (count low high : Nat) (hcount : 0 < count) {separator : Char}
    (hseparator : separator = '-' ∨ separator = ':') :
    fixedNumber? count low high (signed negative (ds ++ rest)) = none ∨
      ∃ n left, fixedNumber? count low high (signed negative (ds ++ rest)) = some (n, left) ∧
        [separator].isPrefixOf? left = none := by
  cases hnumber : fixedNumber? count low high (signed negative (ds ++ rest)) with
  | none => exact .inl rfl
  | some pair =>
    obtain ⟨n, left⟩ := pair
    refine .inr ⟨n, left, rfl, isPrefixOf?_of_head? fun hhead => ?_⟩
    unfold fixedNumber? at hnumber
    obtain ⟨values, hvalues, hleft⟩ := Option.bind_eq_some_iff.mp hnumber
    have hdigits := isSome_mapM_iff.mp (Option.isSome_of_eq_some hvalues)
    extract_lets n at hleft
    split at hleft
    · obtain ⟨-, rfl⟩ := Prod.mk.inj (Option.some.inj hleft)
      cases negative with
      | true =>
        obtain ⟨count, rfl⟩ := Nat.exists_eq_succ_of_ne_zero (Nat.ne_of_gt hcount)
        exact absurd (hdigits '-' List.mem_cons_self) (by decide)
      | false =>
        have hc := head?_drop_of_digits h.isDigit hrest hdigits hhead
        rcases hseparator with rfl | rfl <;> exact absurd hc (by decide)
    · exact nomatch hleft

theorem Decimal.moment? (h : Decimal ds) (negative : Bool) (hrest : Ends rest) :
    Toml.moment? (signed negative (ds ++ rest)) = none := by
  have hdate : date? (signed negative (ds ++ rest)) = none := by
    unfold date?
    rcases h.fixedNumber?_cases negative hrest 4 0 9999 (by decide) (.inl rfl) with
      hnone | ⟨n, left, hsome, hleft⟩
    · rw [hnone]
      rfl
    · rw [hsome]
      show (['-'].isPrefixOf? left).bind _ = none
      rw [hleft]
      rfl
  have htime : time? (signed negative (ds ++ rest)) = none := by
    unfold time?
    rcases h.fixedNumber?_cases negative hrest 2 0 23 (by decide) (.inr rfl) with
      hnone | ⟨n, left, hsome, hleft⟩
    · rw [hnone]
      rfl
    · rw [hsome]
      show ([':'].isPrefixOf? left).bind _ = none
      rw [hleft]
      rfl
  unfold Toml.moment?
  rw [hdate, htime]
  rfl

theorem Decimal.float? (h : Decimal ds) (negative : Bool) (hrest : Ends rest) :
    Toml.float? (signed negative (ds ++ rest)) = none := by
  have hword (w : Char) (word : List Char) (hw : w.isDigit = false) :
      (w :: word).isPrefixOf? (ds ++ rest) = none := by
    obtain ⟨d, ds, rfl⟩ := List.exists_cons_of_ne_nil h.ne_nil
    refine isPrefixOf?_of_head? fun hd => ?_
    obtain rfl := Option.some.inj hd
    exact absurd (h.isDigit d List.mem_cons_self) (by rw [hw]; decide)
  have hfraction : fraction? rest = none := by
    obtain ⟨c, more, rfl, hc⟩ := hrest
    rcases hc with rfl | rfl | rfl <;> rfl
  have hexponent : exponent? rest = none := by
    obtain ⟨c, more, rfl, hc⟩ := hrest
    rcases hc with rfl | rfl | rfl <;> rfl
  unfold Toml.float?
  rw [h.sign, h.decimal? negative hrest]
  simp only [hword 'i' _ rfl, hword 'n' _ rfl, Option.or_none, Option.bind_eq_bind,
    Option.bind_some, hfraction, hexponent, Option.getD_none, ↓reduceIte]

end Read

/-! ## Whole numbers -/

theorem Decimal.integer? {ds rest : List Char} (h : Decimal ds) (negative : Bool)
    (hrest : Ends rest) {n : Int}
    (hn : n = if negative then -(ofDigits 10 (ds.map digitOf) : Int)
      else ofDigits 10 (ds.map digitOf)) (hrange : isInRange n = true) :
    Toml.integer? (signed negative (ds ++ rest)) = some (.integer n, rest) := by
  have hbase : ∀ c more, signed negative (ds ++ rest) = '0' :: c :: more →
      c ≠ 'x' ∧ c ≠ 'o' ∧ c ≠ 'b' := by
    intro c more heq
    cases negative with
    | true => exact absurd (List.cons.inj heq).1 (by decide)
    | false =>
      have hzero : ds = ['0'] := by
        apply h.eq_zero
        rw [← List.head?_append_of_ne_nil ds h.ne_nil]
        exact congrArg List.head? heq
      subst hzero
      have hc : rest.head? = some c := congrArg List.head? (List.cons.inj heq).2
      refine ⟨?_, ?_, ?_⟩ <;> rintro rfl <;> exact hrest.head?_ne (by decide) hc
  unfold Toml.integer?
  split
  rotate_left 3
  · rw [h.decimal? negative hrest]
    show (if isInRange _ = true then _ else _) = _
    rw [← hn, if_pos hrange]
  all_goals
    rename_i heq
    obtain ⟨hx, ho, hb⟩ := hbase _ _ heq
    contradiction

theorem toList_toString (n : Int) :
    (toString n).toList = signed (n < 0) (Nat.toDigits 10 n.natAbs) := by
  cases n with
  | ofNat n => exact Nat.toList_repr
  | negSucc n =>
    have hnegative : decide (Int.negSucc n < 0) = true := decide_eq_true (Int.negSucc_lt_zero n)
    show ("-" ++ (n + 1).repr).toList = _
    rw [String.toList_append, Nat.toList_repr, hnegative]
    rfl

theorem signed_append (negative : Bool) (cs rest : List Char) :
    signed negative cs ++ rest = signed negative (cs ++ rest) := by
  cases negative <;> rfl

/-- A whole number is read back from its digits. -/
theorem number?_toString {n : Int} (hn : isInRange n = true) {rest : List Char}
    (hrest : Ends rest) : number? ((toString n).toList ++ rest) = some (.integer n, rest) := by
  have hdecimal := decimal_toDigits n.natAbs
  have hvalue : n = if decide (n < 0) = true
      then -(ofDigits 10 ((Nat.toDigits 10 n.natAbs).map digitOf) : Int)
      else ofDigits 10 ((Nat.toDigits 10 n.natAbs).map digitOf) := by
    rw [ofDigits_toDigits]
    split
    · rename_i hneg
      have := of_decide_eq_true hneg
      omega
    · rename_i hneg
      have := of_decide_eq_false (Bool.eq_false_iff.mpr hneg)
      omega
  rw [toList_toString, signed_append]
  unfold number?
  rw [hdecimal.moment? _ hrest, hdecimal.float? _ hrest, hdecimal.integer? _ hrest hvalue hn]
  rfl

end GameWire.Toml
