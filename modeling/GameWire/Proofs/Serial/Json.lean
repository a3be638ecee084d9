import GameWire.Proofs.Serial.Json.Reading
import GameWire.Proofs.Serial.Outline
import GameWire.Proofs.Text.Utf8

/-!
# JSON reads back

What is written for an outline is a text of the grammar, and it spells the value that the outline
stands for. So it is read back as that value.
-/

namespace GameWire.Json

/-! ## Strings -/

theorem hexValue?_hexDigit (n : Nat) : hexValue? (hexDigit n) = some (n % 16) := by
  have h : ∀ d < 16, hexValue? (UInt8.ofNat (if d < 10 then 0x30 + d else 0x57 + d)) = some d := by
    decide
  exact h (n % 16) (Nat.mod_lt n (by decide))

/-- What a byte may be written as between quotation marks: itself, a letter behind a backslash, or
four hexadecimal digits. -/
inductive Escaped (b : UInt8) : Bytes → Prop
  | plain (hquote : b ≠ 0x22) (hslash : b ≠ 0x5C) (hcontrol : ¬ b < 0x20) : Escaped b [b]
  | letter {e : UInt8} (hunit : e ≠ 0x75) (hletter : unescapeLetter? e = some b) :
      Escaped b [0x5C, e]
  | unit {h₁ h₂ h₃ h₄ : UInt8} (hunit : hexUnit? h₁ h₂ h₃ h₄ = some b.toNat)
      (hcontrol : b.toNat < 0x20) : Escaped b [0x5C, 0x75, h₁, h₂, h₃, h₄]

theorem unescapeLetter?_of_shortEscape? {b e : UInt8} (h : shortEscape? b = some e) :
    e ≠ 0x75 ∧ unescapeLetter? e = some b := by
  unfold shortEscape? at h
  split at h
  · rename_i hb; cases h; subst hb; decide
  split at h
  · rename_i hb; cases h; subst hb; decide
  split at h
  · rename_i hb; cases h; subst hb; decide
  split at h
  · rename_i hb; cases h; subst hb; decide
  split at h
  · rename_i hb; cases h; subst hb; decide
  · cases h

theorem escaped_escape (b : UInt8) : Escaped b (escape b) := by
  unfold escape
  by_cases hmark : b = 0x22 ∨ b = 0x5C
  · rw [if_pos hmark]
    rcases hmark with rfl | rfl
    · exact .letter (by decide) rfl
    · exact .letter (by decide) rfl
  · rw [if_neg hmark]
    by_cases hcontrol : b < 0x20
    · rw [if_pos hcontrol]
      have hn : b.toNat < 0x20 := UInt8.lt_iff_toNat_lt.1 hcontrol
      cases hs : shortEscape? b with
      | some e =>
        obtain ⟨hunit, hletter⟩ := unescapeLetter?_of_shortEscape? hs
        exact .letter hunit hletter
      | none =>
        have hzero : hexValue? 0x30 = some 0 := rfl
        refine .unit ?_ hn
        unfold hexUnit?
        rw [hzero, hexValue?_hexDigit, hexValue?_hexDigit]
        show some (((0 * 16 + 0) * 16 + b.toNat / 16 % 16) * 16 + b.toNat % 16) = some b.toNat
        congr 1
        omega
    · rw [if_neg hcontrol]
      exact .plain (fun h => hmark (.inl h)) (fun h => hmark (.inr h)) hcontrol

/-- A byte that is escaped does not close the string. -/
theorem Escaped.literal_append {b : UInt8} {out bs : Bytes} (h : Escaped b out) (hbs : Literal bs) :
    Literal (out ++ bs) := by
  cases h with
  | plain hquote hslash hcontrol => exact .plain hquote hslash hcontrol hbs
  | letter _ hletter => exact .letter (by rw [hletter]; rfl) hbs
  | unit hunit => exact .unit (by rw [hunit]; rfl) hbs

theorem scalarBytes_of_lt {n : Nat} (h : n < 0x20) : scalarBytes n = [UInt8.ofNat n] := by
  have hall : ∀ n < 0x20, scalarBytes n = [UInt8.ofNat n] := by decide
  exact hall n h

/-- A byte that is escaped is resolved to itself. -/
theorem Escaped.unescape? {b : UInt8} {out : Bytes} (h : Escaped b out) (bs : Bytes) :
    Json.unescape? none (out ++ bs) = (Json.unescape? none bs).map (b :: ·) := by
  rw [Json.unescape?.eq_def]
  cases h with
  | plain hquote hslash hcontrol =>
    simp only [List.cons_append, List.nil_append, hslash, if_false, Option.isSome_none,
      Bool.false_eq_true]
  | letter hunit hletter =>
    simp only [List.cons_append, List.nil_append, hunit, hletter, if_false, if_true]
  | unit hunit hcontrol =>
    have hhigh : ¬ (0xD800 ≤ b.toNat ∧ b.toNat ≤ 0xDBFF) := by omega
    have hlow : ¬ (0xDC00 ≤ b.toNat ∧ b.toNat ≤ 0xDFFF) := by omega
    simp only [List.cons_append, List.nil_append, hunit, hhigh, hlow, if_false, if_true,
      scalarBytes_of_lt hcontrol, UInt8.ofNat_toNat]

theorem literal_flatMap_escape (bs : Bytes) : Literal (bs.flatMap escape) := by
  induction bs with
  | nil => exact .nil
  | cons b bs ih =>
    rw [List.flatMap_cons]
    exact (escaped_escape b).literal_append ih

theorem unescape?_flatMap_escape (bs : Bytes) : unescape? none (bs.flatMap escape) = some bs := by
  induction bs with
  | nil => rw [List.flatMap_nil, unescape?.eq_def]
  | cons b bs ih =>
    rw [List.flatMap_cons, (escaped_escape b).unescape?, ih]
    rfl

theorem stringTree_flatMap_escape (s : String) :
    stringTree ((Utf8.encode s).flatMap escape) = .text s := by
  unfold stringTree unquote?
  rw [unescape?_flatMap_escape, Option.bind_some, Utf8.decode?_encode]
  rfl

/-! ## Numbers -/

/-- The last digit of a number stands behind those of its tenth. -/
theorem digits_eq (n : Nat) :
    digits n =
      if n < 10 then [UInt8.ofNat (48 + n)]
      else digits (n / 10) ++ [UInt8.ofNat (48 + n % 10)] := by
  have hd : ∀ d < 10, UInt8.ofNat d.digitChar.toNat = UInt8.ofNat (48 + d) := by decide
  unfold digits
  rw [Nat.toDigits_eq_if (by decide)]
  by_cases hn : n < 10
  · rw [if_pos hn, if_pos hn, List.map_singleton, hd n hn]
  · rw [if_neg hn, if_neg hn, List.map_append, List.map_singleton,
      hd (n % 10) (Nat.mod_lt n (by decide))]

/-- What holds of single digits and is kept by one more of them holds of all numbers. -/
theorem digitsInduction {P : Nat → Bytes → Prop} (one : ∀ n < 10, P n [UInt8.ofNat (48 + n)])
    (more : ∀ n, 10 ≤ n → P (n / 10) (digits (n / 10)) →
      P n (digits (n / 10) ++ [UInt8.ofNat (48 + n % 10)])) (n : Nat) : P n (digits n) := by
  induction n using Nat.strongRecOn with
  | ind n ih =>
    rw [digits_eq]
    by_cases hn : n < 10
    · rw [if_pos hn]
      exact one n hn
    · rw [if_neg hn]
      exact more n (by omega) (ih (n / 10) (by omega))

theorem isDigit_ofNat : ∀ d < 10, isDigit (UInt8.ofNat (48 + d)) = true := by decide

theorem isDigit_of_mem_digits (n : Nat) : ∀ d ∈ digits n, isDigit d = true := by
  apply digitsInduction (P := fun _ ds => ∀ d ∈ ds, isDigit d = true)
  · intro n hn d hd
    rw [List.mem_singleton.1 hd]
    exact isDigit_ofNat n hn
  · intro n _ ih d hd
    rcases List.mem_append.1 hd with hd | hd
    · exact ih d hd
    · rw [List.mem_singleton.1 hd]
      exact isDigit_ofNat (n % 10) (Nat.mod_lt n (by decide))

theorem ofDigits_digits (n : Nat) : ofDigits (digits n) = n := by
  have hd : ∀ d < 10, (UInt8.ofNat (48 + d)).toNat - 0x30 = d := by decide
  apply digitsInduction (P := fun n ds => ofDigits ds = n)
  · intro n hn
    show 0 * 10 + ((UInt8.ofNat (48 + n)).toNat - 0x30) = n
    rw [hd n hn]
    omega
  · intro n _ ih
    unfold ofDigits at ih ⊢
    rw [List.foldl_append, ih]
    show n / 10 * 10 + ((UInt8.ofNat (48 + n % 10)).toNat - 0x30) = n
    rw [hd (n % 10) (Nat.mod_lt n (by decide))]
    omega

/-- Only zero begins with a zero. -/
theorem exists_digits_eq_cons (n : Nat) :
    ∃ d ds, digits n = d :: ds ∧ (d = 0x30 → ds = []) := by
  have h : ∃ d ds, digits n = d :: ds ∧ (d = 0x30 → ds = [] ∧ n = 0) := by
    apply digitsInduction (P := fun n out => ∃ d ds, out = d :: ds ∧ (d = 0x30 → ds = [] ∧ n = 0))
    · intro n hn
      have hz : ∀ n < 10, UInt8.ofNat (48 + n) = 0x30 → n = 0 := by decide
      exact ⟨_, _, rfl, fun h => ⟨rfl, hz n hn h⟩⟩
    · intro n hn ⟨d, ds, hds, hzero⟩
      refine ⟨d, ds ++ [UInt8.ofNat (48 + n % 10)], by rw [hds]; rfl, fun h => ?_⟩
      have := (hzero h).2
      omega
  obtain ⟨d, ds, hds, hzero⟩ := h
  exact ⟨d, ds, hds, fun h => (hzero h).1⟩

def Numeral.ofNat (n : Nat) : Numeral where
  whole := digits n
  fraction := []
  exponent := []
  isDigits_whole := by
    obtain ⟨d, ds, hds, -⟩ := exists_digits_eq_cons n
    exact ⟨by rw [hds]; exact List.cons_ne_nil d ds, isDigit_of_mem_digits n⟩
  eq_zero h := by
    obtain ⟨d, ds, hds, hzero⟩ := exists_digits_eq_cons n
    rw [hds] at h ⊢
    cases h
    rw [hzero rfl]
  isFraction := .none
  isExponent := .none

theorem spells_digits (n : Nat) : Spells (digits n) (.number n false) := by
  have hbytes : (Numeral.ofNat n).bytes = digits n := List.append_nil _
  have htree : (Numeral.ofNat n).tree = .number (ofDigits (digits n)) false := rfl
  have h := Spells.number (Numeral.ofNat n)
  rwa [hbytes, htree, ofDigits_digits] at h

/-! ## Values -/

theorem writeItems_eq_intercalate {os : List Outline} (hne : os ≠ []) :
    writeItems true os = [0x2C].intercalate (os.map write) ++ [0x5D] := by
  induction os with
  | nil => exact absurd rfl hne
  | cons o os ih =>
    cases os with
    | nil => simp [writeItems]
    | cons p os =>
      rw [List.map_cons, intercalate_cons_append _ (by simp), ← ih (List.cons_ne_nil p os)]
      simp [writeItems]

theorem spells_list {os : List Outline} (h : ∀ o ∈ os, Spells (write o) (o.tree .json)) :
    Spells (write (.list os)) ((Outline.list os).tree .json) := by
  rw [write, Outline.tree, Outline.treeItems_eq_map]
  by_cases hne : os = []
  · subst hne
    exact .emptyList blanks_nil
  · have hitems : ∀ i ∈ os.map fun o => (write o, o.tree .json), Spells i.1 i.2 :=
      List.forall_mem_map.2 h
    have hlist := Spells.list (by simpa using hne) hitems
    rw [List.map_map, List.map_map] at hlist
    rw [writeItems_eq_intercalate hne]
    exact hlist

/-- The member of an object that is written for a field. -/
def fieldMember (field : String × Outline) : Member where
  before := []
  literal := (Utf8.encode field.1).flatMap escape
  after := []
  value := write field.2
  tree := field.2.tree .json
  blanks_before := blanks_nil
  isLiteral := literal_flatMap_escape _
  blanks_after := blanks_nil

theorem writeFields_eq_intercalate {fields : List (String × Outline)} (hne : fields ≠ []) :
    writeFields true fields =
      [0x2C].intercalate ((fields.map fieldMember).map Member.bytes) ++ [0x7D] := by
  induction fields with
  | nil => exact absurd rfl hne
  | cons field fields ih =>
    cases fields with
    | nil => simp [writeFields, quote, fieldMember, Member.bytes]
    | cons next fields =>
      rw [List.map_cons, List.map_cons, intercalate_cons_append _ (by simp),
        ← ih (List.cons_ne_nil next fields)]
      simp [writeFields, quote, fieldMember, Member.bytes]

/-- A tagged value is written as an object of one field. -/
theorem write_tagged (tag : String) (payload : Outline) :
    write (.tagged tag payload) = write (.record [(tag, payload)]) := by
  simp only [write, writeFields, if_true, List.nil_append, List.cons_append, List.append_assoc]

theorem entry_fieldMember (field : String × Outline) :
    (fieldMember field).entry = (.text field.1, field.2.tree .json) := by
  rw [Member.entry, fieldMember, stringTree_flatMap_escape]

theorem spells_record {fields : List (String × Outline)}
    (h : ∀ field ∈ fields, Spells (write field.2) (field.2.tree .json)) :
    Spells (write (.record fields)) ((Outline.record fields).tree .json) := by
  have hentries : Outline.treeEntries .json fields = (fields.map fieldMember).map Member.entry := by
    rw [Outline.treeEntries_eq_map, List.map_map]
    exact List.map_congr_left fun field _ => (entry_fieldMember field).symm
  rw [write, Outline.tree, if_pos (show SerialFormat.json.isNamed = true from rfl), hentries]
  by_cases hne : fields = []
  · subst hne
    exact .emptyObject blanks_nil
  · have hmembers : ∀ m ∈ fields.map fieldMember, Spells m.value m.tree :=
      List.forall_mem_map.2 h
    have hobject := Spells.object (by simpa using hne) hmembers
    rw [← writeFields_eq_intercalate hne] at hobject
    exact hobject

/-- What is written for an outline spells the value it stands for. -/
theorem spells_write (o : Outline) : Spells (write o) (o.tree .json) := by
  cases o with
  | number n => exact spells_digits n
  | text s =>
    have h := Spells.string (literal_flatMap_escape (Utf8.encode s))
    rwa [stringTree_flatMap_escape] at h
  | list items => exact spells_list fun o ho => spells_write o
  | record fields => exact spells_record fun field hf => spells_write field.2
  | tagged tag payload =>
    rw [write_tagged]
    have hpayload : ∀ field ∈ [(tag, payload)], Spells (write field.2) (field.2.tree .json) := by
      intro field hf
      rw [List.mem_singleton.1 hf]
      exact spells_write payload
    exact spells_record hpayload
termination_by o
decreasing_by
  · have := List.sizeOf_lt_of_mem ho
    simp only [Outline.list.sizeOf_spec]
    omega
  · have := List.sizeOf_lt_of_mem hf
    have hfield : sizeOf field.2 < sizeOf field := by
      cases field
      simp only [Prod.mk.sizeOf_spec]
      omega
    simp only [Outline.record.sizeOf_spec]
    omega
  · simp only [Outline.tagged.sizeOf_spec]
    omega

/-- The text that is written for an outline is read back as the value it stands for. -/
theorem read?_write (o : Outline) : read? (write o) = some (o.tree .json) :=
  read?_eq_some_iff.2 (spells_write o)

end GameWire.Json
