import GameWire.Proofs.Toml.Number
import GameWire.Proofs.Toml.Text
import GameWire.Toml.Reader

/-!
# TOML values read back

Every value that is written is read back, if its arrays do not nest too deep.  What is written for
it begins with none of the characters that stand between tokens, so a reader that skips those finds
the value as it is.
-/

namespace GameWire.Toml

/-! ## Between tokens -/

/-- Whether a token stands at the front. -/
def Begins (cs : List Char) : Prop :=
  ∃ c more, cs = c :: more ∧ isBlank c = false ∧ c ≠ '#' ∧ c ≠ '\n'

section Skip

variable {cs : List Char}

theorem Begins.append (h : Begins cs) (rest : List Char) : Begins (cs ++ rest) := by
  obtain ⟨c, more, rfl, hc⟩ := h
  exact ⟨c, more ++ rest, rfl, hc⟩

theorem Begins.skipBlanks (h : Begins cs) : Toml.skipBlanks cs = cs := by
  obtain ⟨c, more, rfl, hblank, -⟩ := h
  exact List.dropWhile_cons_of_neg (by rw [hblank]; decide)

theorem Begins.skipComment (h : Begins cs) : Toml.skipComment cs = cs := by
  obtain ⟨c, more, rfl, -, hcomment, -⟩ := h
  unfold Toml.skipComment
  split
  · rename_i heq
    exact absurd (List.cons.inj heq).1 hcomment
  · rfl

theorem Begins.skipFiller_of_skipBlanks {more : List Char} (h : Begins more)
    (hskip : Toml.skipBlanks cs = more) (limit : Nat) : Toml.skipFiller (limit + 1) cs = more := by
  unfold Toml.skipFiller
  rw [hskip, h.skipComment]
  obtain ⟨c, more, rfl, -, -, hbreak⟩ := h
  split
  · rename_i heq
    exact absurd (List.cons.inj heq).1 hbreak
  · rfl

theorem Begins.skipFiller (h : Begins cs) (limit : Nat) : Toml.skipFiller limit cs = cs := by
  cases limit with
  | zero => rfl
  | succ limit => exact h.skipFiller_of_skipBlanks h.skipBlanks limit

theorem Begins.skipFiller_indented (h : Begins cs) (limit : Nat) :
    Toml.skipFiller (limit + 1) (' ' :: ' ' :: ' ' :: ' ' :: cs) = cs :=
  h.skipFiller_of_skipBlanks h.skipBlanks limit

theorem skipFiller_break (limit : Nat) (cs : List Char) :
    skipFiller (limit + 1) ('\n' :: cs) = skipFiller limit cs := rfl

/-- What passes a test that the characters between tokens fail. -/
theorem ne_of_test {p : Char → Bool} {c d : Char} (hc : p c = true) (hd : p d = false) : c ≠ d := by
  rintro rfl
  rw [hc] at hd
  exact nomatch hd

theorem begins_of_test {p : Char → Bool} {c : Char} (hc : p c = true)
    (hp : p ' ' = false ∧ p '\t' = false ∧ p '#' = false ∧ p '\n' = false) (more : List Char) :
    Begins (c :: more) := by
  have hblank : isBlank c = false := by
    simp [isBlank, ne_of_test hc hp.1, ne_of_test hc hp.2.1]
  exact ⟨c, more, rfl, hblank, ne_of_test hc hp.2.2.1, ne_of_test hc hp.2.2.2⟩

theorem begins_bracket (rest : List Char) : Begins (']' :: rest) :=
  ⟨']', rest, rfl, rfl, by decide, by decide⟩

theorem begins_comma (rest : List Char) : Begins (',' :: rest) :=
  ⟨',', rest, rfl, rfl, by decide, by decide⟩

end Skip

/-! ## What is written -/

mutual

def Value.depth : Value → Nat
  | .array items => depthOf items + 1
  | .text _ | .integer _ | .truth _ | .other | .table _ => 0

def depthOf : List Value → Nat
  | [] => 0
  | item :: items => max item.depth (depthOf items)

end

theorem depthOf_le {items : List Value} {depth : Nat} (h : ∀ v ∈ items, v.depth ≤ depth) :
    depthOf items ≤ depth := by
  induction items with
  | nil => exact Nat.zero_le depth
  | cons item items ih =>
    obtain ⟨hitem, hitems⟩ := List.forall_mem_cons.mp h
    exact Nat.max_le.mpr ⟨hitem, ih hitems⟩

theorem exists_toString_eq_cons (n : Int) :
    ∃ c more, (toString n).toList = c :: more ∧ (c = '-' ∨ c.isDigit = true) := by
  have hdecimal := decimal_toDigits n.natAbs
  rw [toList_toString]
  obtain ⟨d, ds, hds⟩ := List.exists_cons_of_ne_nil hdecimal.ne_nil
  rw [hds] at hdecimal ⊢
  cases decide (n < 0) with
  | true => exact ⟨'-', _, rfl, .inl rfl⟩
  | false => exact ⟨d, ds, rfl, .inr (hdecimal.isDigit d List.mem_cons_self)⟩

/-- The characters that a value can begin with. -/
def isOpening (c : Char) : Bool :=
  c == '"' || c == '\'' || c == '-' || c.isDigit || c == 't' || c == 'f' || c == '['

theorem exists_write?_eq_cons {v : Value} {text : List Char} (h : write? v = some text) :
    ∃ c more, text = c :: more ∧ isOpening c = true := by
  unfold write? at h
  split at h
  · rename_i s
    obtain rfl := Option.some.inj h
    obtain ⟨mark, more, hmore, hmark⟩ := exists_quote_eq_cons s
    refine ⟨mark, more, hmore, ?_⟩
    rcases hmark with rfl | rfl <;> rfl
  · rename_i n
    split at h
    · obtain rfl := Option.some.inj h
      obtain ⟨c, more, hmore, hc⟩ := exists_toString_eq_cons n
      refine ⟨c, more, hmore, ?_⟩
      rcases hc with rfl | hc
      · rfl
      · simp [isOpening, hc]
    · exact nomatch h
  · rename_i b
    obtain rfl := Option.some.inj h
    cases b <;> exact ⟨_, _, rfl, rfl⟩
  · obtain rfl := Option.some.inj h
    exact ⟨_, _, rfl, rfl⟩
  · obtain ⟨text, -, rfl⟩ := Option.map_eq_some_iff.mp h
    exact ⟨_, _, rfl, rfl⟩
  · obtain ⟨lines, -, rfl⟩ := Option.map_eq_some_iff.mp h
    exact ⟨_, _, rfl, rfl⟩
  · exact nomatch h
  · exact nomatch h

theorem begins_of_write? {v : Value} {text : List Char} (h : write? v = some text) :
    Begins text := by
  obtain ⟨c, more, rfl, hc⟩ := exists_write?_eq_cons h
  exact begins_of_test hc (by decide) more

/-! ## What is read -/

theorem value?_other {c : Char} (h : c ≠ '[' ∧ c ≠ '\x7B' ∧ c ≠ 't' ∧ c ≠ 'f') (depth : Nat)
    (cs : List Char) :
    value? depth (c :: cs) =
      ((text? (c :: cs)).map fun (s, rest) => (.text (String.ofList s), rest)).or
        (number? (c :: cs)) := by
  unfold value?
  split
  · rename_i heq; exact absurd (List.cons.inj heq).1 h.1
  · rename_i heq; exact absurd (List.cons.inj heq).1 h.2.1
  · rename_i heq; exact absurd (List.cons.inj heq).1 h.2.2.1
  · rename_i heq; exact absurd (List.cons.inj heq).1 h.2.2.2
  · rfl

theorem text?_eq_none {c : Char} (h : c ≠ '"' ∧ c ≠ '\'') (cs : List Char) :
    text? (c :: cs) = none := by
  have hmark : ¬ (c = '"' ∨ c = '\'') := fun hc => hc.elim h.1 h.2
  have hshort : shortText? (c :: cs) = none := if_neg hmark
  match cs with
  | [] => exact hshort
  | [_] => exact hshort
  | a :: b :: cs => exact (if_neg fun hc => hmark hc.2.2).trans hshort

section Leaves

variable {rest : List Char}

theorem value?_text (s : String) (depth : Nat) (hrest : Ends rest) :
    value? depth (quote s ++ rest) = some (.text s, rest) := by
  have htext := text?_quote s (hrest.head?_ne (by decide)) (hrest.head?_ne (by decide))
  obtain ⟨mark, more, hmore, hmark⟩ := exists_quote_eq_cons s
  rw [hmore, List.cons_append] at htext ⊢
  rw [value?_other (by rcases hmark with rfl | rfl <;> decide), htext]
  show some (Value.text (String.ofList s.toList), rest) = _
  rw [String.ofList_toList]

theorem value?_integer {n : Int} (hn : isInRange n = true) (depth : Nat) (hrest : Ends rest) :
    value? depth ((toString n).toList ++ rest) = some (.integer n, rest) := by
  have hnumber := number?_toString hn hrest
  obtain ⟨c, more, hmore, hc⟩ := exists_toString_eq_cons n
  have hne : ∀ d, d ≠ '-' → d.isDigit = false → c ≠ d := by
    rintro d hminus hdigit rfl
    rcases hc with hc | hc
    · exact hminus hc
    · rw [hdigit] at hc
      exact nomatch hc
  rw [hmore, List.cons_append] at hnumber ⊢
  rw [value?_other ⟨hne _ (by decide) rfl, hne _ (by decide) rfl, hne _ (by decide) rfl,
      hne _ (by decide) rfl⟩,
    text?_eq_none ⟨hne _ (by decide) rfl, hne _ (by decide) rfl⟩, hnumber]
  rfl

end Leaves

/-! ## Arrays -/

section Items

variable {item : List Char → Option (Value × List Char)} {cs cs' rest : List Char} {v : Value}

theorem items?_close (limit : Nat) (h : skipFiller cs.length cs = ']' :: rest) :
    items? item (limit + 1) cs = some ([], rest) := by
  rw [items?, h]
  rfl

theorem items?_last (limit : Nat) (h : skipFiller cs.length cs = cs') (hopen : cs'.head? ≠ some ']')
    (hitem : item cs' = some (v, ']' :: rest)) :
    items? item (limit + 1) cs = some ([v], rest) := by
  rw [items?, h]
  split
  · exact absurd rfl hopen
  · simp only [hitem, Option.bind_eq_bind, Option.bind_some, (begins_bracket rest).skipFiller]

theorem items?_next (limit : Nat) (h : skipFiller cs.length cs = cs') (hopen : cs'.head? ≠ some ']')
    (hitem : item cs' = some (v, ',' :: rest)) :
    items? item (limit + 1) cs =
      (items? item limit rest).map fun (vs, rest) => (v :: vs, rest) := by
  rw [items?, h]
  split
  · exact absurd rfl hopen
  · simp only [hitem, Option.bind_eq_bind, Option.bind_some, (begins_comma rest).skipFiller]
    cases items? item limit rest <;> rfl

end Items

/-- Whether a value is read back from its text, whatever ends it. -/
def ReadBack (depth : Nat) (v : Value) : Prop :=
  ∀ {text rest : List Char}, write? v = some text → Ends rest →
    value? depth (text ++ rest) = some (v, rest)

theorem head?_write_ne {v : Value} {text : List Char} (h : write? v = some text)
    (rest : List Char) : (text ++ rest).head? ≠ some ']' := by
  obtain ⟨c, more, rfl, hc⟩ := exists_write?_eq_cons h
  exact fun heq => ne_of_test hc (d := ']') rfl (Option.some.inj heq)

theorem writeItems?_cons {item : Value} {items : List Value} {lines : List Char}
    (h : writeItems? (item :: items) = some lines) :
    ∃ line more, write? item = some line ∧ writeItems? items = some more ∧
      lines = ' ' :: ' ' :: ' ' :: ' ' :: (line ++ ',' :: '\n' :: more) := by
  obtain ⟨line, hline, h⟩ := Option.bind_eq_some_iff.mp h
  obtain ⟨more, hmore, h⟩ := Option.bind_eq_some_iff.mp h
  exact ⟨line, more, hline, hmore, (Option.some.inj h).symm⟩

theorem items?_lines {depth : Nat} {items : List Value} (hitems : ∀ v ∈ items, ReadBack depth v)
    {lines : List Char} (h : writeItems? items = some lines) {limit : Nat}
    (hlimit : items.length < limit) (rest : List Char) :
    items? (value? depth) limit ('\n' :: (lines ++ ']' :: rest)) = some (items, rest) := by
  induction items generalizing lines limit with
  | nil =>
    obtain ⟨limit, rfl⟩ := Nat.exists_eq_succ_of_ne_zero (Nat.ne_of_gt hlimit)
    obtain rfl := Option.some.inj h
    apply items?_close
    rw [List.length_cons, skipFiller_break]
    exact (begins_bracket rest).skipFiller _
  | cons item items ih =>
    obtain ⟨limit, rfl⟩ := Nat.exists_eq_succ_of_ne_zero (Nat.ne_of_gt (Nat.zero_lt_of_lt hlimit))
    obtain ⟨hitem, hitems⟩ := List.forall_mem_cons.mp hitems
    obtain ⟨line, more, hline, hmore, rfl⟩ := writeItems?_cons h
    have hends : Ends (',' :: '\n' :: (more ++ ']' :: rest)) := ⟨_, _, rfl, .inr (.inl rfl)⟩
    have hread := hitem hline hends
    have hskip : skipFiller
        ('\n' :: (' ' :: ' ' :: ' ' :: ' ' :: (line ++ ',' :: '\n' :: more) ++ ']' :: rest)).length
        ('\n' :: (' ' :: ' ' :: ' ' :: ' ' :: (line ++ ',' :: '\n' :: more) ++ ']' :: rest)) =
        line ++ ',' :: '\n' :: (more ++ ']' :: rest) := by
      rw [List.length_cons, skipFiller_break]
      simp only [List.cons_append, List.append_assoc]
      exact ((begins_of_write? hline).append _).skipFiller_indented _
    rw [items?_next limit hskip (head?_write_ne hline _) hread,
      ih hitems hmore (Nat.lt_of_succ_lt_succ hlimit)]
    rfl

theorem length_le_of_writeItems? {items : List Value} {lines : List Char}
    (h : writeItems? items = some lines) : items.length ≤ lines.length := by
  induction items generalizing lines with
  | nil => exact Nat.zero_le _
  | cons item items ih =>
    obtain ⟨line, more, -, hmore, rfl⟩ := writeItems?_cons h
    have hle := ih hmore
    simp only [List.length_cons, List.length_append]
    omega

theorem value?_array (depth : Nat) (cs : List Char) :
    value? (depth + 1) ('[' :: cs) =
      (items? (value? depth) cs.length cs).map fun (vs, rest) => (.array vs, rest) := rfl

theorem readBack_array {depth : Nat} {items : List Value}
    (hitems : ∀ v ∈ items, ReadBack depth v) : ReadBack (depth + 1) (.array items) := by
  intro text rest h hrest
  match items with
  | [] =>
    obtain rfl := Option.some.inj h
    show value? (depth + 1) ('[' :: ']' :: rest) = _
    rw [value?_array, List.length_cons, items?_close _ ((begins_bracket rest).skipFiller _)]
    rfl
  | [item] =>
    obtain ⟨text, htext, rfl⟩ := Option.map_eq_some_iff.mp h
    have hends : Ends (']' :: rest) := ⟨_, _, rfl, .inr (.inr rfl)⟩
    have hread := hitems item List.mem_cons_self htext hends
    have hskip := ((begins_of_write? htext).append (']' :: rest)).skipFiller
      (text ++ ']' :: rest).length
    have hlength : (text ++ ']' :: rest).length = (text.length + rest.length) + 1 := by
      rw [List.length_append, List.length_cons, Nat.add_assoc]
    show value? (depth + 1) ('[' :: (text ++ [']'] ++ rest)) = _
    rw [List.append_assoc, List.singleton_append, value?_array, hlength,
      items?_last _ hskip (head?_write_ne htext _) hread]
    rfl
  | first :: second :: items =>
    obtain ⟨lines, hlines, rfl⟩ := Option.map_eq_some_iff.mp h
    have hlength := length_le_of_writeItems? hlines
    show value? (depth + 1) ('[' :: '\n' :: (lines ++ [']'] ++ rest)) = _
    rw [List.append_assoc, List.singleton_append, value?_array,
      items?_lines hitems hlines (by simp at hlength ⊢; omega)]
    rfl

/-! ## All values -/

mutual

/-- Every value that is written is read back. -/
theorem readBack : (v : Value) → {depth : Nat} → v.depth ≤ depth → ReadBack depth v
  | .text s, depth, _ => fun h hrest => by
    obtain rfl := Option.some.inj h
    exact value?_text s depth hrest
  | .integer n, depth, _ => fun h hrest => by
    unfold write? at h
    split at h
    · rename_i hn
      obtain rfl := Option.some.inj h
      exact value?_integer hn depth hrest
    · exact nomatch h
  | .truth b, depth, _ => fun h _ => by
    obtain rfl := Option.some.inj h
    cases b <;> cases depth <;> rfl
  | .array items, depth + 1, hdepth => readBack_array (readBack_items items (by
    unfold Value.depth at hdepth
    omega))
  | .array _, 0, hdepth => absurd hdepth (Nat.not_succ_le_zero _)
  | .other, _, _ => fun h _ => nomatch h
  | .table _, _, _ => fun h _ => nomatch h

theorem readBack_items :
    (items : List Value) → {depth : Nat} → depthOf items ≤ depth → ∀ v ∈ items, ReadBack depth v
  | [], _, _ => fun _ hv => absurd hv List.not_mem_nil
  | item :: items, _, hdepth => List.forall_mem_cons.mpr
    ⟨readBack item (Nat.le_trans (Nat.le_max_left _ _) hdepth),
      readBack_items items (Nat.le_trans (Nat.le_max_right _ _) hdepth)⟩

end

/-! ## Carriage returns -/

theorem return_notMem_toString (n : Int) : '\r' ∉ (toString n).toList := by
  have hdigits : '\r' ∉ Nat.toDigits 10 n.natAbs := fun h =>
    absurd ((decimal_toDigits n.natAbs).isDigit _ h) (by decide)
  rw [toList_toString]
  cases decide (n < 0) with
  | true => simpa [signed] using hdigits
  | false => exact hdigits

mutual

theorem return_notMem_write : (v : Value) → {text : List Char} → write? v = some text → '\r' ∉ text
  | .text s, _, h => by
    obtain rfl := Option.some.inj h
    exact return_notMem_quote s
  | .integer n, _, h => by
    unfold write? at h
    split at h
    · obtain rfl := Option.some.inj h
      exact return_notMem_toString n
    · exact nomatch h
  | .truth b, _, h => by
    obtain rfl := Option.some.inj h
    cases b <;> decide
  | .array [], _, h => by
    obtain rfl := Option.some.inj h
    decide
  | .array [item], _, h => by
    obtain ⟨text, htext, rfl⟩ := Option.map_eq_some_iff.mp h
    simp [return_notMem_write item htext]
  | .array (first :: second :: items), _, h => by
    obtain ⟨lines, hlines, rfl⟩ := Option.map_eq_some_iff.mp h
    simp [return_notMem_writeItems (first :: second :: items) hlines]

theorem return_notMem_writeItems :
    (items : List Value) → {lines : List Char} → writeItems? items = some lines → '\r' ∉ lines
  | [], _, h => by
    obtain rfl := Option.some.inj h
    exact List.not_mem_nil
  | item :: items, _, h => by
    obtain ⟨line, more, hline, hmore, rfl⟩ := writeItems?_cons h
    simp [return_notMem_write item hline, return_notMem_writeItems items hmore]

end

/-! ## What can be written -/

theorem isSome_writeItems? {items : List Value} (h : ∀ v ∈ items, (write? v).isSome = true) :
    (writeItems? items).isSome = true := by
  induction items with
  | nil => rfl
  | cons item items ih =>
    obtain ⟨hitem, hitems⟩ := List.forall_mem_cons.mp h
    obtain ⟨line, hline⟩ := Option.isSome_iff_exists.mp hitem
    obtain ⟨lines, hlines⟩ := Option.isSome_iff_exists.mp (ih hitems)
    show ((write? item).bind fun line => (writeItems? items).bind fun lines => _).isSome = true
    rw [hline, hlines]
    rfl

theorem isSome_write?_array {items : List Value} (h : ∀ v ∈ items, (write? v).isSome = true) :
    (write? (.array items)).isSome = true := by
  match items with
  | [] => rfl
  | [item] =>
    show ((write? item).map _).isSome = true
    rw [Option.isSome_map]
    exact h item List.mem_cons_self
  | first :: second :: items =>
    show ((writeItems? (first :: second :: items)).map _).isSome = true
    rw [Option.isSome_map]
    exact isSome_writeItems? h

end GameWire.Toml
