import GameWire.Proofs.Toml.Value
import GameWire.Toml.Document
import Mathlib.Data.List.TakeWhile

/-!
# TOML documents read back

A document that is written has one line for each header and each entry, and a blank line between its
sections.  The reader takes it line by line, and since no name comes twice every section becomes a
table of its own.
-/

namespace GameWire.Toml

/-! ## Names -/

/-- Whether a name needs no quotation marks. -/
def IsBareName (name : String) : Prop := name.toList ≠ [] ∧ ∀ c ∈ name.toList, isBare c = true

theorem areBareNames {names : List String}
    (h : (names.all fun name => !name.toList.isEmpty && name.toList.all isBare) = true) :
    ∀ name ∈ names, IsBareName name := by
  intro name hname
  have hbare := List.all_eq_true.mp h name hname
  simp only [Bool.and_eq_true, Bool.not_eq_true', List.isEmpty_eq_false_iff,
    List.all_eq_true] at hbare
  exact hbare

section Name

variable {name : String}

theorem IsBareName.exists_eq_cons (h : IsBareName name) :
    ∃ c more, name.toList = c :: more ∧ isBare c = true := by
  obtain ⟨c, more, hc⟩ := List.exists_cons_of_ne_nil h.1
  exact ⟨c, more, hc, h.2 c (by rw [hc]; exact List.mem_cons_self)⟩

theorem IsBareName.begins (h : IsBareName name) : Begins name.toList := by
  obtain ⟨c, more, hname, hc⟩ := h.exists_eq_cons
  rw [hname]
  exact begins_of_test hc (by decide) more

theorem IsBareName.namePart? (h : IsBareName name) {c : Char} (hc : isBare c = false)
    (rest : List Char) : Toml.namePart? (name.toList ++ c :: rest) = some (name, c :: rest) := by
  have htake : (name.toList ++ c :: rest).takeWhile isBare = name.toList := by
    rw [List.takeWhile_append_of_pos h.2, List.takeWhile_cons_of_neg (by rw [hc]; decide),
      List.append_nil]
  have hdrop : (name.toList ++ c :: rest).dropWhile isBare = c :: rest := by
    rw [List.dropWhile_append_of_pos h.2, List.dropWhile_cons_of_neg (by rw [hc]; decide)]
  unfold Toml.namePart?
  rw [htake, hdrop]
  split
  · rename_i hnil
    exact absurd hnil h.1
  · rw [String.ofList_toList]

/-- A name without dots, whatever ends it. -/
theorem IsBareName.name? (h : IsBareName name) {c : Char} {rest rest' : List Char}
    (hc : isBare c = false) (hskip : skipBlanks (c :: rest) = rest')
    (hdot : rest'.head? ≠ some '.') :
    Toml.name? (name.toList ++ c :: rest) = some ([name], rest') := by
  show nameParts? (maxDepth - 2 + 1) _ = _
  rw [nameParts?, (h.begins.append _).skipBlanks, h.namePart? hc]
  simp only [Option.bind_eq_bind, Option.bind_some, hskip]
  split
  · exact absurd rfl hdot
  · rfl

end Name

/-! ## Lines -/

section Lines

variable {name : String} {v : Value} {text : List Char}

theorem assignment?_line (hname : IsBareName name) (hread : ReadBack (maxDepth - 1) v)
    (htext : write? v = some text) (rest : List Char) :
    assignment? (value? (maxDepth - 1))
        (name.toList ++ ' ' :: '=' :: ' ' :: (text ++ '\n' :: rest)) =
      some (([name], v), '\n' :: rest) := by
  have hskip : skipBlanks (' ' :: (text ++ '\n' :: rest)) = text ++ '\n' :: rest :=
    ((begins_of_write? htext).append _).skipBlanks
  have hequals : skipBlanks (' ' :: '=' :: ' ' :: (text ++ '\n' :: rest)) =
      '=' :: ' ' :: (text ++ '\n' :: rest) := rfl
  unfold assignment?
  rw [hname.name? rfl hequals (by simp)]
  show ((value? (maxDepth - 1) (skipBlanks (' ' :: (text ++ '\n' :: rest)))).bind _) = _
  rw [hskip, hread htext ⟨_, _, rfl, .inl rfl⟩]
  rfl

/-- A line takes one off the limit. -/
theorem sections?_line (hname : IsBareName name) (hread : ReadBack (maxDepth - 1) v)
    (htext : write? v = some text) (limit : Nat) (rest : List Char) :
    sections? (limit + 1) (name.toList ++ ' ' :: '=' :: ' ' :: (text ++ '\n' :: rest)) =
      (sections? limit rest).map fun (assignments, sections) =>
        (([name], v) :: assignments, sections) := by
  obtain ⟨c, more, hcons, hc⟩ := hname.exists_eq_cons
  rw [sections?, (hname.begins.append _).skipFiller]
  split
  · rename_i heq
    rw [hcons] at heq
    exact nomatch heq
  · rename_i heq
    rw [hcons] at heq
    exact absurd (List.cons.inj heq).1 (ne_of_test hc rfl)
  · rw [assignment?_line hname hread htext]
    show (sections? limit rest).bind _ = _
    cases sections? limit rest <;> rfl

theorem header?_line (hname : IsBareName name) (rest : List Char) :
    header? ('[' :: (name.toList ++ ']' :: rest)) = some (⟨[name], false⟩, rest) := by
  obtain ⟨c, more, hcons, hc⟩ := hname.exists_eq_cons
  have hbracket : skipBlanks (']' :: rest) = ']' :: rest := rfl
  have hread := hname.name? rfl hbracket (by simp)
  unfold header?
  split
  · rename_i heq
    rw [hcons] at heq
    exact absurd (List.cons.inj (List.cons.inj heq).2).1 (ne_of_test hc rfl)
  · rename_i heq
    rw [← (List.cons.inj heq).2]
    show ((name? (name.toList ++ ']' :: rest)).bind fun read =>
      ([']'].isPrefixOf? read.2).bind fun rest => some ((⟨read.1, false⟩ : Header), rest)) = _
    rw [hread]
    rfl
  · rename_i h
    exact absurd rfl (h _)

theorem sections?_header (hname : IsBareName name) (limit : Nat) (rest : List Char) :
    sections? (limit + 1) ('[' :: (name.toList ++ ']' :: '\n' :: rest)) =
      (sections? limit rest).map fun (assignments, sections) =>
        ([], ⟨⟨[name], false⟩, assignments⟩ :: sections) := by
  have hbegins : Begins ('[' :: (name.toList ++ ']' :: '\n' :: rest)) :=
    ⟨_, _, rfl, rfl, by decide, by decide⟩
  rw [sections?, hbegins.skipFiller]
  show (header? ('[' :: (name.toList ++ ']' :: '\n' :: rest))).bind _ = _
  rw [header?_line hname]
  show (sections? limit rest).bind _ = _
  cases sections? limit rest <;> rfl

theorem sections?_nil (limit : Nat) : sections? limit [] = some ([], []) := by
  cases limit <;> rfl

/-- A blank line takes nothing off the limit. -/
theorem sections?_break (limit : Nat) (cs : List Char) :
    sections? (limit + 1) ('\n' :: cs) = sections? (limit + 1) cs := by
  rw [sections?, sections?, List.length_cons, skipFiller_break]

end Lines

/-! ## Sections -/

/-- An entry as a reader finds it. -/
def assignmentOf (entry : String × Value) : List String × Value := ([entry.1], entry.2)

/-- A section as a reader finds it. -/
def sectionOf (s : String × List (String × Value)) : Section :=
  ⟨⟨[s.1], false⟩, s.2.map assignmentOf⟩

/-- Whether entries keep their names and values in a document. -/
structure LegibleSection (entries : List (String × Value)) : Prop where
  bare : ∀ entry ∈ entries, IsBareName entry.1
  depth : ∀ entry ∈ entries, entry.2.depth ≤ maxDepth - 1
  nodup : (entries.map Prod.fst).Nodup

/-- Whether sections keep their names and entries in a document. -/
structure Legible (sections : List (String × List (String × Value))) : Prop where
  bare : ∀ s ∈ sections, IsBareName s.1
  legible : ∀ s ∈ sections, LegibleSection s.2
  nodup : (sections.map Prod.fst).Nodup

theorem writeEntries?_cons {entry : String × Value} {entries : List (String × Value)}
    {lines : List Char} (h : writeEntries? (entry :: entries) = some lines) :
    ∃ text more, write? entry.2 = some text ∧ writeEntries? entries = some more ∧
      lines = entry.1.toList ++ ' ' :: '=' :: ' ' :: (text ++ '\n' :: more) := by
  unfold writeEntries? at h ⊢
  rw [List.mapM_cons] at h
  obtain ⟨lines, hlines, h⟩ := Option.bind_eq_some_iff.mp h
  obtain ⟨line, hline, hlines⟩ := Option.bind_eq_some_iff.mp hlines
  obtain ⟨more, hmore, hlines⟩ := Option.bind_eq_some_iff.mp hlines
  obtain ⟨text, htext, hline⟩ := Option.bind_eq_some_iff.mp hline
  refine ⟨text, more.flatten, htext, by rw [hmore]; rfl, ?_⟩
  rw [← Option.some.inj h, ← Option.some.inj hlines, ← Option.some.inj hline]
  simp

theorem sections?_entries {entries : List (String × Value)}
    (hbare : ∀ entry ∈ entries, IsBareName entry.1)
    (hdepth : ∀ entry ∈ entries, entry.2.depth ≤ maxDepth - 1) {lines : List Char}
    (h : writeEntries? entries = some lines) (limit : Nat) (rest : List Char) :
    sections? (entries.length + limit) (lines ++ rest) =
      (sections? limit rest).map fun (assignments, sections) =>
        (entries.map assignmentOf ++ assignments, sections) := by
  induction entries generalizing lines with
  | nil =>
    obtain rfl := Option.some.inj h
    rw [List.length_nil, Nat.zero_add]
    show sections? limit rest = _
    cases sections? limit rest <;> rfl
  | cons entry entries ih =>
    obtain ⟨hname, hbare⟩ := List.forall_mem_cons.mp hbare
    obtain ⟨hvalue, hdepth⟩ := List.forall_mem_cons.mp hdepth
    obtain ⟨text, more, htext, hmore, rfl⟩ := writeEntries?_cons h
    have hlimit : (entry :: entries).length + limit = entries.length + limit + 1 := by
      rw [List.length_cons, Nat.add_right_comm]
    simp only [List.append_assoc, List.cons_append]
    rw [hlimit, sections?_line hname (readBack entry.2 hvalue) htext, ih hbare hdepth hmore]
    cases sections? limit rest <;> rfl

theorem sections?_section {name : String} {entries : List (String × Value)}
    (hname : IsBareName name) (hentries : LegibleSection entries) {lines : List Char}
    (hlines : writeEntries? entries = some lines) (limit : Nat) {rest : List Char}
    {sections : List Section} (hrest : sections? limit rest = some ([], sections)) :
    sections? (entries.length + limit + 1) ('[' :: name.toList ++ [']', '\n'] ++ lines ++ rest) =
      some ([], sectionOf (name, entries) :: sections) := by
  simp only [List.cons_append, List.nil_append, List.append_assoc]
  rw [sections?_header hname, sections?_entries hentries.bare hentries.depth hlines, hrest]
  simp [sectionOf]

theorem mapM_writeSection?_cons {s : String × List (String × Value)}
    {sections : List (String × List (String × Value))} {parts : List (List Char)}
    (h : (s :: sections).mapM (fun (name, entries) => writeSection? name entries) = some parts) :
    ∃ lines more, writeEntries? s.2 = some lines ∧
      sections.mapM (fun (name, entries) => writeSection? name entries) = some more ∧
      parts = ('[' :: s.1.toList ++ [']', '\n'] ++ lines) :: more := by
  rw [List.mapM_cons] at h
  obtain ⟨part, hpart, h⟩ := Option.bind_eq_some_iff.mp h
  obtain ⟨more, hmore, h⟩ := Option.bind_eq_some_iff.mp h
  obtain ⟨lines, hlines, rfl⟩ := Option.map_eq_some_iff.mp hpart
  exact ⟨lines, more, hlines, hmore, (Option.some.inj h).symm⟩

/-- The number of lines of sections, apart from the blank ones between them. -/
def lineCount : List (String × List (String × Value)) → Nat
  | [] => 0
  | (_, entries) :: sections => entries.length + 1 + lineCount sections

/-- Written sections are read one by one. -/
theorem sections?_parts {sections : List (String × List (String × Value))}
    (hbare : ∀ s ∈ sections, IsBareName s.1) (hlegible : ∀ s ∈ sections, LegibleSection s.2)
    {parts : List (List Char)}
    (h : sections.mapM (fun (name, entries) => writeSection? name entries) = some parts)
    (limit : Nat) :
    sections? (lineCount sections + limit) (parts.flatMap ('\n' :: ·)) =
      some ([], sections.map sectionOf) := by
  induction sections generalizing parts with
  | nil =>
    obtain rfl := Option.some.inj h
    exact sections?_nil _
  | cons s sections ih =>
    obtain ⟨hname, hbare⟩ := List.forall_mem_cons.mp hbare
    obtain ⟨hentries, hlegible⟩ := List.forall_mem_cons.mp hlegible
    obtain ⟨lines, more, hlines, hmore, rfl⟩ := mapM_writeSection?_cons h
    have hlimit : lineCount (s :: sections) + limit =
        s.2.length + (lineCount sections + limit) + 1 := by
      rw [lineCount]
      omega
    rw [hlimit, List.flatMap_cons, List.cons_append, sections?_break]
    exact sections?_section hname hentries hlines _ (ih hbare hlegible hmore)

/-! ## Tables -/

/-- An entry as it stands in a table that is being spelled out. -/
def leafOf (entry : String × Value) : String × Node := (entry.1, .leaf entry.2)

/-- A section as it stands among the tables that are being spelled out. -/
def nodeOf (s : String × List (String × Value)) : String × Node :=
  (s.1, .table .header (s.2.map leafOf))

section Tables

variable {nodes : List (String × Node)} {name : String}

theorem lookup_eq_none {β : Type} {entries : List (String × β)}
    (h : name ∉ entries.map Prod.fst) : entries.lookup name = none := by
  apply List.lookup_eq_none_iff.mpr
  intro entry hentry
  exact bne_iff_ne.mpr fun heq => h (heq ▸ List.mem_map_of_mem hentry)

theorem replace_new (h : name ∉ nodes.map Prod.fst) (node : Node) :
    replace name node nodes = nodes ++ [(name, node)] := by
  induction nodes with
  | nil => rfl
  | cons entry nodes ih =>
    obtain ⟨key, old⟩ := entry
    rw [List.map_cons, List.mem_cons, not_or] at h
    unfold replace
    rw [if_neg fun heq => h.1 heq.symm, ih h.2]
    rfl

theorem assignAll?_entries {entries : List (String × Value)}
    (h : (nodes.map Prod.fst ++ entries.map Prod.fst).Nodup) :
    assignAll? nodes (entries.map assignmentOf) = some (nodes ++ entries.map leafOf) := by
  unfold assignAll?
  induction entries generalizing nodes with
  | nil => exact congrArg some (List.append_nil nodes).symm
  | cons entry entries ih =>
    obtain ⟨name, v⟩ := entry
    have hname : name ∉ nodes.map Prod.fst := fun hmem =>
      (List.nodup_append.mp h).2.2 name hmem name List.mem_cons_self rfl
    have hassign : assign? true nodes [name] v = some (nodes ++ [(name, .leaf v)]) := by
      show (if true = true ∧ (nodes.lookup name).isNone = true then _ else _) = _
      rw [lookup_eq_none hname, if_pos ⟨rfl, rfl⟩, replace_new hname]
    rw [List.map_cons, List.foldlM_cons]
    show ((assign? true nodes [name] v).bind _) = _
    rw [hassign]
    refine (ih ?_).trans ?_
    · simpa using h
    · simp [leafOf]

theorem change?_name (change : Option Node → Option Node) (nodes : List (String × Node))
    (name : String) : change? change nodes [name] =
      (change (nodes.lookup name)).map fun node => replace name node nodes := rfl

theorem addSection?_new {s : String × List (String × Value)} (hname : s.1 ∉ nodes.map Prod.fst)
    (hentries : (s.2.map Prod.fst).Nodup) :
    addSection? nodes (sectionOf s) = some (nodes ++ [nodeOf s]) := by
  have hassign : assignAll? [] (s.2.map assignmentOf) = some (s.2.map leafOf) :=
    assignAll?_entries hentries
  refine (change?_name _ nodes s.1).trans ?_
  rw [lookup_eq_none hname]
  show ((assignAll? [] (s.2.map assignmentOf)).map _).map _ = _
  rw [hassign]
  exact congrArg some (replace_new hname _)

theorem foldlM_addSection? {sections : List (String × List (String × Value))}
    (hentries : ∀ s ∈ sections, (s.2.map Prod.fst).Nodup)
    (h : (nodes.map Prod.fst ++ sections.map Prod.fst).Nodup) :
    (sections.map sectionOf).foldlM addSection? nodes = some (nodes ++ sections.map nodeOf) := by
  induction sections generalizing nodes with
  | nil => exact congrArg some (List.append_nil nodes).symm
  | cons s sections ih =>
    obtain ⟨hs, hentries⟩ := List.forall_mem_cons.mp hentries
    have hname : s.1 ∉ nodes.map Prod.fst := fun hmem =>
      (List.nodup_append.mp h).2.2 s.1 hmem s.1 List.mem_cons_self rfl
    rw [List.map_cons, List.foldlM_cons, addSection?_new hname hs]
    refine (ih hentries ?_).trans ?_
    · simpa [nodeOf] using h
    · simp

theorem valuesOf_map_leafOf (entries : List (String × Value)) :
    valuesOf (entries.map leafOf) = entries := by
  induction entries with
  | nil => rfl
  | cons entry entries ih => exact congrArg (entry :: ·) ih

theorem valuesOf_map_nodeOf (sections : List (String × List (String × Value))) :
    valuesOf (sections.map nodeOf) = sections.map fun s => (s.1, .table s.2) := by
  induction sections with
  | nil => rfl
  | cons s sections ih =>
    show (s.1, Value.table (valuesOf (s.2.map leafOf))) :: valuesOf (sections.map nodeOf) = _
    rw [valuesOf_map_leafOf, ih]
    rfl

end Tables

/-- The table of sections under different names. -/
theorem ofSections?_map {sections : List (String × List (String × Value))}
    (h : Legible sections) :
    ofSections? [] (sections.map sectionOf) =
      some (.table (sections.map fun s => (s.1, .table s.2))) := by
  have hfold : (sections.map sectionOf).foldlM addSection? [] = some (sections.map nodeOf) :=
    foldlM_addSection? (fun s hs => (h.legible s hs).nodup) h.nodup
  show ((sections.map sectionOf).foldlM addSection? []).bind _ = _
  rw [hfold]
  exact congrArg (fun entries => some (Value.table entries)) (valuesOf_map_nodeOf sections)

/-! ## Whole documents -/

theorem joinBreaks_eq {cs : List Char} (h : '\r' ∉ cs) : joinBreaks cs = cs := by
  induction cs with
  | nil => rfl
  | cons c cs ih =>
    rw [List.mem_cons, not_or] at h
    rw [joinBreaks, ih h.2]
    rintro _ rfl
    exact absurd rfl h.1

theorem return_notMem_bare {name : String} (h : IsBareName name) : '\r' ∉ name.toList :=
  fun hmem => absurd (h.2 _ hmem) (by decide)

theorem return_notMem_writeEntries {entries : List (String × Value)}
    (hbare : ∀ entry ∈ entries, IsBareName entry.1) {lines : List Char}
    (h : writeEntries? entries = some lines) : '\r' ∉ lines := by
  induction entries generalizing lines with
  | nil =>
    obtain rfl := Option.some.inj h
    exact List.not_mem_nil
  | cons entry entries ih =>
    obtain ⟨hname, hbare⟩ := List.forall_mem_cons.mp hbare
    obtain ⟨text, more, htext, hmore, rfl⟩ := writeEntries?_cons h
    simp [return_notMem_bare hname, return_notMem_write entry.2 htext, ih hbare hmore]

theorem length_le_of_writeEntries? {entries : List (String × Value)} {lines : List Char}
    (h : writeEntries? entries = some lines) : entries.length ≤ lines.length := by
  induction entries generalizing lines with
  | nil => exact Nat.zero_le _
  | cons entry entries ih =>
    obtain ⟨text, more, -, hmore, rfl⟩ := writeEntries?_cons h
    have hle := ih hmore
    simp only [List.length_cons, List.length_append]
    omega

section Whole

variable {sections : List (String × List (String × Value))} {parts : List (List Char)}

theorem return_notMem_parts (h : Legible sections)
    (hparts : sections.mapM (fun (name, entries) => writeSection? name entries) = some parts) :
    '\r' ∉ parts.flatMap ('\n' :: ·) := by
  obtain ⟨hbare, hlegible, -⟩ := h
  induction sections generalizing parts with
  | nil =>
    obtain rfl := Option.some.inj hparts
    exact List.not_mem_nil
  | cons s sections ih =>
    obtain ⟨hname, hbare⟩ := List.forall_mem_cons.mp hbare
    obtain ⟨hentries, hlegible⟩ := List.forall_mem_cons.mp hlegible
    obtain ⟨lines, more, hlines, hmore, rfl⟩ := mapM_writeSection?_cons hparts
    have hlines := return_notMem_writeEntries hentries.bare hlines
    simpa [return_notMem_bare hname, hlines] using ih hmore hbare hlegible

theorem lineCount_le
    (hparts : sections.mapM (fun (name, entries) => writeSection? name entries) = some parts) :
    lineCount sections ≤ (parts.flatMap ('\n' :: ·)).length := by
  induction sections generalizing parts with
  | nil => exact Nat.zero_le _
  | cons s sections ih =>
    obtain ⟨lines, more, hlines, hmore, rfl⟩ := mapM_writeSection?_cons hparts
    have hcount := length_le_of_writeEntries? hlines
    have hle := ih hmore
    simp only [lineCount, List.flatMap_cons, List.length_append, List.length_cons] at hle ⊢
    omega

/-- A document with a line break in front of it has one in front of each section. -/
theorem cons_intercalate (part : List Char) (parts : List (List Char)) :
    '\n' :: ['\n'].intercalate (part :: parts) = (part :: parts).flatMap ('\n' :: ·) := by
  induction parts generalizing part with
  | nil => simp
  | cons next parts ih =>
    rw [List.flatMap_cons, ← ih next]
    simp

/-- A document is read back as the table of its sections. -/
theorem read?_render (h : Legible sections) {text : String} (htext : render? sections = some text) :
    read? text = some (.table (sections.map fun s => (s.1, .table s.2))) := by
  obtain ⟨parts, hparts, htext⟩ := Option.bind_eq_some_iff.mp htext
  obtain rfl := Option.some.inj htext
  have hreturns := return_notMem_parts h hparts
  have hcount := lineCount_le hparts
  have hread := sections?_parts h.bare h.legible hparts
  -- The length of the text bounds the number of its lines, which is what the reader counts down.
  match sections with
  | [] =>
    obtain rfl := Option.some.inj hparts
    rfl
  | s :: sections =>
    obtain ⟨lines, more, -, -, rfl⟩ := mapM_writeSection?_cons hparts
    have hopen : ∃ cs, ['\n'].intercalate (('[' :: s.1.toList ++ [']', '\n'] ++ lines) :: more) =
        '[' :: cs := ⟨_, (List.cons.inj (cons_intercalate _ more)).2⟩
    rw [← cons_intercalate] at hreturns hcount hread
    rw [List.length_cons] at hcount
    generalize ['\n'].intercalate _ = cs at hopen hreturns hcount hread ⊢
    have hmark : dropMark cs = cs := by
      obtain ⟨cs, rfl⟩ := hopen
      rfl
    have hbreaks : joinBreaks cs = cs := joinBreaks_eq fun hmem => hreturns (.tail _ hmem)
    have hsections : sections? (cs.length + 1) cs = some ([], (s :: sections).map sectionOf) := by
      rw [← sections?_break]
      have hlimit := hread (cs.length + 1 - lineCount (s :: sections))
      rwa [Nat.add_sub_cancel' hcount] at hlimit
    unfold read?
    rw [String.toList_ofList, hmark, hbreaks]
    show (sections? (cs.length + 1) cs).bind _ = _
    rw [hsections]
    exact ofSections?_map h

end Whole

/-! ## What can be written -/

theorem isSome_writeEntries?_iff {entries : List (String × Value)} :
    (writeEntries? entries).isSome = true ↔
      ∀ entry ∈ entries, (write? entry.2).isSome = true := by
  have hline : ∀ (entry : String × Value) (f : List Char → List Char),
      ((write? entry.2).bind fun text => some (f text)).isSome = (write? entry.2).isSome := by
    intro entry f
    cases write? entry.2 <;> rfl
  have hjoin : ∀ lines : Option (List (List Char)),
      (lines.bind fun lines => some lines.flatten).isSome = lines.isSome := by
    intro lines
    cases lines <;> rfl
  unfold writeEntries?
  refine (Bool.eq_iff_iff.mp (hjoin _)).trans (isSome_mapM_iff.trans ?_)
  exact forall₂_congr fun entry _ => Bool.eq_iff_iff.mp (hline entry _)

/-- A document can be written if every value in it can be. -/
theorem isSome_render?_iff {sections : List (String × List (String × Value))} :
    (render? sections).isSome = true ↔
      ∀ s ∈ sections, ∀ entry ∈ s.2, (write? entry.2).isSome = true := by
  have hjoin : ∀ parts : Option (List (List Char)), (parts.bind fun parts =>
      some (String.ofList (['\n'].intercalate parts))).isSome = parts.isSome := by
    intro parts
    cases parts <;> rfl
  unfold render?
  refine (Bool.eq_iff_iff.mp (hjoin _)).trans (isSome_mapM_iff.trans ?_)
  refine forall₂_congr fun s _ => ?_
  show (Option.map _ (writeEntries? s.2)).isSome = true ↔ _
  rw [Option.isSome_map]
  exact isSome_writeEntries?_iff

end GameWire.Toml
