import GameWire.Toml.Writer

/-!
# TOML strings read back

Whichever marks a text is put between, it is read back from what stands between them.  Between
quotation marks the reader goes from `plain` to `plain` over whatever a character is written as.
Between triple marks it may also be in a run of marks, which is how up to two of them stand for
themselves in front of those that close.
-/

namespace GameWire.Toml

/-- The outcome of a scan with more text in front. -/
def prepended (out : List Char) : List Char × List Char → List Char × List Char
  | (text, rest) => (out ++ text, rest)

theorem map_prepended_nil (scanned : Option (List Char × List Char)) :
    scanned.map (prepended []) = scanned := by
  cases scanned <;> rfl

theorem map_prepended_prepended (front back : List Char)
    (scanned : Option (List Char × List Char)) :
    (scanned.map (prepended back)).map (prepended front) =
      scanned.map (prepended (front ++ back)) := by
  cases scanned with
  | none => rfl
  | some pair => simp [prepended]

namespace TextStyle

/-! ## Single characters -/

section Moves

variable {s : TextStyle} {state next : TextState} {c : Char} {out : List Char} {keep : Bool}

theorem scan?_go (h : s.move? state c = some (.go out next)) (cs : List Char) :
    scan? s state (c :: cs) = (scan? s next cs).map (prepended out) := by
  rw [scan?, h]
  rfl

theorem scan?_stop (h : s.move? state c = some (.stop out keep)) (cs : List Char) :
    scan? s state (c :: cs) = some (out, if keep then c :: cs else cs) := by
  rw [scan?, h]

theorem scan?_end (hshort : s.long = false) (cs : List Char) :
    scan? s .plain (s.mark :: cs) = some ([], cs) := by
  have hmove : s.move? .plain s.mark = some (.stop [] false) := by
    show s.plainMove? s.mark = _
    unfold plainMove?
    rw [if_pos rfl, hshort]
    rfl
  rw [scan?_stop hmove]
  rfl

/-- A character that stands for itself. -/
theorem scan?_plain (hmark : c ≠ s.mark) (hslash : c = '\\' → s.mark ≠ '"')
    (hplain : isPlain c = true ∨ c = '\n' ∧ s.long = true) (cs : List Char) :
    scan? s .plain (c :: cs) = (scan? s .plain cs).map (prepended [c]) := by
  have hmove : s.move? .plain c = some (.go [c] .plain) := by
    show s.plainMove? c = _
    unfold plainMove?
    rw [if_neg hmark, if_neg fun h => hslash h.1 h.2, if_pos]
    rcases hplain with hplain | ⟨hc, hlong⟩
    · rw [hplain, Bool.true_or]
    · rw [hc, hlong]
      rfl
  exact scan?_go hmove cs

/-! ## Escapes -/

theorem scan?_letter {e : Char} (hunit : e ≠ 'u') (hunits : e ≠ 'U')
    (hletter : unescape? e = some c) (cs : List Char) :
    scan? s .escape (e :: cs) = (scan? s .plain cs).map (prepended [c]) := by
  have hmove : s.move? .escape e = some (.go [c] .plain) := by
    show (if e = 'u' then _ else if e = 'U' then _ else _) = _
    rw [if_neg hunit, if_neg hunits, hletter]
  exact scan?_go hmove cs

theorem scan?_digit {owed value d : Nat} (hd : hexValue? c = some d) (howed : owed ≠ 1)
    (cs : List Char) :
    scan? s (.code owed value) (c :: cs) = scan? s (.code (owed - 1) (value * 16 + d)) cs := by
  have hmove : s.move? (.code owed value) c =
      some (.go [] (.code (owed - 1) (value * 16 + d))) := by
    simp only [move?, hd]
    exact if_neg howed
  rw [scan?_go hmove, map_prepended_nil]

theorem scan?_lastDigit {value d : Nat} {x : Char} (hd : hexValue? c = some d)
    (hx : scalar? (value * 16 + d) = some x) (cs : List Char) :
    scan? s (.code 1 value) (c :: cs) = (scan? s .plain cs).map (prepended [x]) := by
  have hmove : s.move? (.code 1 value) c = some (.go [x] .plain) := by
    simp only [move?, hd]
    show (scalar? (value * 16 + d)).map _ = _
    rw [hx]
    rfl
  exact scan?_go hmove cs

end Moves

/-! ## Runs of marks -/

section Marks

variable {s : TextStyle} {n : Nat} {c : Char}

/-- The marks between triple marks: they are counted until it is clear what they are. -/
theorem move?_mark (hn : n ≠ 4) : s.move? (.marks n) s.mark = some (.go [] (.marks (n + 1))) := by
  show (if s.mark = s.mark then _ else _) = _
  rw [if_pos rfl, if_neg hn]

theorem move?_fifth : s.move? (.marks 4) s.mark = some (.stop [s.mark, s.mark] false) := by
  show (if s.mark = s.mark then _ else _) = _
  rw [if_pos rfl]
  rfl

theorem move?_behind (hn : 3 ≤ n) (hc : c ≠ s.mark) :
    s.move? (.marks n) c = some (.stop (List.replicate (n - 3) s.mark) true) := by
  show (if c = s.mark then _ else _) = _
  rw [if_neg hc, if_pos hn]

theorem move?_within (hn : n < 3) (hc : c ≠ s.mark) :
    s.move? (.marks n) c = match s.plainMove? c with
      | some (.go out next) => some (.go (List.replicate n s.mark ++ out) next)
      | other => other := by
  refine (if_neg hc).trans ((if_neg (Nat.not_le.mpr hn)).trans ?_)
  cases s.plainMove? c with
  | none => rfl
  | some move => cases move <;> rfl

theorem scan?_mark (hn : n ≠ 4) (cs : List Char) :
    scan? s (.marks n) (s.mark :: cs) = scan? s (.marks (n + 1)) cs := by
  rw [scan?_go (move?_mark hn), map_prepended_nil]

/-- Only a mark stops a string. -/
theorem plainMove?_ne_stop (hc : c ≠ s.mark) {out : List Char} {keep : Bool} :
    s.plainMove? c ≠ some (.stop out keep) := by
  unfold plainMove?
  rw [if_neg hc]
  split
  · simp
  · split <;> simp

/-- A run that is too short to close is text, whatever comes behind it. -/
theorem scan?_marks (hn : n < 3) (hc : c ≠ s.mark) (cs : List Char) :
    scan? s (.marks n) (c :: cs) =
      (scan? s .plain (c :: cs)).map (prepended (List.replicate n s.mark)) := by
  have hplain : s.move? .plain c = s.plainMove? c := rfl
  rw [scan?, scan?, move?_within hn hc, hplain]
  cases hmove : s.plainMove? c with
  | none => rfl
  | some move =>
    cases move with
    | stop out keep => exact absurd hmove (plainMove?_ne_stop hc)
    | go out next => exact (map_prepended_prepended _ _ _).symm

/-- Between triple marks a run of none is as good as none. -/
theorem scan?_plain_eq_marks (hlong : s.long = true) (cs : List Char) :
    scan? s .plain cs = scan? s (.marks 0) cs := by
  cases cs with
  | nil => rfl
  | cons c cs =>
    by_cases hc : c = s.mark
    · have hmove : s.move? .plain c = some (.go [] (.marks 1)) := by
        show s.plainMove? c = _
        unfold plainMove?
        rw [if_pos hc, if_pos hlong]
      rw [scan?_go hmove, map_prepended_nil, hc, scan?_mark (by omega)]
    · rw [scan?_marks (by omega) hc]
      exact (map_prepended_nil _).symm

/-- Behind three or four marks the string is over, unless there is one more. -/
theorem scan?_behind (hlow : 3 ≤ n) {rest : List Char} (hrest : rest.head? ≠ some s.mark) :
    scan? s (.marks n) rest = some (List.replicate (n - 3) s.mark, rest) := by
  cases rest with
  | nil => rw [scan?, if_pos hlow]
  | cons c cs =>
    have hc : c ≠ s.mark := fun h => hrest (by rw [h]; rfl)
    rw [scan?_stop (move?_behind hlow hc), if_pos rfl]

/-- Three marks close, and the run before them is text. -/
theorem scan?_close (hn : n ≤ 2) {rest : List Char} (hrest : rest.head? ≠ some s.mark) :
    scan? s (.marks n) (List.replicate 3 s.mark ++ rest) =
      some (List.replicate n s.mark, rest) := by
  show scan? s (.marks n) (s.mark :: s.mark :: s.mark :: rest) = _
  rw [scan?_mark (by omega), scan?_mark (by omega)]
  by_cases htwo : n = 2
  · subst htwo
    rw [scan?_stop move?_fifth]
    rfl
  · rw [scan?_mark (by omega), scan?_behind (by omega) hrest]
    rfl

end Marks

end TextStyle

/-! ## Between quotation marks -/

theorem hexValue?_hexDigit (n : Nat) : hexValue? (hexDigit n) = some (n % 16) := by
  have h : ∀ d < 16,
      hexValue? (if d < 10 then Char.ofNat (0x30 + d) else Char.ofNat (0x37 + d)) = some d := by
    decide
  exact h (n % 16) (Nat.mod_lt n (by decide))

theorem scalar?_toNat (c : Char) : scalar? c.toNat = some c := by
  have hc : c.toNat.isValidChar := c.valid
  unfold scalar?
  rw [if_pos hc, Char.ofNat_toNat]

/-- What a character may be written as between quotation marks: itself, a letter behind a backslash,
or four hexadecimal digits. -/
inductive Escaped (long : Bool) (c : Char) : List Char → Prop
  | plain (hquote : c ≠ '"') (hslash : c ≠ '\\')
      (hplain : isPlain c = true ∨ c = '\n' ∧ long = true) : Escaped long c [c]
  | letter {e : Char} (hunit : e ≠ 'u') (hunits : e ≠ 'U') (hletter : unescape? e = some c) :
      Escaped long c ['\\', e]
  | unit (hlow : c.toNat < 0x80) :
      Escaped long c ['\\', 'u', '0', '0', hexDigit (c.toNat / 16), hexDigit c.toNat]

theorem lt_of_not_isPlain {c : Char} (h : ¬ isPlain c = true) : c.toNat < 0x80 := by
  apply Nat.lt_of_not_le
  intro hc
  apply h
  have hspace : ' ' ≤ c := by
    show ' '.toNat ≤ c.toNat
    exact Nat.le_trans (by decide) hc
  unfold isPlain
  simp only [hspace, decide_true, Bool.true_and, Bool.or_eq_true, bne_iff_ne]
  omega

theorem escaped_escape (long : Bool) {c : Char} (hc : c ≠ '"') :
    Escaped long c (escape long c) := by
  unfold escape
  split
  · rename_i h; subst h; exact .letter (by decide) (by decide) rfl
  split
  · rename_i h; subst h; exact .letter (by decide) (by decide) rfl
  split
  · rename_i h
    subst h
    cases long with
    | true => exact .plain (by decide) (by decide) (.inr ⟨rfl, rfl⟩)
    | false => exact .letter (by decide) (by decide) rfl
  split
  · rename_i h; subst h; exact .letter (by decide) (by decide) rfl
  split
  · rename_i h; subst h; exact .letter (by decide) (by decide) rfl
  split
  · rename_i h; subst h; exact .letter (by decide) (by decide) rfl
  rename_i hslash
  split
  · rename_i hplain; exact .plain hc hslash (.inl hplain)
  · rename_i hplain; exact .unit (lt_of_not_isPlain hplain)

section Escaped

variable {long : Bool} {c : Char} {out : List Char}

/-- What is written for a character begins with no quotation mark. -/
theorem Escaped.exists_eq_cons (h : Escaped long c out) :
    ∃ d more, out = d :: more ∧ d ≠ '"' ∧ (d = c ∨ d = '\\') := by
  cases h with
  | plain hquote => exact ⟨c, [], rfl, hquote, .inl rfl⟩
  | letter => exact ⟨_, _, rfl, by decide, .inr rfl⟩
  | unit => exact ⟨_, _, rfl, by decide, .inr rfl⟩

-- It is read as that character.
theorem Escaped.scan? (h : Escaped long c out) (cs : List Char) :
    TextStyle.scan? ⟨'"', long⟩ .plain (out ++ cs) =
      (TextStyle.scan? ⟨'"', long⟩ .plain cs).map (prepended [c]) := by
  cases h with
  | plain hquote hslash hplain =>
    exact TextStyle.scan?_plain hquote (fun h => absurd h hslash) hplain cs
  | @letter e hunit hunits hletter =>
    show TextStyle.scan? _ .plain ('\\' :: e :: cs) = _
    rw [TextStyle.scan?_go rfl, map_prepended_nil, TextStyle.scan?_letter hunit hunits hletter]
  | unit hlow =>
    have hc : scalar? (c.toNat / 16 * 16 + c.toNat % 16) = some c := by
      rw [Nat.div_add_mod', scalar?_toNat]
    show TextStyle.scan? _ .plain ('\\' :: 'u' :: '0' :: '0' :: hexDigit _ :: hexDigit _ :: cs) = _
    rw [TextStyle.scan?_go rfl, map_prepended_nil, TextStyle.scan?_go rfl, map_prepended_nil,
      TextStyle.scan?_digit (d := 0) rfl (by decide),
      TextStyle.scan?_digit (d := 0) rfl (by decide),
      TextStyle.scan?_digit (hexValue?_hexDigit _) (by decide)]
    have hhigh : ((0 * 16 + 0) * 16 + 0) * 16 + c.toNat / 16 % 16 = c.toNat / 16 := by omega
    rw [hhigh]
    exact TextStyle.scan?_lastDigit (hexValue?_hexDigit _) hc cs

end Escaped

section Quoted

variable {rest : List Char}

-- Behind a run that is too short to close.
theorem Escaped.scan?_marks {c : Char} {out : List Char} {n : Nat} (h : Escaped true c out)
    (hn : n < 3) (cs : List Char) :
    TextStyle.scan? ⟨'"', true⟩ (.marks n) (out ++ cs) =
      (TextStyle.scan? ⟨'"', true⟩ (.marks 0) cs).map
        (prepended (List.replicate n '"' ++ [c])) := by
  have hplain := h.scan? cs
  obtain ⟨d, more, rfl, hd, -⟩ := h.exists_eq_cons
  rw [List.cons_append, TextStyle.scan?_marks hn hd, ← List.cons_append, hplain,
    TextStyle.scan?_plain_eq_marks rfl, map_prepended_prepended]

theorem escaped_quote (long : Bool) : Escaped long '"' ['\\', '"'] :=
  .letter (by decide) (by decide) rfl

theorem scan?_escapeAll_short (cs rest : List Char) (n : Nat) :
    TextStyle.scan? ⟨'"', false⟩ .plain (escapeAll false n cs ++ '"' :: rest) =
      some (cs, rest) := by
  induction cs generalizing n with
  | nil => exact TextStyle.scan?_end (s := ⟨'"', false⟩) rfl rest
  | cons c cs ih =>
    unfold escapeAll
    split
    · rename_i hc
      subst hc
      show TextStyle.scan? _ .plain (['\\', '"'] ++ (escapeAll false 0 cs ++ '"' :: rest)) = _
      rw [(escaped_quote false).scan?, ih]
      rfl
    · rename_i hc
      rw [List.append_assoc, (escaped_escape false hc).scan?, ih]
      rfl

theorem scan?_escapeAll_long (hrest : rest.head? ≠ some '"') (cs : List Char) {n : Nat}
    (hn : n ≤ 2) :
    TextStyle.scan? ⟨'"', true⟩ (.marks n)
        (escapeAll true n cs ++ (List.replicate 3 '"' ++ rest)) =
      some (List.replicate n '"' ++ cs, rest) := by
  induction cs generalizing n with
  | nil =>
    rw [List.append_nil]
    exact TextStyle.scan?_close hn hrest
  | cons c cs ih =>
    unfold escapeAll
    split
    · rename_i hc
      subst hc
      by_cases hlow : n < 2
      · rw [if_pos ⟨rfl, hlow⟩, List.cons_append,
          TextStyle.scan?_mark (s := ⟨'"', true⟩) (by omega), ih (by omega),
          List.replicate_succ', List.append_assoc]
        rfl
      · rw [if_neg fun h => hlow h.2]
        show TextStyle.scan? _ _ (['\\', '"'] ++ (escapeAll true 0 cs ++ _)) = _
        rw [(escaped_quote true).scan?_marks (by omega), ih (by omega)]
        simp [prepended]
    · rename_i hc
      rw [List.append_assoc, (escaped_escape true hc).scan?_marks (by omega), ih (by omega)]
      simp [prepended]

end Quoted

/-! ## Between apostrophes -/

section Literal

variable {rest : List Char}

theorem scan?_literal_short {cs : List Char}
    (hplain : ∀ c ∈ cs, c ≠ '\'' ∧ isPlain c = true) (rest : List Char) :
    TextStyle.scan? ⟨'\'', false⟩ .plain (cs ++ '\'' :: rest) = some (cs, rest) := by
  induction cs with
  | nil => exact TextStyle.scan?_end (s := ⟨'\'', false⟩) rfl rest
  | cons c cs ih =>
    obtain ⟨⟨hmark, hc⟩, hcs⟩ := List.forall_mem_cons.mp hplain
    rw [List.cons_append, TextStyle.scan?_plain hmark (fun _ => by decide) (.inl hc), ih hcs]
    rfl

theorem le_longestRun (mark : Char) (n : Nat) (cs : List Char) : n ≤ longestRun mark n cs := by
  induction cs generalizing n with
  | nil => exact Nat.le_refl n
  | cons c cs ih =>
    unfold longestRun
    split
    · exact Nat.le_trans (Nat.le_succ n) (ih (n + 1))
    · exact Nat.le_max_left ..

theorem scan?_literal_long (hrest : rest.head? ≠ some '\'') {cs : List Char} {n : Nat}
    (hplain : ∀ c ∈ cs, isPlain c = true ∨ c = '\n') (hrun : longestRun '\'' n cs ≤ 2) :
    TextStyle.scan? ⟨'\'', true⟩ (.marks n) (cs ++ (List.replicate 3 '\'' ++ rest)) =
      some (List.replicate n '\'' ++ cs, rest) := by
  have hn : n ≤ 2 := Nat.le_trans (le_longestRun _ n cs) hrun
  induction cs generalizing n with
  | nil =>
    rw [List.append_nil]
    exact TextStyle.scan?_close hn hrest
  | cons c cs ih =>
    obtain ⟨hc, hcs⟩ := List.forall_mem_cons.mp hplain
    unfold longestRun at hrun
    split at hrun
    · rename_i hmark
      subst hmark
      have hnext : n + 1 ≤ 2 := Nat.le_trans (le_longestRun _ _ cs) hrun
      rw [List.cons_append, TextStyle.scan?_mark (s := ⟨'\'', true⟩) (by omega),
        ih hcs hrun hnext, List.replicate_succ', List.append_assoc]
      rfl
    · rename_i hmark
      have hback : longestRun '\'' 0 cs ≤ 2 := Nat.le_trans (Nat.le_max_right ..) hrun
      rw [List.cons_append, TextStyle.scan?_marks (by omega) hmark,
        TextStyle.scan?_plain hmark (fun _ => by decide) (hc.imp id fun h => ⟨h, rfl⟩),
        TextStyle.scan?_plain_eq_marks rfl, ih hcs hback (by omega)]
      simp [prepended]

theorem notMem_of_longestRun {mark : Char} {n : Nat} {cs : List Char}
    (hrun : longestRun mark n cs = 0) : mark ∉ cs := by
  induction cs generalizing n with
  | nil => exact List.not_mem_nil
  | cons c cs ih =>
    unfold longestRun at hrun
    split at hrun
    · have hle := le_longestRun mark (n + 1) cs
      omega
    · rename_i hc
      simp only [List.mem_cons, not_or]
      exact ⟨fun h => hc h.symm, ih (n := 0) (by omega)⟩

end Literal

/-! ## Whole strings -/

/-- When a text can be put between marks: with escapes in any case, as long as no line break stands
between single marks, and without them if all of it can stand for itself. -/
inductive Suits (cs : List Char) : TextStyle → Prop
  | escaped {long : Bool} (hbreak : '\n' ∈ cs → long = true) : Suits cs ⟨'"', long⟩
  | short (hplain : ∀ c ∈ cs, c ≠ '\'' ∧ isPlain c = true) : Suits cs ⟨'\'', false⟩
  | long (hplain : ∀ c ∈ cs, isPlain c = true ∨ c = '\n') (hrun : longestRun '\'' 0 cs ≤ 2) :
      Suits cs ⟨'\'', true⟩

theorem suits_styleFor (cs : List Char) : Suits cs (styleFor cs) := by
  have hplain : (cs.all fun c => isPlain c || c == '\n') = true →
      ∀ c ∈ cs, isPlain c = true ∨ c = '\n' := by
    simp
  unfold styleFor
  extract_lets plain unescaped broken
  split
  · rename_i h
    exact .escaped fun hbreak => by simp [broken, hbreak] at h
  split
  · rename_i h
    obtain ⟨hall, hbreak, hrun⟩ := h
    refine .short fun c hc => ⟨?_, ?_⟩
    · rintro rfl
      exact notMem_of_longestRun hrun hc
    · rcases hplain hall c hc with h | rfl
      · exact h
      · simp [broken, hc] at hbreak
  split
  · exact .escaped fun _ => rfl
  split
  · rename_i h
    exact .long (hplain h.1) h.2
  · exact .escaped fun hbreak => List.contains_iff_mem.mpr hbreak

section Whole

variable {mark : Char} {rest : List Char}

theorem text?_single (hmark : mark = '"' ∨ mark = '\'') {cs : List Char}
    (hcs : ∀ more, cs ≠ mark :: mark :: more) :
    text? (mark :: cs) = TextStyle.scan? ⟨mark, false⟩ .plain cs := by
  have hshort : shortText? (mark :: cs) = TextStyle.scan? ⟨mark, false⟩ .plain cs := if_pos hmark
  match cs with
  | [] => exact hshort
  | [_] => exact hshort
  | b :: c :: cs =>
    rw [← hshort]
    unfold text?
    refine if_neg fun ⟨hb, hc, _⟩ => ?_
    subst hb hc
    exact hcs cs rfl

theorem text?_triple (hmark : mark = '"' ∨ mark = '\'') {cs : List Char}
    (hcs : cs.head? ≠ some '\n') :
    text? (mark :: mark :: mark :: cs) = TextStyle.scan? ⟨mark, true⟩ .plain cs := by
  show (if mark = mark ∧ mark = mark ∧ _ then _ else _) = _
  rw [if_pos ⟨rfl, rfl, hmark⟩]
  split
  · exact absurd rfl hcs
  · rfl

theorem text?_triple_break (hmark : mark = '"' ∨ mark = '\'') (cs : List Char) :
    text? (mark :: mark :: mark :: '\n' :: cs) = TextStyle.scan? ⟨mark, true⟩ .plain cs := by
  show (if mark = mark ∧ mark = mark ∧ _ then _ else _) = _
  rw [if_pos ⟨rfl, rfl, hmark⟩]
  rfl

theorem head?_escapeAll {long : Bool} {n : Nat} {cs : List Char} {d : Char}
    (h : (escapeAll long n cs).head? = some d) :
    d = '"' ∧ long = true ∨ d = '\\' ∨ d ∈ cs ∧ d ≠ '"' := by
  cases cs with
  | nil => simp [escapeAll] at h
  | cons c cs =>
    unfold escapeAll at h
    split at h
    · split at h
      · rename_i hlong
        exact .inl ⟨(Option.some.inj h).symm, hlong.1⟩
      · exact .inr (.inl (Option.some.inj h).symm)
    · rename_i hc
      obtain ⟨e, more, hout, hquote, he⟩ := (escaped_escape long hc).exists_eq_cons
      rw [hout] at h
      obtain rfl : e = d := Option.some.inj h
      rcases he with rfl | rfl
      · exact .inr (.inr ⟨List.mem_cons_self, hquote⟩)
      · exact .inr (.inl rfl)

theorem text?_short (hmark : mark = '"' ∨ mark = '\'') {cs body : List Char}
    (hbody : body.head? ≠ some mark) (hrest : rest.head? ≠ some mark)
    (hscan : TextStyle.scan? ⟨mark, false⟩ .plain (body ++ mark :: rest) = some (cs, rest)) :
    text? (mark :: (body ++ mark :: rest)) = some (cs, rest) := by
  -- What is read does not run into the closing mark.
  have hne : ∀ more, body ++ mark :: rest ≠ mark :: mark :: more := by
    intro more h
    cases body with
    | nil => exact hrest (congrArg List.head? (List.cons.inj h).2)
    | cons b body => exact hbody (congrArg some (List.cons.inj h).1)
  rw [text?_single hmark hne, hscan]

theorem text?_long (hmark : mark = '"' ∨ mark = '\'') {cs body : List Char}
    (hbody : '\n' ∉ cs → body.head? ≠ some '\n')
    (hscan : TextStyle.scan? ⟨mark, true⟩ (.marks 0) (body ++ (List.replicate 3 mark ++ rest)) =
      some (cs, rest)) :
    text? ((if cs.contains '\n' then List.replicate 3 mark ++ ['\n'] else List.replicate 3 mark) ++
      body ++ List.replicate 3 mark ++ rest) = some (cs, rest) := by
  rw [← TextStyle.scan?_plain_eq_marks rfl] at hscan
  simp only [List.contains_iff_mem, List.append_assoc]
  split
  · exact (text?_triple_break hmark _).trans hscan
  · rename_i hnone
    have hhead : (body ++ (List.replicate 3 mark ++ rest)).head? ≠ some '\n' := by
      cases body with
      | nil =>
        show some mark ≠ some '\n'
        rcases hmark with rfl | rfl <;> decide
      | cons b body => exact hbody hnone
    exact (text?_triple hmark hhead).trans hscan

def quoteIn (style : TextStyle) (cs : List Char) : List Char :=
  let marks := List.replicate (if style.long then 3 else 1) style.mark
  (if cs.contains '\n' then marks ++ ['\n'] else marks) ++
    (if style.mark = '"' then escapeAll style.long 0 cs else cs) ++ marks

theorem Suits.text?_quoteIn {cs : List Char} {style : TextStyle} (h : Suits cs style)
    (hquote : rest.head? ≠ some '"') (hapos : rest.head? ≠ some '\'') :
    text? (quoteIn style cs ++ rest) = some (cs, rest) := by
  -- Nothing that opens the text may be taken for one more mark or for a line break.
  cases h with
  | @escaped long hbreak =>
    cases long with
    | false =>
      have hnone : '\n' ∉ cs := fun h => Bool.false_ne_true (hbreak h)
      have hhead : (escapeAll false 0 cs).head? ≠ some '"' := by
        intro h
        rcases head?_escapeAll h with h | h | h
        · exact Bool.false_ne_true h.2
        · exact absurd h (by decide)
        · exact h.2 rfl
      have htext := text?_short (.inl rfl) hhead hquote (scan?_escapeAll_short cs rest 0)
      simpa [quoteIn, hnone] using htext
    | true =>
      have hhead : '\n' ∉ cs → (escapeAll true 0 cs).head? ≠ some '\n' := by
        intro hnone h
        rcases head?_escapeAll h with h | h | h
        · exact absurd h.1 (by decide)
        · exact absurd h (by decide)
        · exact hnone h.1
      exact text?_long (.inl rfl) hhead (scan?_escapeAll_long hquote cs (Nat.zero_le 2))
  | short hplain =>
    have hnone : '\n' ∉ cs := fun h => absurd (hplain _ h).2 (by decide)
    have hhead : cs.head? ≠ some '\'' := fun h => (hplain _ (List.mem_of_mem_head? h)).1 rfl
    have htext := text?_short (.inr rfl) hhead hapos (scan?_literal_short hplain rest)
    simpa [quoteIn, hnone] using htext
  | long hplain hrun =>
    have hhead : '\n' ∉ cs → cs.head? ≠ some '\n' := fun hnone h =>
      hnone (List.mem_of_mem_head? h)
    exact text?_long (.inr rfl) hhead (scan?_literal_long hapos hplain hrun)

theorem exists_quote_eq_cons (s : String) :
    ∃ mark more, quote s = mark :: more ∧ (mark = '"' ∨ mark = '\'') := by
  have hsuits := suits_styleFor s.toList
  show ∃ mark more, quoteIn (styleFor s.toList) s.toList = mark :: more ∧ _
  have hopen : ∀ style cs, ∃ more, quoteIn style cs = style.mark :: more := by
    intro style cs
    unfold quoteIn
    cases style.long <;> cases cs.contains '\n' <;> exact ⟨_, rfl⟩
  obtain ⟨more, hmore⟩ := hopen (styleFor s.toList) s.toList
  refine ⟨_, more, hmore, ?_⟩
  generalize styleFor s.toList = style at hsuits
  cases hsuits with
  | escaped => exact .inl rfl
  | short => exact .inr rfl
  | long => exact .inr rfl

/-- A text is read back from its marks. -/
theorem text?_quote (s : String) (hquote : rest.head? ≠ some '"')
    (hapos : rest.head? ≠ some '\'') : text? (quote s ++ rest) = some (s.toList, rest) :=
  (suits_styleFor s.toList).text?_quoteIn hquote hapos

end Whole

/-! ## Carriage returns -/

theorem Escaped.return_notMem {long : Bool} {c : Char} {out : List Char} (h : Escaped long c out) :
    '\r' ∉ out := by
  have hdigit : ∀ n, '\r' ≠ hexDigit n := by
    intro n h
    have hvalue := hexValue?_hexDigit n
    rw [← h] at hvalue
    exact absurd hvalue (by simp [hexValue?])
  cases h with
  | plain _ _ hplain =>
    rintro (_ | ⟨_, ⟨⟩⟩)
    rcases hplain with h | h
    · exact absurd h (by decide)
    · exact absurd h.1 (by decide)
  | letter _ _ hletter =>
    rintro (_ | ⟨_, _ | ⟨_, ⟨⟩⟩⟩)
    exact absurd hletter (by simp [unescape?])
  | unit => simp [hdigit]

theorem return_notMem_escapeAll (long : Bool) (n : Nat) (cs : List Char) :
    '\r' ∉ escapeAll long n cs := by
  induction cs generalizing n with
  | nil => exact List.not_mem_nil
  | cons c cs ih =>
    unfold escapeAll
    split
    · split <;> simp [ih]
    · rename_i hc
      simp [ih, (escaped_escape long hc).return_notMem]

theorem return_notMem_quote (s : String) : '\r' ∉ quote s := by
  have hsuits := suits_styleFor s.toList
  show '\r' ∉ quoteIn (styleFor s.toList) s.toList
  generalize styleFor s.toList = style at hsuits ⊢
  generalize s.toList = cs at hsuits ⊢
  have hbody : '\r' ∉ if style.mark = '"' then escapeAll style.long 0 cs else cs := by
    cases hsuits with
    | escaped => exact return_notMem_escapeAll _ 0 cs
    | short hplain => exact fun h => absurd (hplain _ h).2 (by decide)
    | long hplain => exact fun h => absurd (hplain _ h) (by decide)
  have hmark : '\r' ≠ style.mark := by
    cases hsuits with
    | escaped => show '\r' ≠ '"'; decide
    | short => decide
    | long => decide
  unfold quoteIn
  simp only [List.mem_append, not_or]
  refine ⟨⟨?_, hbody⟩, ?_⟩
  · split <;> simp [hmark]
  · simp [hmark]

end GameWire.Toml
