import GameWire.Proofs.Serial.Json.Grammar
import Mathlib.Data.List.Basic

/-!
# JSON texts are read

The reader takes a text of the grammar off the front of anything that may follow a value, and it
takes nothing else off. So the whole texts that it accepts are exactly those of the grammar.
-/

namespace GameWire.Json

/-! ## Containers -/

section Containers

variable {item : Bytes → Option (Tree × Bytes)}

/-- Whether a reader takes a text off the front of what follows it, except for blanks, and finds
`t` in it. -/
def Takes (item : Bytes → Option (Tree × Bytes)) (text : Bytes) (t : Tree) : Prop :=
  ∀ rest, Ends rest → ∃ after, Blanks after ∧ item (text ++ rest) = some (t, after ++ rest)

theorem takes_of_eq {text : Bytes} {t : Tree}
    (h : ∀ rest, Ends rest → item (text ++ rest) = some (t, rest)) : Takes item text t :=
  fun rest hrest => ⟨[], blanks_nil, h rest hrest⟩

/-- Whether a reader takes nothing off but texts that spell what it finds. -/
def TakesSpelled (item : Bytes → Option (Tree × Bytes)) : Prop :=
  ∀ bs t rest, item bs = some (t, rest) → ∃ text, Spells text t ∧ bs = text ++ rest

theorem intercalate_cons_append (part : Bytes) {parts : List Bytes} (hne : parts ≠ [])
    (rest : Bytes) :
    [0x2C].intercalate (part :: parts) ++ rest =
      part ++ 0x2C :: ([0x2C].intercalate parts ++ rest) := by
  obtain ⟨next, parts, rfl⟩ := List.exists_cons_of_ne_nil hne
  rw [List.intercalate_cons_cons, List.append_assoc, List.append_assoc]
  rfl

theorem length_le_length_intercalate {part : Bytes} {parts : List Bytes} (h : part ∈ parts) :
    part.length ≤ ([0x2C].intercalate parts).length := by
  induction parts with
  | nil => cases h
  | cons first parts ih =>
    by_cases hlast : parts = []
    · subst hlast
      rw [List.mem_singleton.1 h, List.intercalate_singleton]
    · have hlength := congrArg List.length (intercalate_cons_append first hlast [])
      simp only [List.append_nil, List.length_append, List.length_cons] at hlength
      rcases List.mem_cons.1 h with rfl | h
      · omega
      · have := ih h
        omega

/-- Behind the first of several parts stands a comma or what closes them, and there are at least as
many bytes from there as there are parts. -/
theorem exists_intercalate_eq (part : Bytes) (parts : List Bytes) {close : UInt8}
    (hclose : isBlank close = false) (rest : Bytes) :
    ∃ mark tail, isBlank mark = false ∧ parts.length ≤ tail.length ∧
      [0x2C].intercalate (part :: parts) ++ close :: rest = part ++ mark :: tail := by
  induction parts generalizing part with
  | nil => exact ⟨close, rest, hclose, Nat.zero_le _, by rw [List.intercalate_singleton]⟩
  | cons next parts ih =>
    obtain ⟨mark, tail, -, hlength, htail⟩ := ih next
    refine ⟨0x2C, next ++ mark :: tail, rfl, ?_, ?_⟩
    · rw [List.length_append, List.length_cons, List.length_cons]
      omega
    · rw [intercalate_cons_append part (List.cons_ne_nil _ _), htail]

-- So the parts are within the limit of the reader.
theorem length_le_length_skipBlanks {parts : List Bytes} (hne : parts ≠ []) {close : UInt8}
    (hclose : isBlank close = false) (rest : Bytes) :
    parts.length ≤ (skipBlanks ([0x2C].intercalate parts ++ close :: rest)).length := by
  obtain ⟨part, parts, rfl⟩ := List.exists_cons_of_ne_nil hne
  obtain ⟨mark, tail, hmark, hlength, htail⟩ := exists_intercalate_eq part parts hclose rest
  have hskip := length_lt_length_skipBlanks hmark part tail
  rw [htail, List.length_cons]
  omega

/-- An item is followed by the end of the list, or by a comma and the other items. -/
theorem readItems?_succ_eq_some_iff {limit : Nat} {bs rest : Bytes} {ts : List Tree} :
    readItems? item (limit + 1) bs = some (ts, rest) ↔
      ∃ t behind, item bs = some (t, behind) ∧
        (skipBlanks behind = 0x5D :: rest ∧ ts = [t] ∨
          ∃ more others, skipBlanks behind = 0x2C :: more ∧
            readItems? item limit more = some (others, rest) ∧ ts = t :: others) := by
  rw [readItems?]
  simp only [bind, Option.bind_eq_some_iff, Prod.exists]
  refine exists_congr fun t => exists_congr fun behind => and_congr_right fun _ => ?_
  split
  · rename_i more heq
    simp [heq, Option.bind_eq_some_iff, eq_comm (a := ts)]
  · rename_i more heq
    simp [heq, and_comm, eq_comm]
  · rename_i hcomma hclose
    constructor
    · intro h
      cases h
    · rintro (⟨h, -⟩ | ⟨more, others, h, -⟩)
      · exact (hclose _ h).elim
      · exact (hcomma _ h).elim

theorem readItems?_intercalate {items : List (Bytes × Tree)} (hne : items ≠ [])
    (h : ∀ i ∈ items, Takes item i.1 i.2) {limit : Nat} (hl : items.length ≤ limit)
    (rest : Bytes) :
    readItems? item limit ([0x2C].intercalate (items.map Prod.fst) ++ 0x5D :: rest) =
      some (items.map Prod.snd, rest) := by
  induction items generalizing limit with
  | nil => exact absurd rfl hne
  | cons i items ih =>
    obtain ⟨limit, rfl⟩ := Nat.exists_eq_add_of_le' (Nat.lt_of_lt_of_le (Nat.succ_pos _) hl)
    rw [readItems?_succ_eq_some_iff]
    cases items with
    | nil =>
      obtain ⟨after, hafter, hi⟩ := h i List.mem_cons_self (0x5D :: rest) (ends_cons (by decide) _)
      refine ⟨i.2, after ++ 0x5D :: rest, ?_, .inl ⟨?_, rfl⟩⟩
      · rw [List.map_singleton, List.intercalate_singleton, hi]
      · rw [hafter.skipBlanks_append, skipBlanks_cons rfl]
    | cons next items =>
      obtain ⟨after, hafter, hi⟩ := h i List.mem_cons_self
        (0x2C :: ([0x2C].intercalate ((next :: items).map Prod.fst) ++ 0x5D :: rest))
        (ends_cons (by decide) _)
      have hothers := ih (by simp) (fun j hj => h j (List.mem_cons_of_mem _ hj))
        (Nat.le_of_succ_le_succ hl)
      rw [List.map_cons, intercalate_cons_append _ (by simp)]
      exact ⟨i.2, _, hi, .inr ⟨_, _, by rw [hafter.skipBlanks_append, skipBlanks_cons rfl],
        hothers, rfl⟩⟩

theorem items_of_readItems? (hitem : TakesSpelled item) {limit : Nat} {bs rest : Bytes}
    {ts : List Tree} (h : readItems? item limit bs = some (ts, rest)) :
    ∃ items : List (Bytes × Tree), items ≠ [] ∧ (∀ i ∈ items, Spells i.1 i.2) ∧
      ts = items.map Prod.snd ∧ bs = [0x2C].intercalate (items.map Prod.fst) ++ 0x5D :: rest := by
  induction limit generalizing bs ts with
  | zero => cases h
  | succ limit ih =>
    obtain ⟨t, behind, hread, hend⟩ := readItems?_succ_eq_some_iff.1 h
    obtain ⟨text, hspells, rfl⟩ := hitem bs t behind hread
    obtain ⟨after, hafter, hbehind⟩ := exists_eq_append_skipBlanks behind
    have hpadded : Spells (text ++ after) t := .padded blanks_nil hafter hspells
    rcases hend with ⟨hclose, rfl⟩ | ⟨more, others, hcomma, hmore, rfl⟩
    · refine ⟨[(text ++ after, t)], by simp, by simpa using hpadded, rfl, ?_⟩
      rw [hbehind, hclose, List.map_singleton, List.intercalate_singleton, List.append_assoc]
    · obtain ⟨items, hne, hitems, rfl, rfl⟩ := ih hmore
      refine ⟨(text ++ after, t) :: items, by simp, ?_, rfl, ?_⟩
      · exact List.forall_mem_cons.2 ⟨hpadded, hitems⟩
      · rw [hbehind, hcomma, List.map_cons, intercalate_cons_append _ (by simpa using hne),
          List.append_assoc]

/-- A member is followed by the end of the object, or by a comma and the other members. -/
theorem readEntries?_succ_eq_some_iff {limit : Nat} {bs rest : Bytes}
    {entries : List (Tree × Tree)} :
    readEntries? item (limit + 1) bs = some (entries, rest) ↔
      ∃ literal colon value t behind, Literal literal ∧
        skipBlanks bs = 0x22 :: (literal ++ 0x22 :: colon) ∧ skipBlanks colon = 0x3A :: value ∧
        item value = some (t, behind) ∧
          (skipBlanks behind = 0x7D :: rest ∧ entries = [(stringTree literal, t)] ∨
            ∃ more others, skipBlanks behind = 0x2C :: more ∧
              readEntries? item limit more = some (others, rest) ∧
              entries = (stringTree literal, t) :: others) := by
  constructor
  · intro h
    rw [readEntries?] at h
    split at h
    · rename_i quoted hquote
      obtain ⟨⟨key, colon⟩, hkey, h⟩ := Option.bind_eq_some_iff.1 h
      obtain ⟨literal, hliteral, rfl, rfl⟩ := literal_of_readString? hkey
      dsimp only at h
      split at h
      · rename_i value hcolon
        obtain ⟨⟨t, behind⟩, hread, h⟩ := Option.bind_eq_some_iff.1 h
        refine ⟨literal, colon, value, t, behind, hliteral, hquote, hcolon, hread, ?_⟩
        dsimp only at h
        split at h
        · rename_i more hcomma
          obtain ⟨⟨others, last⟩, hmore, hp⟩ := Option.bind_eq_some_iff.1 h
          cases hp
          exact .inr ⟨more, others, hcomma, hmore, rfl⟩
        · rename_i hclose
          cases h
          exact .inl ⟨hclose, rfl⟩
        · cases h
      · cases h
    · cases h
  · rintro ⟨literal, colon, value, t, behind, hliteral, hquote, hcolon, hread, hend⟩
    rw [readEntries?]
    simp only [hquote, hliteral.readString?, hcolon, hread, bind, Option.bind]
    rcases hend with ⟨hclose, rfl⟩ | ⟨more, others, hcomma, hmore, rfl⟩
    · simp only [hclose]
    · simp only [hcomma, hmore]

theorem readEntries?_intercalate {members : List Member} (hne : members ≠ [])
    (h : ∀ m ∈ members, Takes item m.value m.tree) {limit : Nat} (hl : members.length ≤ limit)
    (rest : Bytes) :
    readEntries? item limit ([0x2C].intercalate (members.map Member.bytes) ++ 0x7D :: rest) =
      some (members.map Member.entry, rest) := by
  have hkey : ∀ (m : Member) (bs : Bytes), skipBlanks (m.bytes ++ bs) =
      0x22 :: (m.literal ++ 0x22 :: (m.after ++ 0x3A :: (m.value ++ bs))) := by
    intro m bs
    rw [Member.bytes, List.append_assoc, m.blanks_before.skipBlanks_append, List.cons_append,
      skipBlanks_cons rfl]
    simp only [List.append_assoc, List.cons_append]
  have hcolon : ∀ (m : Member) (bs : Bytes),
      skipBlanks (m.after ++ 0x3A :: (m.value ++ bs)) = 0x3A :: (m.value ++ bs) := by
    intro m bs
    rw [m.blanks_after.skipBlanks_append, skipBlanks_cons rfl]
  induction members generalizing limit with
  | nil => exact absurd rfl hne
  | cons m members ih =>
    obtain ⟨limit, rfl⟩ := Nat.exists_eq_add_of_le' (Nat.lt_of_lt_of_le (Nat.succ_pos _) hl)
    rw [readEntries?_succ_eq_some_iff]
    by_cases hlast : members = []
    · subst hlast
      obtain ⟨after, hafter, hm⟩ := h m List.mem_cons_self (0x7D :: rest) (ends_cons (by decide) _)
      rw [List.map_singleton, List.intercalate_singleton]
      exact ⟨m.literal, _, _, m.tree, _, m.isLiteral, hkey m _, hcolon m _, hm,
        .inl ⟨by rw [hafter.skipBlanks_append, skipBlanks_cons rfl], rfl⟩⟩
    · obtain ⟨after, hafter, hm⟩ := h m List.mem_cons_self
        (0x2C :: ([0x2C].intercalate (members.map Member.bytes) ++ 0x7D :: rest))
        (ends_cons (by decide) _)
      have hothers := ih hlast (fun n hn => h n (List.mem_cons_of_mem _ hn))
        (Nat.le_of_succ_le_succ hl)
      rw [List.map_cons, intercalate_cons_append _ (by simpa using hlast)]
      exact ⟨m.literal, _, _, m.tree, _, m.isLiteral, hkey m _, hcolon m _, hm,
        .inr ⟨_, _, by rw [hafter.skipBlanks_append, skipBlanks_cons rfl], hothers, rfl⟩⟩

theorem members_of_readEntries? (hitem : TakesSpelled item) {limit : Nat} {bs rest : Bytes}
    {entries : List (Tree × Tree)} (h : readEntries? item limit bs = some (entries, rest)) :
    ∃ members : List Member, members ≠ [] ∧ (∀ m ∈ members, Spells m.value m.tree) ∧
      entries = members.map Member.entry ∧
      bs = [0x2C].intercalate (members.map Member.bytes) ++ 0x7D :: rest := by
  induction limit generalizing bs entries with
  | zero => cases h
  | succ limit ih =>
    obtain ⟨literal, colon, value, t, behind, hliteral, hquote, hcolon, hread, hend⟩ :=
      readEntries?_succ_eq_some_iff.1 h
    obtain ⟨text, hspells, rfl⟩ := hitem value t behind hread
    obtain ⟨before, hbefore, hbs⟩ := exists_eq_append_skipBlanks bs
    obtain ⟨between, hbetween, hcolons⟩ := exists_eq_append_skipBlanks colon
    obtain ⟨after, hafter, hbehind⟩ := exists_eq_append_skipBlanks behind
    have hpadded : Spells (text ++ after) t := .padded blanks_nil hafter hspells
    let m : Member := ⟨before, literal, between, text ++ after, t, hbefore, hliteral, hbetween⟩
    have hm : bs = m.bytes ++ skipBlanks behind := by
      simp only [m, Member.bytes, List.append_assoc, List.cons_append]
      rw [← hbehind, ← hcolon, ← hcolons, ← hquote, ← hbs]
    rcases hend with ⟨hclose, rfl⟩ | ⟨more, others, hcomma, hmore, rfl⟩
    · refine ⟨[m], by simp, by simpa using hpadded, rfl, ?_⟩
      rw [hm, hclose, List.map_singleton, List.intercalate_singleton]
    · obtain ⟨members, hne, hmembers, rfl, rfl⟩ := ih hmore
      refine ⟨m :: members, by simp, List.forall_mem_cons.2 ⟨hpadded, hmembers⟩, rfl, ?_⟩
      rw [hm, hcomma, List.map_cons, intercalate_cons_append _ (by simpa using hne)]

theorem readItems?_skipBlanks (hitem : ∀ bs, item (skipBlanks bs) = item bs) (limit : Nat)
    (bs : Bytes) : readItems? item limit (skipBlanks bs) = readItems? item limit bs := by
  cases limit with
  | zero => rfl
  | succ limit => rw [readItems?, readItems?, hitem]

theorem readEntries?_skipBlanks (limit : Nat) (bs : Bytes) :
    readEntries? item limit (skipBlanks bs) = readEntries? item limit bs := by
  cases limit with
  | zero => rfl
  | succ limit => rw [readEntries?, readEntries?, skipBlanks_skipBlanks]

end Containers

/-! ## Values -/

section Values

variable (depth : Nat)

theorem readValue?_skipBlanks (bs : Bytes) :
    readValue? depth (skipBlanks bs) = readValue? depth bs := by
  cases depth with
  | zero => rfl
  | succ depth => rw [readValue?, readValue?, skipBlanks_skipBlanks]

theorem readValue?_string (bs : Bytes) : readValue? (depth + 1) (0x22 :: bs) = readString? bs := by
  rw [readValue?]
  rfl

theorem readValue?_negative (bs : Bytes) :
    readValue? (depth + 1) (0x2D :: bs) =
      (readUnsigned? bs).map fun (_, rest) => (.other, rest) := by
  rw [readValue?]
  rfl

theorem isDigit_opens {d : UInt8} (hd : isDigit d = true) :
    isBlank d = false ∧ d ≠ 0x22 ∧ d ≠ 0x7B ∧ d ≠ 0x5B ∧ d ≠ 0x2D := by
  have hne : ∀ b, isDigit b = false → d ≠ b := by
    intro b hb h
    rw [← h, hd] at hb
    cases hb
  refine ⟨?_, hne _ rfl, hne _ rfl, hne _ rfl, hne _ rfl⟩
  simp only [isBlank, beq_eq_false_iff_ne.2 (hne 0x20 rfl), beq_eq_false_iff_ne.2 (hne 0x09 rfl),
    beq_eq_false_iff_ne.2 (hne 0x0A rfl), beq_eq_false_iff_ne.2 (hne 0x0D rfl), Bool.or_self]

theorem readValue?_number {d : UInt8} (hd : isDigit d = true) (bs : Bytes) :
    readValue? (depth + 1) (d :: bs) = readUnsigned? (d :: bs) := by
  obtain ⟨hblank, hquote, hbrace, hbracket, hminus⟩ := isDigit_opens hd
  rw [readValue?]
  simp only [skipBlanks_cons hblank, hquote, hbrace, hbracket, hminus, hd, if_false, if_true]

theorem readValue?_list (bs : Bytes) :
    readValue? (depth + 1) (0x5B :: bs) =
      if (skipBlanks bs).head? = some 0x5D then some (.list [], (skipBlanks bs).tail)
      else (readItems? (readValue? depth) (skipBlanks bs).length bs).map
        fun (items, rest) => (.list items, rest) := by
  have hopen : skipBlanks (0x5B :: bs) = 0x5B :: bs := skipBlanks_cons rfl bs
  rw [readValue?, ← readItems?_skipBlanks (readValue?_skipBlanks depth)]
  simp only [hopen, show ¬ (0x5B : UInt8) = 0x22 by decide, show ¬ (0x5B : UInt8) = 0x7B by decide,
    if_false, if_true]
  split
  · rename_i rest hclose
    rw [hclose]
    rfl
  · rename_i hclose
    exact (if_neg fun h => (List.head?_eq_some_iff.1 h).elim hclose).symm

theorem readValue?_object (bs : Bytes) :
    readValue? (depth + 1) (0x7B :: bs) =
      if (skipBlanks bs).head? = some 0x7D then some (.table [], (skipBlanks bs).tail)
      else (readEntries? (readValue? depth) (skipBlanks bs).length bs).map
        fun (entries, rest) => (.table entries, rest) := by
  have hopen : skipBlanks (0x7B :: bs) = 0x7B :: bs := skipBlanks_cons rfl bs
  rw [readValue?, ← readEntries?_skipBlanks]
  simp only [hopen, show ¬ (0x7B : UInt8) = 0x22 by decide, if_false, if_true]
  split
  · rename_i rest hclose
    rw [hclose]
    rfl
  · rename_i hclose
    exact (if_neg fun h => (List.head?_eq_some_iff.1 h).elim hclose).symm

/-- A closing bracket or brace opens neither a value nor a member. -/
theorem readItems?_close (limit : Nat) (rest : Bytes) :
    readItems? (readValue? depth) limit (0x5D :: rest) = none := by
  cases limit with
  | zero => rfl
  | succ limit => cases depth <;> rfl

theorem readEntries?_close (limit : Nat) (rest : Bytes) :
    readEntries? (readValue? depth) limit (0x7D :: rest) = none := by
  cases limit <;> rfl

theorem takes_list {items : List (Bytes × Tree)} (hne : items ≠ [])
    (h : ∀ i ∈ items, Takes (readValue? depth) i.1 i.2) :
    Takes (readValue? (depth + 1)) (0x5B :: ([0x2C].intercalate (items.map Prod.fst) ++ [0x5D]))
      (.list (items.map Prod.snd)) := by
  refine takes_of_eq fun rest _ => ?_
  have hlimit : (items.map Prod.fst).length ≤
      (skipBlanks ([0x2C].intercalate (items.map Prod.fst) ++ 0x5D :: rest)).length :=
    length_le_length_skipBlanks (by simpa using hne) rfl rest
  rw [List.length_map] at hlimit
  have hread := readItems?_intercalate hne h hlimit rest
  rw [List.cons_append, readValue?_list, List.append_assoc, List.singleton_append, hread]
  refine if_neg fun hclose => ?_
  obtain ⟨behind, hbehind⟩ := List.head?_eq_some_iff.1 hclose
  rw [← readItems?_skipBlanks (readValue?_skipBlanks depth), hbehind, readItems?_close] at hread
  cases hread

theorem takes_object {members : List Member} (hne : members ≠ [])
    (h : ∀ m ∈ members, Takes (readValue? depth) m.value m.tree) :
    Takes (readValue? (depth + 1))
      (0x7B :: ([0x2C].intercalate (members.map Member.bytes) ++ [0x7D]))
      (.table (members.map Member.entry)) := by
  refine takes_of_eq fun rest _ => ?_
  have hlimit : (members.map Member.bytes).length ≤
      (skipBlanks ([0x2C].intercalate (members.map Member.bytes) ++ 0x7D :: rest)).length :=
    length_le_length_skipBlanks (by simpa using hne) rfl rest
  rw [List.length_map] at hlimit
  have hread := readEntries?_intercalate hne h hlimit rest
  rw [List.cons_append, readValue?_object, List.append_assoc, List.singleton_append, hread]
  refine if_neg fun hclose => ?_
  obtain ⟨behind, hbehind⟩ := List.head?_eq_some_iff.1 hclose
  rw [← readEntries?_skipBlanks, hbehind, readEntries?_close] at hread
  cases hread

end Values

/-- A text is taken off the front of what may follow a value, except for the blanks at its end, if
the descent may be as deep as it is long. -/
theorem Spells.takes {text : Bytes} {t : Tree} (h : Spells text t) {depth : Nat}
    (hd : text.length ≤ depth) : Takes (readValue? (depth + 1)) text t := by
  -- Every level of the spelling takes a byte at least, so the length pays for the depth.
  induction h generalizing depth with
  | @padded before text after t hbefore hafter h ih =>
    intro rest hrest
    rw [List.length_append, List.length_append] at hd
    have htakes : Takes (readValue? (depth + 1)) text t := ih (by omega)
    obtain ⟨more, hmore, hread⟩ := htakes (after ++ rest) (hafter.ends_append hrest)
    refine ⟨more ++ after, hmore.append hafter, ?_⟩
    rw [List.append_assoc, ← readValue?_skipBlanks, hbefore.skipBlanks_append,
      readValue?_skipBlanks, List.append_assoc, hread, List.append_assoc]
  | null => exact takes_of_eq fun rest _ => rfl
  | yes => exact takes_of_eq fun rest _ => rfl
  | no => exact takes_of_eq fun rest _ => rfl
  | number n =>
    refine takes_of_eq fun rest hrest => ?_
    obtain ⟨d, ds, hds⟩ := List.exists_cons_of_ne_nil n.isDigits_whole.1
    have hd : isDigit d = true :=
      n.isDigits_whole.2 d (by rw [hds]; exact List.mem_cons_self)
    have hread := n.readUnsigned? hrest
    rw [Numeral.bytes, hds] at hread ⊢
    exact (readValue?_number depth hd _).trans hread
  | negative n =>
    refine takes_of_eq fun rest hrest => ?_
    rw [List.cons_append, readValue?_negative, n.readUnsigned? hrest]
    rfl
  | @string literal h =>
    refine takes_of_eq fun rest _ => ?_
    rw [List.cons_append, readValue?_string, List.append_assoc]
    exact h.readString? rest
  | @emptyList blanks h =>
    refine takes_of_eq fun rest _ => ?_
    rw [List.cons_append, readValue?_list, List.append_assoc, h.skipBlanks_append]
    rfl
  | @list items hne h ih =>
    obtain ⟨depth, rfl⟩ := Nat.exists_eq_add_of_le' (Nat.lt_of_lt_of_le (Nat.succ_pos _) hd)
    rw [List.length_cons, List.length_append] at hd
    refine takes_list _ hne fun i hi => ih i hi ?_
    have := length_le_length_intercalate (List.mem_map_of_mem (f := Prod.fst) hi)
    omega
  | @emptyObject blanks h =>
    refine takes_of_eq fun rest _ => ?_
    rw [List.cons_append, readValue?_object, List.append_assoc, h.skipBlanks_append]
    rfl
  | @object members hne h ih =>
    obtain ⟨depth, rfl⟩ := Nat.exists_eq_add_of_le' (Nat.lt_of_lt_of_le (Nat.succ_pos _) hd)
    rw [List.length_cons, List.length_append] at hd
    refine takes_object _ hne fun m hm => ih m hm ?_
    have := length_le_length_intercalate (List.mem_map_of_mem (f := Member.bytes) hm)
    -- The value is shorter than its member, and so much shorter than the object.
    have hvalue : m.value.length ≤ m.bytes.length := by
      simp only [Member.bytes, List.length_append, List.length_cons]
      omega
    omega

theorem spelled_of_list {depth : Nat} (hitem : TakesSpelled (readValue? depth)) {bs rest : Bytes}
    {t : Tree} (h : readValue? (depth + 1) (0x5B :: bs) = some (t, rest)) :
    ∃ text, Spells text t ∧ 0x5B :: bs = text ++ rest := by
  rw [readValue?_list] at h
  split at h
  · rename_i hclose
    obtain ⟨blanks, hblanks, hbs⟩ := exists_eq_append_skipBlanks bs
    obtain ⟨behind, hbehind⟩ := List.head?_eq_some_iff.1 hclose
    rw [hbehind] at h hbs
    cases h
    exact ⟨_, .emptyList hblanks, by rw [hbs]; simp⟩
  · obtain ⟨⟨ts, behind⟩, hread, hp⟩ := Option.map_eq_some_iff.1 h
    cases hp
    obtain ⟨items, hne, hitems, rfl, rfl⟩ := items_of_readItems? hitem hread
    exact ⟨_, .list hne hitems, by simp⟩

theorem spelled_of_object {depth : Nat} (hitem : TakesSpelled (readValue? depth))
    {bs rest : Bytes} {t : Tree} (h : readValue? (depth + 1) (0x7B :: bs) = some (t, rest)) :
    ∃ text, Spells text t ∧ 0x7B :: bs = text ++ rest := by
  rw [readValue?_object] at h
  split at h
  · rename_i hclose
    obtain ⟨blanks, hblanks, hbs⟩ := exists_eq_append_skipBlanks bs
    obtain ⟨behind, hbehind⟩ := List.head?_eq_some_iff.1 hclose
    rw [hbehind] at h hbs
    cases h
    exact ⟨_, .emptyObject hblanks, by rw [hbs]; simp⟩
  · obtain ⟨⟨entries, behind⟩, hread, hp⟩ := Option.map_eq_some_iff.1 h
    cases hp
    obtain ⟨members, hne, hmembers, rfl, rfl⟩ := members_of_readEntries? hitem hread
    exact ⟨_, .object hne hmembers, by simp⟩

theorem spelled_of_word {w : UInt8} {word bs rest : Bytes} {value t : Tree}
    (hspells : Spells (w :: word) value)
    (h : (word.isPrefixOf? bs).map (fun rest => (value, rest)) = some (t, rest)) :
    ∃ text, Spells text t ∧ w :: bs = text ++ rest := by
  obtain ⟨behind, hword, hp⟩ := Option.map_eq_some_iff.1 h
  cases hp
  exact ⟨_, hspells, by rw [← List.append_eq_of_isPrefixOf?_eq_some hword]; rfl⟩

-- The cases are those of the byte that opens the value.
theorem spelled_of_readValue? {depth : Nat} (hitem : TakesSpelled (readValue? depth)) {b : UInt8}
    {bs rest : Bytes} {t : Tree} (hblank : isBlank b = false)
    (h : readValue? (depth + 1) (b :: bs) = some (t, rest)) :
    ∃ text, Spells text t ∧ b :: bs = text ++ rest := by
  by_cases hquote : b = 0x22
  · subst hquote
    rw [readValue?_string] at h
    obtain ⟨literal, hliteral, rfl, rfl⟩ := literal_of_readString? h
    exact ⟨_, .string hliteral, by simp⟩
  by_cases hbrace : b = 0x7B
  · subst hbrace
    exact spelled_of_object hitem h
  by_cases hbracket : b = 0x5B
  · subst hbracket
    exact spelled_of_list hitem h
  by_cases hminus : b = 0x2D
  · subst hminus
    rw [readValue?_negative] at h
    obtain ⟨⟨_, behind⟩, hread, hp⟩ := Option.map_eq_some_iff.1 h
    cases hp
    obtain ⟨n, rfl, -⟩ := numeral_of_readUnsigned? hread
    exact ⟨_, .negative n, rfl⟩
  by_cases hdigit : isDigit b = true
  · rw [readValue?_number depth hdigit] at h
    obtain ⟨n, hn, rfl⟩ := numeral_of_readUnsigned? h
    exact ⟨_, .number n, hn⟩
  by_cases hnull : b = 0x6E
  · subst hnull
    exact spelled_of_word .null h
  by_cases hyes : b = 0x74
  · subst hyes
    exact spelled_of_word .yes h
  by_cases hno : b = 0x66
  · subst hno
    exact spelled_of_word .no h
  rw [readValue?] at h
  simp only [skipBlanks_cons hblank, hquote, hbrace, hbracket, hminus, hdigit, hnull, hyes, hno,
    if_false] at h
  cases h

/-- Nothing is taken off the front but texts that spell what is found. -/
theorem takesSpelled_readValue? (depth : Nat) : TakesSpelled (readValue? depth) := by
  induction depth with
  | zero =>
    intro bs t rest h
    cases h
  | succ depth ih =>
    intro bs t rest h
    obtain ⟨before, hbefore, hbs⟩ := exists_eq_append_skipBlanks bs
    rw [← readValue?_skipBlanks] at h
    cases hcore : skipBlanks bs with
    | nil =>
      rw [hcore] at h
      cases h
    | cons b core =>
      rw [hcore] at h hbs
      obtain ⟨text, hspells, htext⟩ :=
        spelled_of_readValue? ih (isBlank_of_skipBlanks_eq_cons hcore) h
      refine ⟨before ++ (text ++ []), .padded hbefore blanks_nil hspells, ?_⟩
      rw [hbs, htext, List.append_nil, List.append_assoc]

/-! ## Whole texts -/

/-- The reader accepts the texts of the grammar, for the values that they spell, and no others. -/
theorem read?_eq_some_iff {text : Bytes} {t : Tree} : read? text = some t ↔ Spells text t := by
  unfold read?
  simp only [bind, Option.bind_eq_some_iff, Prod.exists]
  constructor
  · rintro ⟨found, rest, hread, hend⟩
    obtain ⟨front, hspells, rfl⟩ := takesSpelled_readValue? _ _ _ _ hread
    split at hend
    · rename_i hblank
      cases hend
      have hrest : Blanks rest := blanks_of_skipBlanks_eq_nil (List.isEmpty_iff.1 hblank)
      exact .padded blanks_nil hrest hspells
    · cases hend
  · intro h
    obtain ⟨after, hafter, hread⟩ := h.takes (Nat.le_refl _) [] ends_nil
    rw [List.append_nil] at hread
    refine ⟨t, after ++ [], hread, if_pos ?_⟩
    rw [hafter.skipBlanks_append]
    rfl

end GameWire.Json
