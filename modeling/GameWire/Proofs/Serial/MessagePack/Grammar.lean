import GameWire.Proofs.Bytes
import GameWire.Serial.MessagePack

/-!
# The grammar of MessagePack

`Spells depth bs t` says that bytes spell the value `t`, nested at most `depth` levels deep, without
reference to the reader. The reader takes such bytes off the front of whatever follows them, and it
takes nothing else off.
-/

namespace GameWire.MessagePack

/-! ## The grammar -/

/-- How a count is announced: below `small` it is part of a marker, counted from `fix` on, and
otherwise it stands behind one of the markers in `wide`, in as many bytes as stand there. -/
structure Markers where
  fix : Nat
  small : Nat
  wide : List (UInt8 × Nat)

namespace Markers

/-- The bytes that announce a count. They need not be the shortest. -/
inductive Heads (m : Markers) (n : Nat) : Bytes → Prop
  | short (h : n < m.small) : Heads m n [UInt8.ofNat (m.fix + n)]
  | long {marker : UInt8} {width : Nat} (h : (marker, width) ∈ m.wide) (hn : n < 256 ^ width) :
      Heads m n (marker :: Bytes.be width n)

/-- A number is announced and nothing follows. -/
def numbers : Markers := ⟨0, 0x80, [(0xCC, 1), (0xCD, 2), (0xCE, 4), (0xCF, 8)]⟩

def maps : Markers := ⟨0x80, 0x10, [(0xDE, 2), (0xDF, 4)]⟩

def lists : Markers := ⟨0x90, 0x10, [(0xDC, 2), (0xDD, 4)]⟩

def texts : Markers := ⟨0xA0, 0x20, [(0xD9, 1), (0xDA, 2), (0xDB, 4)]⟩

def blobs : Markers := ⟨0, 0, [(0xC4, 1), (0xC5, 2), (0xC6, 4)]⟩

def extensions : Markers := ⟨0, 0, [(0xC7, 1), (0xC8, 2), (0xC9, 4)]⟩

end Markers

def signedMarkers : List (UInt8 × Nat) := [(0xD0, 1), (0xD1, 2), (0xD2, 4), (0xD3, 8)]

/-- The markers of values that no field takes, and how many bytes follow them: truth values,
fractions and extensions of fixed size. -/
def otherMarkers : List (UInt8 × Nat) :=
  [(0xC2, 0), (0xC3, 0), (0xCA, 4), (0xCB, 8), (0xD4, 2), (0xD5, 3), (0xD6, 5), (0xD7, 9),
    (0xD8, 17)]

def signedTree (width n : Nat) : Tree := if n < 256 ^ width / 2 then .number n false else .other

def textTree (content : Bytes) : Tree := (Utf8.decode? content).elim .garbled .text

/-- One entry of a map, where `key` and `value` are said to spell `keyTree` and `valueTree`. -/
structure Entry where
  key : Bytes
  keyTree : Tree
  value : Bytes
  valueTree : Tree

namespace Entry

def bytes (e : Entry) : Bytes := e.key ++ e.value

def tree (e : Entry) : Tree × Tree := (e.keyTree, e.valueTree)

end Entry

inductive Spells : (depth : Nat) → Bytes → Tree → Prop
  | null {depth : Nat} : Spells (depth + 1) [0xC0] .null
  | number {depth n : Nat} {head : Bytes} (h : Markers.numbers.Heads n head) :
      Spells (depth + 1) head (.number n true)
  | signed {depth width n : Nat} {marker : UInt8} (h : (marker, width) ∈ signedMarkers)
      (hn : n < 256 ^ width) :
      Spells (depth + 1) (marker :: Bytes.be width n) (signedTree width n)
  | negative {depth : Nat} {marker : UInt8} (h : 0xE0 ≤ marker.toNat) :
      Spells (depth + 1) [marker] .other
  | other {depth : Nat} {marker : UInt8} {content : Bytes}
      (h : (marker, content.length) ∈ otherMarkers) :
      Spells (depth + 1) (marker :: content) .other
  | extension {depth n : Nat} {head content : Bytes} (h : Markers.extensions.Heads n head)
      (hlength : content.length = n + 1) : Spells (depth + 1) (head ++ content) .other
  | blob {depth : Nat} {head content : Bytes} (h : Markers.blobs.Heads content.length head) :
      Spells (depth + 1) (head ++ content) (.blob content)
  | text {depth : Nat} {head content : Bytes} (h : Markers.texts.Heads content.length head) :
      Spells (depth + 1) (head ++ content) (textTree content)
  | list {depth : Nat} {head : Bytes} {items : List (Bytes × Tree)}
      (h : Markers.lists.Heads items.length head) (hi : ∀ i ∈ items, Spells depth i.1 i.2) :
      Spells (depth + 1) (head ++ items.flatMap Prod.fst) (.list (items.map Prod.snd))
  | map {depth : Nat} {head : Bytes} {entries : List Entry}
      (h : Markers.maps.Heads entries.length head) (hk : ∀ e ∈ entries, Spells depth e.key e.keyTree)
      (hv : ∀ e ∈ entries, Spells depth e.value e.valueTree) :
      Spells (depth + 1) (head ++ entries.flatMap Entry.bytes) (.table (entries.map Entry.tree))

/-! ## Counts -/

theorem readNumber?_be {width n : Nat} (hn : n < 256 ^ width) (rest : Bytes) :
    readNumber? width (Bytes.be width n ++ rest) = some (n, rest) := by
  have hcut := Bytes.cut?_append (Bytes.be width n) rest
  rw [Bytes.length_be] at hcut
  unfold readNumber?
  rw [hcut, Option.map_some]
  simp only [Bytes.ofBE_be hn]

theorem be_of_readNumber? {width n : Nat} {bs rest : Bytes}
    (h : readNumber? width bs = some (n, rest)) :
    n < 256 ^ width ∧ bs = Bytes.be width n ++ rest := by
  obtain ⟨⟨digits, behind⟩, hcut, hp⟩ := Option.map_eq_some_iff.1 h
  cases hp
  obtain ⟨rfl, rfl⟩ := Bytes.eq_append_of_cut? hcut
  exact ⟨Bytes.ofBE_lt digits, by rw [Bytes.be_ofBE]⟩

/-- A marker below 256 is the number it was made from. -/
theorem toNat_marker (fix : Nat) {n bound : Nat} (hn : n < bound) (hb : fix + bound ≤ 256) :
    (UInt8.ofNat (fix + n)).toNat = fix + n := by
  rw [UInt8.toNat_ofNat']
  exact Nat.mod_eq_of_lt (by omega)

/-- Whether a reader goes on with `content` behind the count that is announced by a marker. -/
structure Markers.ReadBy (m : Markers) (read : Bytes → Option (Tree × Bytes))
    (content : Nat → Bytes → Option (Tree × Bytes)) : Prop where
  short : ∀ n < m.small, ∀ bs, read (UInt8.ofNat (m.fix + n) :: bs) = content n bs
  long : ∀ w ∈ m.wide, ∀ bs, read (w.1 :: bs) = counted? w.2 content bs

theorem Markers.ReadBy.read_append {m : Markers} {read : Bytes → Option (Tree × Bytes)}
    {content : Nat → Bytes → Option (Tree × Bytes)} (hm : m.ReadBy read content) {n : Nat}
    {head : Bytes} (h : m.Heads n head) (rest : Bytes) : read (head ++ rest) = content n rest := by
  cases h with
  | short h => exact hm.short n h rest
  | long h hn =>
    rw [List.cons_append, hm.long _ h, counted?, readNumber?_be hn]
    rfl

/-! ## Readers of counted values -/

theorem readUnsigned?_eq (width : Nat) (bs : Bytes) :
    readUnsigned? width bs =
      counted? width (fun n rest => some (.number n true, rest)) bs := by
  unfold readUnsigned? counted?
  cases readNumber? width bs <;> rfl

section Readers

variable (depth : Nat)

theorem readBy_numbers :
    Markers.numbers.ReadBy (readValue? (depth + 1)) fun n rest => some (.number n true, rest) where
  short n hn bs := by
    have hmarker : (UInt8.ofNat (0 + n)).toNat = 0 + n := toNat_marker 0 hn (by decide)
    have hn : 0 + n < 0x80 := by rwa [Nat.zero_add]
    show readValue? (depth + 1) (UInt8.ofNat (0 + n) :: bs) = _
    rw [readValue?]
    simp only [hmarker, if_pos hn]
    rw [Nat.zero_add]
  long w hw bs := by
    simp only [Markers.numbers, List.mem_cons, List.not_mem_nil, or_false] at hw
    rcases hw with rfl | rfl | rfl | rfl
    · exact readUnsigned?_eq 1 bs
    · exact readUnsigned?_eq 2 bs
    · exact readUnsigned?_eq 4 bs
    · exact readUnsigned?_eq 8 bs

theorem readBy_maps :
    Markers.maps.ReadBy (readValue? (depth + 1)) (readMap? (readValue? depth)) where
  short n hn bs := by
    have hn : n < 0x10 := hn
    have hmarker := toNat_marker 0x80 hn (by decide)
    show readValue? (depth + 1) (UInt8.ofNat (0x80 + n) :: bs) = _
    rw [readValue?]
    simp only [hmarker]
    rw [if_neg (by omega), if_pos (by omega), Nat.add_sub_cancel_left]
  long w hw bs := by
    simp only [Markers.maps, List.mem_cons, List.not_mem_nil, or_false] at hw
    rcases hw with rfl | rfl <;> rfl

theorem readBy_lists :
    Markers.lists.ReadBy (readValue? (depth + 1)) (readList? (readValue? depth)) where
  short n hn bs := by
    have hn : n < 0x10 := hn
    have hmarker := toNat_marker 0x90 hn (by decide)
    show readValue? (depth + 1) (UInt8.ofNat (0x90 + n) :: bs) = _
    rw [readValue?]
    simp only [hmarker]
    rw [if_neg (by omega), if_neg (by omega), if_pos (by omega), Nat.add_sub_cancel_left]
  long w hw bs := by
    simp only [Markers.lists, List.mem_cons, List.not_mem_nil, or_false] at hw
    rcases hw with rfl | rfl <;> rfl

theorem readBy_texts : Markers.texts.ReadBy (readValue? (depth + 1)) readText? where
  short n hn bs := by
    have hn : n < 0x20 := hn
    have hmarker := toNat_marker 0xA0 hn (by decide)
    show readValue? (depth + 1) (UInt8.ofNat (0xA0 + n) :: bs) = _
    rw [readValue?]
    simp only [hmarker]
    rw [if_neg (by omega), if_neg (by omega), if_neg (by omega), if_pos (by omega),
      Nat.add_sub_cancel_left]
  long w hw bs := by
    simp only [Markers.texts, List.mem_cons, List.not_mem_nil, or_false] at hw
    rcases hw with rfl | rfl | rfl <;> rfl

theorem readBy_blobs : Markers.blobs.ReadBy (readValue? (depth + 1)) readBlob? where
  short n hn := absurd hn (Nat.not_lt_zero n)
  long w hw bs := by
    simp only [Markers.blobs, List.mem_cons, List.not_mem_nil, or_false] at hw
    rcases hw with rfl | rfl | rfl <;> rfl

theorem readBy_extensions :
    Markers.extensions.ReadBy (readValue? (depth + 1)) fun count => readOther? (count + 1) where
  short n hn := absurd hn (Nat.not_lt_zero n)
  long w hw bs := by
    simp only [Markers.extensions, List.mem_cons, List.not_mem_nil, or_false] at hw
    rcases hw with rfl | rfl | rfl <;> rfl

theorem readValue?_signed {w : UInt8 × Nat} (hw : w ∈ signedMarkers) (bs : Bytes) :
    readValue? (depth + 1) (w.1 :: bs) = readSigned? w.2 bs := by
  simp only [signedMarkers, List.mem_cons, List.not_mem_nil, or_false] at hw
  rcases hw with rfl | rfl | rfl | rfl <;> rfl

theorem readValue?_other {w : UInt8 × Nat} (hw : w ∈ otherMarkers) (bs : Bytes) :
    readValue? (depth + 1) (w.1 :: bs) = readOther? w.2 bs := by
  simp only [otherMarkers, List.mem_cons, List.not_mem_nil, or_false] at hw
  rcases hw with rfl | rfl | rfl | rfl | rfl | rfl | rfl | rfl | rfl <;> rfl

theorem readValue?_negative {marker : UInt8} (h : 0xE0 ≤ marker.toNat) (bs : Bytes) :
    readValue? (depth + 1) (marker :: bs) = some (.other, bs) := by
  rw [readValue?, if_neg (by omega), if_neg (by omega), if_neg (by omega), if_neg (by omega),
    if_neg (by omega)]

end Readers

/-! ## Contents -/

theorem readText?_eq (count : Nat) (bs : Bytes) :
    readText? count bs =
      (Bytes.cut? count bs).map fun (content, rest) => (textTree content, rest) := by
  unfold readText?
  congr 1
  funext ⟨content, rest⟩
  dsimp only [textTree]
  cases Utf8.decode? content <;> rfl

section Contents

variable {item : Bytes → Option (Tree × Bytes)} {depth : Nat}

/-- Whether a reader takes nothing off but bytes that spell what it finds. -/
def TakesSpelled (depth : Nat) (item : Bytes → Option (Tree × Bytes)) : Prop :=
  ∀ bs t rest, item bs = some (t, rest) → ∃ text, Spells depth text t ∧ bs = text ++ rest

/-- Values are read one after the other. -/
theorem readItems?_flatMap {items : List (Bytes × Tree)}
    (h : ∀ i ∈ items, ∀ rest, item (i.1 ++ rest) = some (i.2, rest)) (rest : Bytes) :
    readItems? item items.length (items.flatMap Prod.fst ++ rest) =
      some (items.map Prod.snd, rest) := by
  induction items with
  | nil => rfl
  | cons i items ih =>
    rw [List.flatMap_cons, List.append_assoc, List.length_cons, readItems?,
      h i List.mem_cons_self]
    have hothers := ih fun j hj => h j (List.mem_cons_of_mem _ hj)
    simp only [bind, Option.bind, hothers]
    rfl

theorem items_of_readItems? (hitem : TakesSpelled depth item) {count : Nat} {bs rest : Bytes}
    {ts : List Tree} (h : readItems? item count bs = some (ts, rest)) :
    ∃ items : List (Bytes × Tree), items.length = count ∧ (∀ i ∈ items, Spells depth i.1 i.2) ∧
      ts = items.map Prod.snd ∧ bs = items.flatMap Prod.fst ++ rest := by
  induction count generalizing bs ts with
  | zero =>
    cases h
    exact ⟨[], rfl, by simp, rfl, rfl⟩
  | succ count ih =>
    obtain ⟨⟨t, behind⟩, hread, h⟩ := Option.bind_eq_some_iff.1 h
    obtain ⟨⟨others, last⟩, hothers, hp⟩ := Option.bind_eq_some_iff.1 h
    cases hp
    obtain ⟨text, hspells, rfl⟩ := hitem _ _ _ hread
    obtain ⟨items, rfl, hitems, rfl, rfl⟩ := ih hothers
    refine ⟨(text, t) :: items, rfl, List.forall_mem_cons.2 ⟨hspells, hitems⟩, rfl, ?_⟩
    rw [List.flatMap_cons, List.append_assoc]

theorem readEntries?_flatMap {entries : List Entry}
    (hk : ∀ e ∈ entries, ∀ rest, item (e.key ++ rest) = some (e.keyTree, rest))
    (hv : ∀ e ∈ entries, ∀ rest, item (e.value ++ rest) = some (e.valueTree, rest))
    (rest : Bytes) :
    readEntries? item entries.length (entries.flatMap Entry.bytes ++ rest) =
      some (entries.map Entry.tree, rest) := by
  induction entries with
  | nil => rfl
  | cons e entries ih =>
    rw [List.flatMap_cons, Entry.bytes, List.append_assoc, List.append_assoc, List.length_cons,
      readEntries?, hk e List.mem_cons_self]
    have hothers := ih (fun d hd => hk d (List.mem_cons_of_mem _ hd))
      fun d hd => hv d (List.mem_cons_of_mem _ hd)
    simp only [bind, Option.bind, hv e List.mem_cons_self, hothers]
    rfl

theorem entries_of_readEntries? (hitem : TakesSpelled depth item) {count : Nat} {bs rest : Bytes}
    {found : List (Tree × Tree)} (h : readEntries? item count bs = some (found, rest)) :
    ∃ entries : List Entry, entries.length = count ∧
      (∀ e ∈ entries, Spells depth e.key e.keyTree) ∧
      (∀ e ∈ entries, Spells depth e.value e.valueTree) ∧
      found = entries.map Entry.tree ∧ bs = entries.flatMap Entry.bytes ++ rest := by
  induction count generalizing bs found with
  | zero =>
    cases h
    exact ⟨[], rfl, by simp, by simp, rfl, rfl⟩
  | succ count ih =>
    obtain ⟨⟨keyTree, behind⟩, hkey, h⟩ := Option.bind_eq_some_iff.1 h
    obtain ⟨⟨valueTree, behind⟩, hvalue, h⟩ := Option.bind_eq_some_iff.1 h
    obtain ⟨⟨others, last⟩, hothers, hp⟩ := Option.bind_eq_some_iff.1 h
    cases hp
    obtain ⟨key, hk, rfl⟩ := hitem _ _ _ hkey
    obtain ⟨value, hv, rfl⟩ := hitem _ _ _ hvalue
    obtain ⟨entries, rfl, hks, hvs, rfl, rfl⟩ := ih hothers
    refine ⟨⟨key, keyTree, value, valueTree⟩ :: entries, rfl, List.forall_mem_cons.2 ⟨hk, hks⟩,
      List.forall_mem_cons.2 ⟨hv, hvs⟩, rfl, ?_⟩
    rw [List.flatMap_cons, Entry.bytes, List.append_assoc, List.append_assoc]

end Contents

/-! ## Values -/

/-- Bytes of the grammar are taken off the front of whatever follows them. -/
theorem Spells.readValue? {depth : Nat} {bs : Bytes} {t : Tree} (h : Spells depth bs t)
    (rest : Bytes) : MessagePack.readValue? depth (bs ++ rest) = some (t, rest) := by
  induction h generalizing rest with
  | null => rfl
  | number h => exact (readBy_numbers _).read_append h rest
  | @signed depth width n marker h hn =>
    rw [List.cons_append, readValue?_signed depth h, readSigned?, readNumber?_be hn]
    rfl
  | @negative depth marker h => exact readValue?_negative depth h rest
  | @other depth marker content h =>
    rw [List.cons_append, readValue?_other depth h, readOther?, Bytes.cut?_append]
    rfl
  | @extension depth n head content h hlength =>
    rw [List.append_assoc, (readBy_extensions _).read_append h, ← hlength, readOther?,
      Bytes.cut?_append]
    rfl
  | @blob depth head content h =>
    rw [List.append_assoc, (readBy_blobs _).read_append h, readBlob?, Bytes.cut?_append]
    rfl
  | @text depth head content h =>
    rw [List.append_assoc, (readBy_texts _).read_append h, readText?_eq, Bytes.cut?_append]
    rfl
  | @list depth head items h _ ih =>
    rw [List.append_assoc, (readBy_lists _).read_append h, readList?, readItems?_flatMap ih]
    rfl
  | @map depth head entries h _ _ ihk ihv =>
    rw [List.append_assoc, (readBy_maps _).read_append h, readMap?, readEntries?_flatMap ihk ihv]
    rfl

/-- Whether a count that is announced by a marker and what a reader finds behind it spell what the
reader makes of them. -/
def Markers.SpelledBy (m : Markers) (depth : Nat) (content : Nat → Bytes → Option (Tree × Bytes)) :
    Prop :=
  ∀ n head behind t rest, m.Heads n head → content n behind = some (t, rest) →
    ∃ text, Spells depth text t ∧ head ++ behind = text ++ rest

section Sound

variable {depth : Nat}

theorem Markers.SpelledBy.of_marker {m : Markers} {content : Nat → Bytes → Option (Tree × Bytes)}
    (hm : m.SpelledBy depth content) {marker : UInt8} {bs rest : Bytes} {t : Tree}
    (hlow : m.fix ≤ marker.toNat) (hhigh : marker.toNat - m.fix < m.small)
    (h : content (marker.toNat - m.fix) bs = some (t, rest)) :
    ∃ text, Spells depth text t ∧ marker :: bs = text ++ rest := by
  have hmarker : UInt8.ofNat (m.fix + (marker.toNat - m.fix)) = marker := by
    rw [Nat.add_sub_cancel' hlow, UInt8.ofNat_toNat]
  have hspelled := hm _ _ _ _ _ (.short hhigh) h
  rwa [hmarker] at hspelled

theorem Markers.SpelledBy.of_counted? {m : Markers} {content : Nat → Bytes → Option (Tree × Bytes)}
    (hm : m.SpelledBy depth content) {marker : UInt8} {width : Nat} {bs rest : Bytes} {t : Tree}
    (hw : (marker, width) ∈ m.wide) (h : counted? width content bs = some (t, rest)) :
    ∃ text, Spells depth text t ∧ marker :: bs = text ++ rest := by
  obtain ⟨⟨n, behind⟩, hnumber, hcontent⟩ := Option.bind_eq_some_iff.1 h
  obtain ⟨hn, rfl⟩ := be_of_readNumber? hnumber
  exact hm _ _ _ _ _ (.long hw hn) hcontent

theorem spelledBy_numbers :
    Markers.numbers.SpelledBy (depth + 1) fun n rest => some (.number n true, rest) := by
  intro n head behind t rest hhead h
  cases h
  exact ⟨head, .number hhead, rfl⟩

theorem spelledBy_extensions :
    Markers.extensions.SpelledBy (depth + 1) fun count => readOther? (count + 1) := by
  intro n head behind t rest hhead h
  obtain ⟨⟨content, last⟩, hcut, hp⟩ := Option.map_eq_some_iff.1 h
  cases hp
  obtain ⟨hlength, rfl⟩ := Bytes.eq_append_of_cut? hcut
  exact ⟨head ++ content, .extension hhead hlength, (List.append_assoc _ _ _).symm⟩

theorem spelledBy_blobs : Markers.blobs.SpelledBy (depth + 1) readBlob? := by
  intro n head behind t rest hhead h
  obtain ⟨⟨content, last⟩, hcut, hp⟩ := Option.map_eq_some_iff.1 h
  cases hp
  obtain ⟨rfl, rfl⟩ := Bytes.eq_append_of_cut? hcut
  exact ⟨head ++ content, .blob hhead, (List.append_assoc _ _ _).symm⟩

theorem spelledBy_texts : Markers.texts.SpelledBy (depth + 1) readText? := by
  intro n head behind t rest hhead h
  rw [readText?_eq] at h
  obtain ⟨⟨content, last⟩, hcut, hp⟩ := Option.map_eq_some_iff.1 h
  cases hp
  obtain ⟨rfl, rfl⟩ := Bytes.eq_append_of_cut? hcut
  exact ⟨head ++ content, .text hhead, (List.append_assoc _ _ _).symm⟩

variable {item : Bytes → Option (Tree × Bytes)} (hitem : TakesSpelled depth item)

include hitem

theorem spelledBy_lists : Markers.lists.SpelledBy (depth + 1) (readList? item) := by
  intro n head behind t rest hhead h
  obtain ⟨⟨ts, last⟩, hread, hp⟩ := Option.map_eq_some_iff.1 h
  cases hp
  obtain ⟨items, rfl, hitems, rfl, rfl⟩ := items_of_readItems? hitem hread
  exact ⟨_, .list hhead hitems, (List.append_assoc _ _ _).symm⟩

theorem spelledBy_maps : Markers.maps.SpelledBy (depth + 1) (readMap? item) := by
  intro n head behind t rest hhead h
  obtain ⟨⟨found, last⟩, hread, hp⟩ := Option.map_eq_some_iff.1 h
  cases hp
  obtain ⟨entries, rfl, hk, hv, rfl, rfl⟩ := entries_of_readEntries? hitem hread
  exact ⟨_, .map hhead hk hv, (List.append_assoc _ _ _).symm⟩

omit hitem in
theorem spelled_of_readSigned? {marker : UInt8} {width : Nat} {bs rest : Bytes} {t : Tree}
    (hw : (marker, width) ∈ signedMarkers) (h : readSigned? width bs = some (t, rest)) :
    ∃ text, Spells (depth + 1) text t ∧ marker :: bs = text ++ rest := by
  obtain ⟨⟨n, behind⟩, hnumber, hp⟩ := Option.map_eq_some_iff.1 h
  cases hp
  obtain ⟨hn, rfl⟩ := be_of_readNumber? hnumber
  exact ⟨_, .signed hw hn, rfl⟩

omit hitem in
theorem spelled_of_readOther? {marker : UInt8} {size : Nat} {bs rest : Bytes} {t : Tree}
    (hw : (marker, size) ∈ otherMarkers) (h : readOther? size bs = some (t, rest)) :
    ∃ text, Spells (depth + 1) text t ∧ marker :: bs = text ++ rest := by
  obtain ⟨⟨content, behind⟩, hcut, hp⟩ := Option.map_eq_some_iff.1 h
  cases hp
  obtain ⟨rfl, rfl⟩ := Bytes.eq_append_of_cut? hcut
  exact ⟨_, .other hw, rfl⟩

-- The cases are those of the marker.
theorem spelled_of_readMarked? {marker : Nat} {bs rest : Bytes} {t : Tree}
    (h : readMarked? item marker bs = some (t, rest)) :
    ∃ text, Spells (depth + 1) text t ∧ UInt8.ofNat marker :: bs = text ++ rest := by
  unfold readMarked? at h
  split at h
  case h_1 =>
    cases h
    exact ⟨_, .null, rfl⟩
  case h_2 | h_3 =>
    have h : readOther? 0 bs = some (t, rest) := h
    exact spelled_of_readOther? (by decide) h
  case h_4 | h_5 | h_6 => exact spelledBy_blobs.of_counted? (by decide) h
  case h_7 | h_8 | h_9 => exact spelledBy_extensions.of_counted? (by decide) h
  case h_10 | h_11 | h_20 | h_21 | h_22 | h_23 | h_24 => exact spelled_of_readOther? (by decide) h
  case h_12 | h_13 | h_14 | h_15 =>
    rw [readUnsigned?_eq] at h
    exact spelledBy_numbers.of_counted? (by decide) h
  case h_16 | h_17 | h_18 | h_19 => exact spelled_of_readSigned? (by decide) h
  case h_25 | h_26 | h_27 => exact spelledBy_texts.of_counted? (by decide) h
  case h_28 | h_29 => exact (spelledBy_lists hitem).of_counted? (by decide) h
  case h_30 | h_31 => exact (spelledBy_maps hitem).of_counted? (by decide) h
  case h_32 => cases h

end Sound

/-- Nothing is taken off the front but bytes that spell what is found. -/
theorem takesSpelled_readValue? (depth : Nat) :
    TakesSpelled depth (readValue? depth) := by
  induction depth with
  | zero =>
    intro bs t rest h
    cases h
  | succ depth ih =>
    intro bs t rest h
    cases bs with
    | nil => cases h
    | cons b bs =>
      rw [readValue?] at h
      -- The ranges of the marker, in the order in which the reader compares them.
      by_cases hnumber : b.toNat < 0x80
      · rw [if_pos hnumber] at h
        exact spelledBy_numbers.of_marker (Nat.zero_le _) hnumber h
      rw [if_neg hnumber] at h
      by_cases hmap : b.toNat < 0x90
      · rw [if_pos hmap] at h
        have hsmall : b.toNat - 0x80 < 0x10 := by omega
        exact (spelledBy_maps ih).of_marker (Nat.le_of_not_lt hnumber) hsmall h
      rw [if_neg hmap] at h
      by_cases hlist : b.toNat < 0xA0
      · rw [if_pos hlist] at h
        have hsmall : b.toNat - 0x90 < 0x10 := by omega
        exact (spelledBy_lists ih).of_marker (Nat.le_of_not_lt hmap) hsmall h
      rw [if_neg hlist] at h
      by_cases htext : b.toNat < 0xC0
      · rw [if_pos htext] at h
        have hsmall : b.toNat - 0xA0 < 0x20 := by omega
        exact spelledBy_texts.of_marker (Nat.le_of_not_lt hlist) hsmall h
      rw [if_neg htext] at h
      by_cases hmarked : b.toNat < 0xE0
      · rw [if_pos hmarked] at h
        have hspelled := spelled_of_readMarked? ih h
        rwa [UInt8.ofNat_toNat] at hspelled
      · rw [if_neg hmarked] at h
        cases h
        exact ⟨[b], .negative (Nat.le_of_not_lt hmarked), rfl⟩

/-! ## Whole inputs -/

/-- The reader accepts what begins with bytes of the grammar, for the value that they spell, and
nothing else. -/
theorem read?_eq_some_iff {bs : Bytes} {t : Tree} :
    read? bs = some t ↔ ∃ text rest, bs = text ++ rest ∧ Spells maxDepth text t := by
  constructor
  · intro h
    obtain ⟨⟨found, rest⟩, hread, rfl⟩ := Option.map_eq_some_iff.1 h
    obtain ⟨text, hspells, rfl⟩ := takesSpelled_readValue? maxDepth _ _ _ hread
    exact ⟨text, rest, rfl, hspells⟩
  · rintro ⟨text, rest, rfl, hspells⟩
    unfold read?
    rw [hspells.readValue?]
    rfl

end GameWire.MessagePack
