import GameWire.Proofs.Serial.MessagePack.Grammar
import GameWire.Proofs.Serial.Outline
import GameWire.Proofs.Text.Utf8

/-!
# MessagePack reads back

What is written for an outline is of the grammar, if everything in the outline has a header, and it
spells the value that the outline stands for. So it is read back as that value, whatever follows it.
-/

namespace GameWire.MessagePack

/-! ## Headers -/

theorem heads_header {small fix : Nat} {one : Option UInt8} {two four : UInt8}
    {wide : List (UInt8 × Nat)} (hone : ∀ marker ∈ one, (marker, 1) ∈ wide)
    (htwo : (two, 2) ∈ wide) (hfour : (four, 4) ∈ wide) {n : Nat} (hn : n < 2 ^ 32) :
    Markers.Heads ⟨fix, small, wide⟩ n (header small fix one two four n) := by
  unfold header
  by_cases h₀ : n < small
  · rw [if_pos h₀]
    exact .short h₀
  · rw [if_neg h₀]
    cases one with
    | none =>
      dsimp only
      by_cases h₂ : n < 2 ^ 16
      · rw [if_pos h₂]
        exact .long htwo h₂
      · rw [if_neg h₂]
        exact .long hfour hn
    | some marker =>
      dsimp only
      by_cases h₁ : n < 2 ^ 8
      · rw [if_pos h₁]
        exact .long (hone marker rfl) h₁
      · rw [if_neg h₁]
        by_cases h₂ : n < 2 ^ 16
        · rw [if_pos h₂]
          exact .long htwo h₂
        · rw [if_neg h₂]
          exact .long hfour hn

theorem heads_numberBytes {n : Nat} (hn : n < 2 ^ 64) : Markers.numbers.Heads n (numberBytes n) := by
  unfold numberBytes
  by_cases hsmall : n < 2 ^ 32
  · rw [if_pos hsmall]
    exact heads_header (by rintro _ ⟨⟩; decide) (by decide) (by decide) hsmall
  · rw [if_neg hsmall]
    exact .long (by decide) hn

theorem heads_textHeader {n : Nat} (hn : n < 2 ^ 32) : Markers.texts.Heads n (textHeader n) :=
  heads_header (by rintro _ ⟨⟩; decide) (by decide) (by decide) hn

theorem heads_listHeader {n : Nat} (hn : n < 2 ^ 32) : Markers.lists.Heads n (listHeader n) :=
  heads_header (by rintro _ ⟨⟩) (by decide) (by decide) hn

theorem heads_mapHeader {n : Nat} (hn : n < 2 ^ 32) : Markers.maps.Heads n (mapHeader n) :=
  heads_header (by rintro _ ⟨⟩) (by decide) (by decide) hn

/-! ## Values -/

theorem writeItems_eq_flatMap (named : Bool) (items : List Outline) :
    writeItems named items = items.flatMap (write named) := by
  induction items with
  | nil => rfl
  | cons item items ih => rw [writeItems, ih, List.flatMap_cons]

/-- Without their names, fields are written as their values. -/
theorem writeFields_eq_flatMap (fields : List (String × Outline)) :
    writeFields false fields = fields.flatMap fun field => write false field.2 := by
  induction fields with
  | nil => rfl
  | cons field fields ih =>
    rw [writeFields, ih, List.flatMap_cons]
    rfl

/-- The entry of a map that is written for a field. -/
def fieldEntry (f : SerialFormat) (field : String × Outline) : Entry where
  key := textBytes field.1
  keyTree := .text field.1
  value := write f.isNamed field.2
  valueTree := field.2.tree f

section Values

variable {f : SerialFormat} {depth : Nat}

theorem spells_textBytes {s : String} (hs : (Utf8.encode s).length < 2 ^ 32) :
    Spells (depth + 1) (textBytes s) (.text s) := by
  have htree : textTree (Utf8.encode s) = .text s := by
    unfold textTree
    rw [Utf8.decode?_encode]
    rfl
  have h : Spells (depth + 1) (textBytes s) (textTree (Utf8.encode s)) :=
    .text (heads_textHeader hs)
  rwa [htree] at h

/-- With their names, fields are written as the entries of a map. -/
theorem writeFields_eq_flatMap_entry (hf : f.isNamed = true) (fields : List (String × Outline)) :
    writeFields f.isNamed fields = (fields.map (fieldEntry f)).flatMap Entry.bytes := by
  induction fields with
  | nil => rfl
  | cons field fields ih =>
    rw [writeFields, ih, if_pos hf, List.map_cons, List.flatMap_cons]
    rfl

theorem spells_values {head : Bytes} {os : List Outline} (hhead : Markers.lists.Heads os.length head)
    (h : ∀ o ∈ os, Spells depth (write f.isNamed o) (o.tree f)) :
    Spells (depth + 1) (head ++ os.flatMap (write f.isNamed)) (.list (os.map (Outline.tree f))) := by
  have hitems : ∀ i ∈ os.map fun o => (write f.isNamed o, o.tree f), Spells depth i.1 i.2 :=
    List.forall_mem_map.2 h
  have hlist := Spells.list (by simpa using hhead) hitems
  rwa [List.flatMap_map, List.map_map] at hlist

theorem spells_entries {head : Bytes} {fields : List (String × Outline)}
    (hhead : Markers.maps.Heads fields.length head)
    (hk : ∀ field ∈ fields, Spells depth (textBytes field.1) (.text field.1))
    (hv : ∀ field ∈ fields, Spells depth (write f.isNamed field.2) (field.2.tree f)) :
    Spells (depth + 1) (head ++ (fields.map (fieldEntry f)).flatMap Entry.bytes)
      (.table (Outline.treeEntries f fields)) := by
  have hkeys : ∀ e ∈ fields.map (fieldEntry f), Spells depth e.key e.keyTree :=
    List.forall_mem_map.2 hk
  have hvalues : ∀ e ∈ fields.map (fieldEntry f), Spells depth e.value e.valueTree :=
    List.forall_mem_map.2 hv
  have hmap := Spells.map (by simpa using hhead) hkeys hvalues
  rw [List.map_map] at hmap
  rw [Outline.treeEntries_eq_map]
  exact hmap

end Values

/-- What is written for an outline spells the value it stands for, if everything in the outline has
a header. -/
theorem spells_write {f : SerialFormat} (hf : f.isOrdinal = true) {depth : Nat} {o : Outline}
    (ho : o.Within depth) : Spells depth (write f.isNamed o) (o.tree f) := by
  induction depth generalizing o with
  | zero => exact ho.elim
  | succ depth ih =>
    -- A name is nested as deep as the value that it stands in front of.
    have hname : ∀ {s : String} {value : Outline}, (Utf8.encode s).length < 2 ^ 32 →
        value.Within depth → Spells depth (textBytes s) (.text s) := by
      intro s value hs hvalue
      cases depth with
      | zero => exact hvalue.elim
      | succ depth => exact spells_textBytes hs
    cases o with
    | number n =>
      rw [write, Outline.tree, hf]
      exact .number (heads_numberBytes ho)
    | text s => exact spells_textBytes ho
    | list items =>
      rw [write, writeItems_eq_flatMap, Outline.tree, Outline.treeItems_eq_map]
      exact spells_values (heads_listHeader ho.1) fun item hi => ih (ho.2 item hi)
    | record fields =>
      rw [write, Outline.tree]
      cases hnamed : f.isNamed with
      | true =>
        rw [if_pos rfl, if_pos rfl, ← hnamed, writeFields_eq_flatMap_entry hnamed]
        exact spells_entries (heads_mapHeader ho.1)
          (fun field hi => hname (ho.2 field hi).1 (ho.2 field hi).2)
          fun field hi => ih (ho.2 field hi).2
      | false =>
        have hvalues : ∀ o ∈ fields.map Prod.snd, Spells depth (write f.isNamed o) (o.tree f) :=
          List.forall_mem_map.2 fun field hi => ih (ho.2 field hi).2
        have hlist := spells_values (heads_listHeader (by simpa using ho.1)) hvalues
        rw [List.flatMap_map, List.map_map, List.length_map, hnamed] at hlist
        rw [if_neg Bool.false_ne_true, if_neg Bool.false_ne_true, writeFields_eq_flatMap,
          Outline.treeValues_eq_map]
        exact hlist
    | tagged tag payload =>
      have hhead : Markers.maps.Heads [(tag, payload)].length (mapHeader 1) :=
        heads_mapHeader (show 1 < 2 ^ 32 by decide)
      have hmap := spells_entries hhead (List.forall_mem_singleton.2 (hname ho.1 ho.2))
        (List.forall_mem_singleton.2 (ih ho.2))
      have hbytes : write f.isNamed (.tagged tag payload) =
          mapHeader 1 ++ ([(tag, payload)].map (fieldEntry f)).flatMap Entry.bytes := by
        rw [write, List.append_assoc, List.map_singleton, List.flatMap_singleton]
        rfl
      rw [hbytes]
      exact hmap

/-- The bytes that are written for an outline are read back as the value it stands for, if
everything in the outline has a header and it is not nested too deep. -/
theorem read?_write {f : SerialFormat} (hf : f.isOrdinal = true) {depth : Nat} {o : Outline}
    (ho : o.Within depth) (hd : depth ≤ maxDepth) :
    read? (write f.isNamed o) = some (o.tree f) :=
  read?_eq_some_iff.2 ⟨_, [], (List.append_nil _).symm, spells_write hf (ho.mono hd)⟩

end GameWire.MessagePack
