import GameWire.Proofs.Codec.Serialized

/-!
# The tag decides

Whether a serialized packet has a tag that does not exist is decided by its outermost value, and
not by the body under the tag. An input holds such a value if it is of the grammar of its format. In
JSON, strings that are passed over only have to be of that grammar, except for keys beside the tag,
which have to be texts.
-/

namespace GameWire

/-! ## Inputs and their values -/

/-- No value of MessagePack spoils the table that it is a key of. -/
theorem MessagePack.Spells.ne_broken {depth : Nat} {bs : Bytes} {t : Tree}
    (h : MessagePack.Spells depth bs t) : t ≠ .broken := by
  cases h with
  | @signed depth width n =>
    unfold MessagePack.signedTree
    split <;> nofun
  | @text depth head content =>
    unfold MessagePack.textTree
    cases Utf8.decode? content <;> nofun
  | _ => nofun

theorem MessagePack.Spells.key_ne_broken {depth : Nat} {bs : Bytes} {t : Tree}
    (h : MessagePack.Spells depth bs t) {entries : List (Tree × Tree)} (ht : t = .table entries) :
    ∀ e ∈ entries, e.1 ≠ .broken := by
  cases h with
  | @signed depth width n =>
    unfold MessagePack.signedTree at ht
    split at ht <;> cases ht
  | @text depth head content =>
    unfold MessagePack.textTree at ht
    cases hs : Utf8.decode? content <;> rw [hs] at ht <;> cases ht
  | map _ hk =>
    cases ht
    exact List.forall_mem_map.2 fun e he => (hk e he).ne_broken
  | _ => cases ht

namespace SerialFormat

/-- Whether an input holds a value: a JSON text spells it from end to end, and in MessagePack the
input begins with it, whatever follows. -/
def Holds : SerialFormat → Bytes → Tree → Prop
  | json, bs, t => Json.Spells bs t
  | messagePack, bs, t | messagePackNamed, bs, t =>
    ∃ text rest, bs = text ++ rest ∧ MessagePack.Spells MessagePack.maxDepth text t

/-- An input is read as what it holds. -/
theorem read?_eq_some_iff {f : SerialFormat} {bs : Bytes} {t : Tree} :
    f.read? bs = some t ↔ f.Holds bs t := by
  cases f with
  | json => exact Json.read?_eq_some_iff
  | messagePack => exact MessagePack.read?_eq_some_iff
  | messagePackNamed => exact MessagePack.read?_eq_some_iff

theorem Holds.key_ne_broken {f : SerialFormat} {bs : Bytes} {entries : List (Tree × Tree)}
    (hf : f ≠ .json) (h : f.Holds bs (.table entries)) : ∀ e ∈ entries, e.1 ≠ .broken := by
  cases f with
  | json => exact absurd rfl hf
  | messagePack | messagePackNamed =>
    obtain ⟨text, rest, -, hspells⟩ := h
    exact hspells.key_ne_broken rfl

end SerialFormat

/-! ## Tags -/

namespace Tree

/-- Whether a value is the text `tag` by itself, or a table with that text for its first key and
`others` for the entries behind it. -/
inductive Tagged (tag : String) : (others : List (Tree × Tree)) → Tree → Prop
  | bare : Tagged tag [] (.text tag)
  | table (value : Tree) (others : List (Tree × Tree)) :
      Tagged tag others (.table ((.text tag, value) :: others))

theorem Tagged.tag?_eq_some {tag : String} {others : List (Tree × Tree)} {t : Tree}
    (h : Tagged tag others t) (hkeys : ∀ e ∈ others, e.1 ≠ .broken) : t.tag? = some tag := by
  cases h with
  | bare => rfl
  | table value others =>
    refine if_neg fun hany => ?_
    obtain ⟨⟨key, value⟩, he, hkey⟩ := List.any_eq_true.1 hany
    cases key with
    | broken => exact hkeys _ he rfl
    | _ => cases hkey

theorem Tagged.tag?_eq_none {tag : String} {others : List (Tree × Tree)} {t : Tree}
    (h : Tagged tag others t) (hkeys : ∃ e ∈ others, e.1 = .broken) : t.tag? = none := by
  obtain ⟨⟨key, value⟩, he, rfl⟩ := hkeys
  cases h with
  | bare => cases he
  | table value others => exact if_pos (List.any_eq_true.2 ⟨_, he, rfl⟩)

/-- Only JSON has keys that are no texts and can only be passed over. -/
theorem Tagged.key_ne_broken {f : SerialFormat} {bs : Bytes} {t : Tree} {tag : String}
    {others : List (Tree × Tree)} (ht : Tagged tag others t) (hf : f ≠ .json) (h : f.Holds bs t) :
    ∀ e ∈ others, e.1 ≠ .broken := by
  cases ht with
  | bare => nofun
  | table value others => exact fun e he => h.key_ne_broken hf e (List.mem_cons_of_mem _ he)

end Tree

namespace Packet

def tagNames : List String := Variant.all.map Variant.name

theorem isTagName_iff {tag : String} : isTagName tag = true ↔ tag ∈ tagNames := by
  simp [isTagName, tagNames, List.any_eq_true, List.mem_map]

/-- A value has no packet in it if its tag does not exist, or has something beside it. -/
theorem ofTree?_eq_none {tag : String} {others : List (Tree × Tree)} {t : Tree}
    (h : t.Tagged tag others) (hn : tag ∉ tagNames ∨ others ≠ []) : ofTree? t = none := by
  cases h with
  | bare => rfl
  | table value others =>
    cases others with
    | cons e others => rfl
    | nil =>
      have htag : tag ∉ tagNames := hn.resolve_right (fun h => h rfl)
      have hplace : (Tree.text tag).place? (Variant.all.map Variant.name) = some none := by
        refine congrArg some (List.findIdx?_eq_none_iff.2 fun name hname => ?_)
        exact beq_eq_false_iff_ne.2 fun heq => htag (heq ▸ hname)
      show ((Tree.text tag).place? (Variant.all.map Variant.name)).join.bind _ = none
      rw [hplace]
      rfl

/-! ## Verdicts -/

section Verdicts

variable {f : SerialFormat} {bs : Bytes} {t : Tree} {tag : String} {others : List (Tree × Tree)}

theorem read?_of_holds (h : f.Holds bs t) : read? f bs = ofTree? t := by
  unfold read?
  rw [SerialFormat.read?_eq_some_iff.2 h, Option.bind_some]

theorem outerTag?_of_holds (h : f.Holds bs t) : outerTag? f bs = t.tag? := by
  unfold outerTag?
  rw [SerialFormat.read?_eq_some_iff.2 h, Option.bind_some]

theorem deserialize_of_not_holds (h : ∀ t, ¬ f.Holds bs t) :
    deserialize f bs = .error (.deserialize "malformed packet") := by
  have hread : f.read? bs = none :=
    Option.eq_none_iff_forall_ne_some.2 fun t ht => h t (SerialFormat.read?_eq_some_iff.1 ht)
  unfold deserialize read? outerTag?
  rw [hread]
  rfl

/-- A tag that does not exist is told, whatever stands under it. -/
theorem deserialize_of_not_mem (h : f.Holds bs t) (ht : t.Tagged tag others)
    (hkeys : ∀ e ∈ others, e.1 ≠ .broken) (hn : tag ∉ tagNames) :
    deserialize f bs = .error (.unknownVariant tag) := by
  have hname : isTagName tag = false := Bool.eq_false_iff.2 fun hname => hn (isTagName_iff.1 hname)
  unfold deserialize
  rw [read?_of_holds h, outerTag?_of_holds h, ofTree?_eq_none ht (.inl hn), ht.tag?_eq_some hkeys]
  simp only [hname, if_false, Bool.false_eq_true]

/-- A tag that exists is read or malformed. -/
theorem deserialize_of_mem (h : f.Holds bs t) (ht : t.Tagged tag others)
    (hkeys : ∀ e ∈ others, e.1 ≠ .broken) (hn : tag ∈ tagNames) :
    (∃ p, deserialize f bs = .ok p) ∨
      deserialize f bs = .error (.deserialize "malformed packet") := by
  unfold deserialize
  rw [read?_of_holds h, outerTag?_of_holds h, ht.tag?_eq_some hkeys]
  cases ofTree? t with
  | some p => exact .inl ⟨p, rfl⟩
  | none => exact .inr (if_pos (isTagName_iff.2 hn))

/-- A key that is no text spoils the table, whatever its tag. -/
theorem deserialize_of_broken (h : f.Holds bs t) (ht : t.Tagged tag others)
    (hkeys : ∃ e ∈ others, e.1 = .broken) :
    deserialize f bs = .error (.deserialize "malformed packet") := by
  have hne : others ≠ [] := by
    obtain ⟨e, he, -⟩ := hkeys
    exact List.ne_nil_of_mem he
  unfold deserialize
  rw [read?_of_holds h, outerTag?_of_holds h, ofTree?_eq_none ht (.inr hne),
    ht.tag?_eq_none hkeys]

/-- The tag of a packet is found in what is written for it. -/
theorem outerTag?_serialize (f : SerialFormat) {p : Packet} (hp : p.Fits) :
    outerTag? f (p.serialize f) = some p.name := by
  unfold outerTag? serialize
  rw [f.read?_write hp.within_outline, Option.bind_some, outline, Outline.tree]
  rfl

end Verdicts

/-- The outermost value decides. A tag that does not exist is told whatever stands under it and
beside it, a tag that exists is read or malformed, and an input that holds no value is malformed, as
is a JSON object with a key beside its tag that is no text. What is written for a packet has its
name for its tag. -/
theorem deserialize_outerTag :
    tagNames.length = 24 ∧
    (∀ (f : SerialFormat) (bs : Bytes) (t : Tree) (tag : String) (others : List (Tree × Tree)),
      f.Holds bs t → t.Tagged tag others → (f = .json → ∀ e ∈ others, e.1 ≠ .broken) →
        (deserialize f bs = .error (.unknownVariant tag) ↔ tag ∉ tagNames) ∧
        (tag ∈ tagNames → (∃ p, deserialize f bs = .ok p) ∨
          ∃ text, deserialize f bs = .error (.deserialize text))) ∧
    (∀ (bs : Bytes) (t : Tree) (tag : String) (others : List (Tree × Tree)),
      SerialFormat.json.Holds bs t → t.Tagged tag others → (∃ e ∈ others, e.1 = .broken) →
        ∃ text, deserialize .json bs = .error (.deserialize text)) ∧
    (∀ (f : SerialFormat) (bs : Bytes), (∀ t, ¬ f.Holds bs t) →
      ∀ tag, deserialize f bs ≠ .error (.unknownVariant tag)) ∧
    ∀ (f : SerialFormat) (p : Packet), p.Fits →
      outerTag? f (p.serialize f) = some p.name ∧ isTagName p.name = true := by
  refine ⟨rfl, ?_, ?_, ?_, ?_⟩
  · intro f bs t tag others h ht hjson
    -- Only JSON has keys that spoil a table.
    have hkeys : ∀ e ∈ others, e.1 ≠ .broken := by
      by_cases hf : f = .json
      · exact hjson hf
      · exact ht.key_ne_broken hf h
    refine ⟨⟨fun herror hn => ?_, deserialize_of_not_mem h ht hkeys⟩, fun hn => ?_⟩
    · rcases deserialize_of_mem h ht hkeys hn with ⟨p, hp⟩ | hp <;> rw [hp] at herror <;>
        cases herror
    · exact (deserialize_of_mem h ht hkeys hn).imp_right fun hp => ⟨_, hp⟩
  · exact fun bs t tag others h ht hkeys => ⟨_, deserialize_of_broken h ht hkeys⟩
  · intro f bs h tag herror
    rw [deserialize_of_not_holds h] at herror
    cases herror
  · exact fun f p hp => ⟨outerTag?_serialize f hp, isTagName_variant p.variant⟩

/-- The JSON text `{"Bad":0,"\ud800":0}`, where half of a surrogate pair stands for a key. -/
def spoiledTable : Bytes :=
  [0x7B, 0x22, 0x42, 0x61, 0x64, 0x22, 0x3A, 0x30, 0x2C, 0x22, 0x5C, 0x75, 0x64, 0x38, 0x30, 0x30,
    0x22, 0x3A, 0x30, 0x7D]

-- One input for each of the verdicts, the first of which is `{"Bad":0}`.
theorem deserialize_outerTag_bad :
    deserialize .json [0x7B, 0x22, 0x42, 0x61, 0x64, 0x22, 0x3A, 0x30, 0x7D] =
        .error (.unknownVariant "Bad") ∧
      (∃ text, deserialize .json spoiledTable = .error (.deserialize text)) ∧
      deserialize .json [0x7B] ≠ .error (.unknownVariant "Bad") ∧
      outerTag? .messagePack (empty.serialize .messagePack) = some "None" := by
  obtain ⟨-, htag, hbroken, hnone, hwritten⟩ := deserialize_outerTag
  refine ⟨?_, ?_, ?_, ?_⟩
  · have hbad : "Bad" ∉ tagNames := fun h => absurd (isTagName_iff.2 h) (by decide)
    exact (htag .json _ _ "Bad" [] (SerialFormat.read?_eq_some_iff.1 rfl)
      (.table (.number 0 false) []) (fun _ => nofun)).1.2 hbad
  · exact hbroken spoiledTable _ "Bad" [(.broken, .number 0 false)]
      (SerialFormat.read?_eq_some_iff.1 rfl) (.table (.number 0 false) _)
      ⟨_, List.mem_cons_self, rfl⟩
  · refine hnone .json [0x7B] (fun t h => ?_) "Bad"
    have hread : SerialFormat.json.read? [0x7B] = none := rfl
    rw [SerialFormat.read?_eq_some_iff.2 h] at hread
    cases hread
  · exact (hwritten .messagePack empty ⟨nofun, nofun⟩).1

/-- The JSON text `{"Bad":"\xFF"}`, where a string is not UTF-8. -/
def garbledTable : Bytes := [0x7B, 0x22, 0x42, 0x61, 0x64, 0x22, 0x3A, 0x22, 0xFF, 0x22, 0x7D]

/-- A string that spells no text is refused as a key beside the tag and passed over elsewhere. So
there is a table of the JSON grammar whose tag, which does not exist, is not told, and an input that
is no text at all where it is. -/
theorem outerTag_not_alone :
    (∃ value others, SerialFormat.json.Holds spoiledTable (.table ((.text "Bad", value) :: others)) ∧
      "Bad" ∉ tagNames ∧ deserialize .json spoiledTable ≠ .error (.unknownVariant "Bad")) ∧
    Utf8.decode? garbledTable = none ∧
      deserialize .json garbledTable = .error (.unknownVariant "Bad") := by
  refine ⟨⟨.number 0 false, [(.broken, .number 0 false)],
    SerialFormat.read?_eq_some_iff.1 rfl, ?_, ?_⟩, rfl, rfl⟩
  · exact fun h => absurd (isTagName_iff.2 h) (by decide)
  · intro h
    have hmalformed : deserialize .json spoiledTable =
        .error (.deserialize "malformed packet") := rfl
    rw [hmalformed] at h
    cases h

end Packet

end GameWire
