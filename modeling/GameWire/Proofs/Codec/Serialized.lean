import GameWire.Codec
import GameWire.Proofs.Packet.Serialized
import GameWire.Proofs.Serial.Json
import GameWire.Proofs.Serial.MessagePack

/-!
# Serialized packets read back

Every packet that a dialect can carry is read back from its serialized form, also by a codec with
other settings, and whichever of the MessagePack formats is asked for.
-/

namespace GameWire

namespace SerialFormat

/-- What a format writes, it reads. -/
theorem read?_write (f : SerialFormat) {o : Outline} (ho : o.Within 5) :
    f.read? (f.write o) = some (o.tree f) := by
  cases f with
  | json => exact Json.read?_write o
  | messagePack => exact MessagePack.read?_write (f := .messagePack) rfl ho (by decide)
  | messagePackNamed => exact MessagePack.read?_write (f := .messagePackNamed) rfl ho (by decide)

/-- Both MessagePack formats are read alike. -/
theorem read?_eq {f g : SerialFormat} (h : f = .json ↔ g = .json) (bs : Bytes) :
    f.read? bs = g.read? bs := by
  cases f <;> cases g <;> simp at h <;> rfl

end SerialFormat

namespace Packet

/-- JSON has no headers, so it is read back whatever its length. -/
theorem deserialize_serialize_json (p : Packet) : deserialize .json (p.serialize .json) = .ok p := by
  have hread : read? .json (p.serialize .json) = some p := by
    show (Json.read? (Json.write p.outline)).bind ofTree? = some p
    rw [Json.read?_write]
    exact ofTree?_tree .json p
  unfold deserialize
  rw [hread]

theorem deserialize_serialize {f g : SerialFormat} (h : f = .json ↔ g = .json) {p : Packet}
    (hp : p.Fits) : deserialize g (p.serialize f) = .ok p := by
  have hread : read? g (p.serialize f) = some p := by
    unfold read? serialize
    rw [← SerialFormat.read?_eq h, f.read?_write hp.within_outline]
    exact ofTree?_tree f p
  unfold deserialize
  rw [hread]

end Packet

namespace Codec

/-! ## The terminator -/

/-- The last byte of a serialized packet is its closing brace. -/
theorem getLast?_serialize_json (p : Packet) :
    (p.serialize .json).getLast? = some 0x7D := by
  show (0x7B :: Json.quote p.name ++ 0x3A :: Json.write p.payload ++ [0x7D]).getLast? = _
  exact List.getLast?_concat

/-- A reader drops the terminator that a writer added, and nothing else. -/
theorem dropTerminator_serialize {f g : SerialFormat} (h : f = .json ↔ g = .json) (p : Packet)
    (terminated : Bool) :
    dropTerminator g (if f = .json ∧ terminated then p.serialize f ++ [0] else p.serialize f) =
      p.serialize f := by
  unfold dropTerminator
  by_cases hf : f = .json
  · have hg := h.1 hf
    subst hf hg
    cases terminated with
    | true => simp
    | false => simp [getLast?_serialize_json]
  · have hg : g ≠ .json := fun hg => hf (h.2 hg)
    simp [hf, hg]

/-! ## The round trip -/

/-- What one codec serializes, every codec of its dialect reads back. -/
theorem deserialize_of_serialize {c reader : Codec} {m : Model} {out : Bytes}
    (hs : c.serialize m = .ok out) (hdialect : reader.dialect = c.dialect)
    (hformat : reader.format = .json ↔ c.format = .json)
    (hvalid : m.packet.isValidFor c.dialect = true) (hfits : m.packet.Fits) :
    reader.deserialize out = .ok m := by
  have hm : m.dialect = c.dialect := by
    apply Decidable.byContradiction
    intro h
    unfold serialize Model.ensureDialect at hs
    rw [if_neg h] at hs
    cases hs
  have hout : out = if c.format = .json ∧ c.settings.jsonNulTerminator then
      m.packet.serialize c.format ++ [0] else m.packet.serialize c.format := by
    unfold serialize Model.ensureDialect at hs
    rw [if_pos hm] at hs
    exact (Except.ok.inj hs).symm
  unfold deserialize
  rw [hout, dropTerminator_serialize hformat.symm, Packet.deserialize_serialize hformat.symm hfits]
  show (if m.packet.isValidFor reader.dialect then Except.ok (Model.mk reader.dialect m.packet)
    else _) = _
  rw [hdialect, if_pos hvalid, ← hm]

/-- Every packet that a dialect can carry is serialized, and it is read back as the same model, also
by another codec of that dialect, whose format may be the other MessagePack format. -/
theorem decodeSerialized_encodeSerialized {c : Codec} {m : Model} (hdialect : m.dialect = c.dialect)
    (hvalid : m.packet.isValidFor c.dialect = true) (hfits : m.packet.Fits) :
    ∃ out, (c.encodeSerialized m).result = .ok out ∧
      ((c.encodeSerialized m).state.decodeSerialized out).result = .ok m ∧
      ∀ reader : Codec, reader.dialect = c.dialect →
        (reader.format = .json ↔ c.format = .json) →
        (reader.decodeSerialized out).result = .ok m := by
  have hserialize : ∃ out, c.serialize m = .ok out := by
    unfold serialize Model.ensureDialect
    rw [if_pos hdialect]
    exact ⟨_, rfl⟩
  obtain ⟨out, hout⟩ := hserialize
  refine ⟨out, hout, ?_, ?_⟩
  · exact deserialize_of_serialize hout rfl Iff.rfl hvalid hfits
  · intro reader hd hf
    exact deserialize_of_serialize hout hd hf hvalid hfits

theorem decodeSerialized_encodeSerialized_quoted :
    let c : Codec := { ofDialect .ngs with format := .messagePack }
    let m : Model :=
      { dialect := .ngs
        packet := .chatMessageNgs { unk7 := "\x00\"\\", message := "é😀", unk4 := 0xFFFF } }
    m.packet.isValidFor c.dialect = true ∧
      ∃ out, (c.encodeSerialized m).result = .ok out ∧
        ((c.encodeSerialized m).state.decodeSerialized out).result = .ok m ∧
        ∀ reader : Codec, reader.dialect = c.dialect →
          (reader.format = .json ↔ c.format = .json) →
          (reader.decodeSerialized out).result = .ok m := by
  intro c m
  have hvalid : m.packet.isValidFor c.dialect = true := rfl
  have hfits : m.packet.Fits := by
    constructor
    · intro s hs
      simp only [m, Packet.texts, List.mem_cons, List.not_mem_nil, or_false] at hs
      cases hs with
      | inl hs => rw [hs]; decide
      | inr hs => rw [hs]; decide
    · intro bs hb
      cases hb
  exact ⟨hvalid, decodeSerialized_encodeSerialized rfl hvalid hfits⟩

end Codec

end GameWire
