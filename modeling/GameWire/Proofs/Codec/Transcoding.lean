import GameWire.Proofs.Body.Bounds
import GameWire.Proofs.Codec.RoundTrip
import GameWire.Proofs.Codec.Serialized

/-!
# Frames and serialized packets turned into each other

Both ways go through the model of the frame.  Whatever a codec decodes, from either side, is a model
that its dialect can carry; and a model from a frame of less than `2 ^ 31` bytes is read back from
its serialized form, so nothing is lost on the way there.
-/

namespace GameWire

namespace Dialect

/-- A kind that some tag means has a tag. -/
theorem isSome_tagFor?_of_lookup? {d : Dialect} {category subtype : UInt8} {kind : Packet.Kind}
    (h : d.lookup? category subtype = some kind) : (d.tagFor? kind).isSome = true := by
  obtain ⟨entry, hfound, rfl⟩ := Option.map_eq_some_iff.1 h
  unfold tagFor?
  rw [Option.isSome_map, List.find?_isSome]
  exact ⟨entry, List.mem_of_find?_eq_some hfound, beq_self_eq_true _⟩

end Dialect

theorem Packet.isValidFor_of_kind {p : Packet} {kind : Packet.Kind} (hk : p.kind? = some kind)
    (d : Dialect) : p.isValidFor d = (d.tagFor? kind).isSome := by
  cases p <;> cases hk <;> rfl

/-- A model that belongs to a dialect, which can carry its packet. -/
structure Model.BelongsTo (m : Model) (d : Dialect) : Prop where
  dialect : m.dialect = d
  valid : m.packet.isValidFor d = true

namespace Codec

/-! ## What is decoded -/

/-- A frame is decoded to a model of the dialect, which holds nothing longer than the frame. -/
theorem decodeFrame_eq_ok {c : Codec} {frame : Bytes} {m : Model}
    (h : c.decodeFrame frame = .ok m) : m.BelongsTo c.dialect ∧ m.packet.Bounded frame.length := by
  have hbody : (frame.drop headerLength).length ≤ frame.length := by
    rw [List.length_drop]
    exact Nat.sub_le _ _
  obtain ⟨hdialect, hreads⟩ := reads_of_decodeFrame h
  obtain ⟨d, p⟩ := m
  cases hreads with
  | raw hraw => exact ⟨⟨hdialect, hraw⟩, Packet.bounded_of_byteString rfl rfl (Nat.le_refl _)⟩
  | empty => exact ⟨⟨hdialect, rfl⟩, Packet.bounded_of_plain rfl rfl⟩
  | known _ _ _ hlookup hdecode =>
    obtain ⟨hkind, -, hbounded⟩ := Packet.decodeBody_eq_ok hdecode
    refine ⟨⟨hdialect, ?_⟩, hbounded.mono hbody⟩
    rw [Packet.isValidFor_of_kind hkind]
    exact Dialect.isSome_tagFor?_of_lookup? hlookup
  | unknown hraw =>
    refine ⟨⟨hdialect, ?_⟩, Packet.bounded_of_byteString rfl rfl hbody⟩
    show (!c.dialect.isRaw) = true
    rw [hraw]
    rfl

theorem deserialize_eq_ok {c : Codec} {bs : Bytes} {m : Model} (h : c.deserialize bs = .ok m) :
    m.BelongsTo c.dialect := by
  unfold deserialize at h
  cases hp : Packet.deserialize c.format (dropTerminator c.format bs) with
  | error e => rw [hp] at h; cases h
  | ok packet =>
    rw [hp] at h
    simp only [bind, Except.bind] at h
    by_cases hvalid : packet.isValidFor c.dialect = true
    · rw [if_pos hvalid] at h
      cases h
      exact ⟨rfl, hvalid⟩
    · rw [if_neg hvalid] at h
      cases h

/-! ## To a serialized packet and back -/

/-- A frame is turned into a serialized packet and back by way of its model. -/
structure Transcodes (c : Codec) (frame : Bytes) : Prop where
  /-- It is turned into a serialized packet if and only if it is decoded. -/
  succeeds : (∃ out, (c.rawToSerialized frame).result = .ok out) ↔
    ∃ m, (c.decodeRaw frame).result = .ok m
  serialized : ∀ m, (c.decodeRaw frame).result = .ok m →
    (c.rawToSerialized frame).result = ((c.decodeRaw frame).state.encodeSerialized m).result
  /-- Turned back, it is what encoding its model makes of it, also if that fails. -/
  back : ∀ m out, (c.decodeRaw frame).result = .ok m → (c.rawToSerialized frame).result = .ok out →
    ((c.rawToSerialized frame).state.serializedToRaw out).result =
      ((c.decodeRaw frame).state.encodeRaw m).result
  /-- A frame that the codec made itself comes back. -/
  restored : ∀ m, c.dialect.isRaw = false → (∀ u, m.packet ≠ .unknown u) →
    (c.encodeRaw m).result = .ok frame → ∃ out, (c.rawToSerialized frame).result = .ok out ∧
      ((c.rawToSerialized frame).state.serializedToRaw out).result = .ok frame

/-- Every model of the dialect has a serialized form. -/
theorem exists_serialize {c : Codec} {m : Model} (hdialect : m.dialect = c.dialect) :
    ∃ out, c.serialize m = .ok out := by
  unfold serialize Model.ensureDialect
  rw [if_pos hdialect]
  exact ⟨_, rfl⟩

theorem rawToSerialized_of_decodeFrame {c : Codec} {frame : Bytes} {m : Model}
    (hd : c.decodeFrame frame = .ok m) : (c.rawToSerialized frame).result = c.serialize m := by
  show (c.decodeFrame frame >>= c.serialize) = _
  rw [hd]
  rfl

theorem serializedToRaw_rawToSerialized {c : Codec} {frame out : Bytes} {m : Model}
    (hlength : frame.length < 2 ^ 31) (hd : c.decodeFrame frame = .ok m)
    (hs : (c.rawToSerialized frame).result = .ok out) :
    ((c.rawToSerialized frame).state.serializedToRaw out).result = c.encodeFrame m := by
  obtain ⟨hm, hbounded⟩ := decodeFrame_eq_ok hd
  rw [rawToSerialized_of_decodeFrame hd] at hs
  have hback : c.deserialize out = .ok m :=
    deserialize_of_serialize hs rfl Iff.rfl hm.valid (hbounded.fits hlength)
  show (c.deserialize out >>= c.encodeFrame) = _
  rw [hback]
  rfl

theorem transcodes_of_length_lt {c : Codec} {frame : Bytes} (hlength : frame.length < 2 ^ 31) :
    c.Transcodes frame where
  succeeds := by
    constructor
    · rintro ⟨out, hout⟩
      change (c.decodeFrame frame >>= c.serialize) = .ok out at hout
      cases hd : c.decodeFrame frame with
      | error e => rw [hd] at hout; cases hout
      | ok m => exact ⟨m, hd⟩
    · rintro ⟨m, hd⟩
      rw [rawToSerialized_of_decodeFrame hd]
      exact exists_serialize (decodeFrame_eq_ok hd).1.dialect
  serialized m hd := rawToSerialized_of_decodeFrame hd
  back m out hd hs := serializedToRaw_rawToSerialized hlength hd hs
  restored m hraw hknown he := by
    have hd : c.decodeFrame frame = .ok m :=
      Distinguishes.restores (.framed hraw hknown) frame he
    obtain ⟨out, hout⟩ := exists_serialize (decodeFrame_eq_ok hd).1.dialect
    have hs : (c.rawToSerialized frame).result = .ok out := by
      rw [rawToSerialized_of_decodeFrame hd, hout]
    exact ⟨out, hs, (serializedToRaw_rawToSerialized hlength hd hs).trans he⟩

/-- Every frame that is not too long is transcoded by way of its model, and all models that come out
of a codec belong to its dialect. -/
theorem transcodes (c : Codec) :
    (∀ frame : Bytes, frame.length < 2 ^ 31 → c.Transcodes frame) ∧
      (∀ frame m, (c.decodeRaw frame).result = .ok m → m.BelongsTo c.dialect) ∧
      ∀ bs m, (c.decodeSerialized bs).result = .ok m → m.BelongsTo c.dialect :=
  ⟨fun _ hlength => transcodes_of_length_lt hlength, fun _ _ h => (decodeFrame_eq_ok h).1,
    fun _ _ h => deserialize_eq_ok h⟩

-- Reserved bytes mean nothing in a known packet, so they are zero when its frame comes back.
theorem transcodes_reservedBytes :
    let c : Codec := { ofDialect .classic with format := .messagePack }
    let frame : Bytes := [0x0C, 0, 0, 0, 0x19, 0x0F, 7, 7, 5, 0, 0, 0]
    frame.length < 2 ^ 31 ∧ c.Transcodes frame ∧
      ∃ out, (c.rawToSerialized frame).result = .ok out ∧
        ((c.rawToSerialized frame).state.serializedToRaw out).result =
          .ok [0x0C, 0, 0, 0, 0x19, 0x0F, 0, 0, 5, 0, 0, 0] := by
  intro c frame
  have hlength : frame.length < 2 ^ 31 := by decide
  have h : c.Transcodes frame := (transcodes c).1 frame hlength
  have hd : (c.decodeRaw frame).result =
      .ok { dialect := .classic, packet := .lobbyMonitor { videoId := 5 } } := rfl
  obtain ⟨out, hout⟩ := h.succeeds.2 ⟨_, hd⟩
  exact ⟨hlength, h, out, hout, (h.back _ out hd hout).trans rfl⟩

end Codec

end GameWire
