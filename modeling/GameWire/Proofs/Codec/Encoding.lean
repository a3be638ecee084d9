import GameWire.Proofs.Body.Writing
import GameWire.Proofs.Codec.Transcoding

/-!
# What a codec can encode

A codec encodes the models of its dialect whose packets the dialect can carry and whose bodies can
be written, as long as the frame is within the limit of the codec and its length within the four
bytes that announce it.  The frame shows the length, the tag and the body.
-/

namespace GameWire

namespace Dialect

theorem isRaw_eq_false_of_tagFor? {d : Dialect} {kind : Packet.Kind} {tag : UInt8 × UInt8}
    (h : d.tagFor? kind = some tag) : d.isRaw = false := by
  cases d with
  | raw => cases h
  | _ => rfl

end Dialect

theorem Packet.isValidFor_of_tagFor? {p : Packet} {kind : Packet.Kind} (hk : p.kind? = some kind)
    {d : Dialect} {tag : UInt8 × UInt8} (h : d.tagFor? kind = some tag) :
    p.isValidFor d = true := by
  rw [Packet.isValidFor_of_kind hk, h]
  rfl

theorem Model.tag?_of_kind {m : Model} {kind : Packet.Kind} (hk : m.packet.kind? = some kind) :
    m.tag? = m.dialect.tagFor? kind := by
  obtain ⟨d, p⟩ := m
  cases p <;> cases hk <;> rfl

namespace FrameHeader

/-! ## What a frame shows -/

theorem ofLE_take_frame {h : FrameHeader} {body frame : Bytes} (hf : h.frame body = .ok frame) :
    Bytes.ofLE (frame.take 4) = frame.length := by
  obtain ⟨hlength, hframe⟩ := frame_eq_ok hf
  rw [length_frame hf, hframe, List.take_left' (Bytes.length_le _ _)]
  exact Bytes.ofLE_le hlength

theorem take_drop_frame {h : FrameHeader} {body frame : Bytes} (hf : h.frame body = .ok frame) :
    (frame.drop 4).take 2 = [h.category, h.subtype] := by
  rw [(frame_eq_ok hf).2, List.drop_left' (Bytes.length_le _ _)]
  rfl

end FrameHeader

namespace Codec

/-- What the frame of a model shows of it: its own length, the tag and the body. -/
structure Shows (frame : Bytes) (m : Model) : Prop where
  announced : Bytes.ofLE (frame.take 4) = frame.length
  tag : ∃ category subtype, m.tag? = some (category, subtype) ∧
    (frame.drop 4).take 2 = [category, subtype]
  body : m.packet.encodeBody = .ok (frame.drop headerLength)
  length : frame.length = headerLength + m.packet.bodyLength

theorem shows_of_frame {m : Model} {h : FrameHeader} {body frame : Bytes}
    (htag : m.tag? = some (h.category, h.subtype)) (hbody : m.packet.encodeBody = .ok body)
    (hframe : h.frame body = .ok frame) : Shows frame m where
  announced := FrameHeader.ofLE_take_frame hframe
  tag := ⟨h.category, h.subtype, htag, FrameHeader.take_drop_frame hframe⟩
  body := by rw [FrameHeader.drop_frame hframe, hbody]
  length := by
    rw [FrameHeader.length_frame hframe, (m.packet.written_encodeBody.of_ok body hbody).2]

/-! ## Models that can be encoded -/

structure Encodable (c : Codec) (m : Model) : Prop where
  belongs : m.BelongsTo c.dialect
  writable : m.packet.Writable
  /-- Only the empty packet and those of the raw dialect travel without a header. -/
  size : m.packet ≠ .empty → c.dialect.isRaw = false →
    headerLength + m.packet.bodyLength ≤ c.settings.maxFrameSize ∧
      headerLength + m.packet.bodyLength ≤ 2 ^ 32 - 1

variable {c : Codec} {m : Model} {frame : Bytes}

/-- A packet that travels in a frame travels as a header with its tag and its body. -/
theorem Carries.exists_header (hdialect : m.dialect = c.dialect) (hraw : c.dialect.isRaw = false)
    (hempty : m.packet ≠ .empty) (hc : c.Carries m.packet frame) :
    ∃ (h : FrameHeader) (body : Bytes), m.tag? = some (h.category, h.subtype) ∧
      m.packet.encodeBody = .ok body ∧ h.frame body = .ok frame ∧
      frame.length ≤ c.settings.maxFrameSize := by
  obtain ⟨d, p⟩ := m
  obtain rfl : d = c.dialect := hdialect
  cases hc with
  | empty => exact absurd rfl hempty
  | raw h =>
    rw [hraw] at h
    cases h
  | @unknown u _ _ hframe hlimit => exact ⟨u.header, u.data, rfl, rfl, hframe, hlimit⟩
  | @known _ kind category subtype body _ _ hkind htag hbody hframe hlimit =>
    refine ⟨{ category, subtype }, body, ?_, hbody, hframe, hlimit⟩
    rw [Model.tag?_of_kind hkind]
    exact htag

theorem Carries.isValidFor {p : Packet} (hc : c.Carries p frame) :
    p.isValidFor c.dialect = true := by
  cases hc with
  | empty => rfl
  | raw hraw => exact hraw
  | unknown hraw =>
    show (!c.dialect.isRaw) = true
    rw [hraw]
    rfl
  | known _ hkind htag => exact Packet.isValidFor_of_tagFor? hkind htag

theorem Carries.exists_body {p : Packet} (hc : c.Carries p frame) :
    ∃ body, p.encodeBody = .ok body := by
  cases hc with
  | empty => exact ⟨_, rfl⟩
  | raw => exact ⟨_, rfl⟩
  | unknown => exact ⟨_, rfl⟩
  | known _ _ _ hbody => exact ⟨_, hbody⟩

theorem encodable_of_carries (hdialect : m.dialect = c.dialect) (hc : c.Carries m.packet frame) :
    c.Encodable m where
  belongs := ⟨hdialect, hc.isValidFor⟩
  writable := by
    obtain ⟨body, hbody⟩ := hc.exists_body
    exact (m.packet.written_encodeBody.of_ok body hbody).1
  size hempty hraw := by
    obtain ⟨h, body, -, hbody, hframe, hlimit⟩ := hc.exists_header hdialect hraw hempty
    have hsize := (m.packet.written_encodeBody.of_ok body hbody).2
    have hlt := (FrameHeader.frame_eq_ok hframe).1
    rw [FrameHeader.length_frame hframe] at hlimit
    rw [← hsize]
    exact ⟨hlimit, by omega⟩

/-- There is a frame for every model that can be encoded. -/
theorem Encodable.exists_frame (h : c.Encodable m) : ∃ frame, c.Carries m.packet frame := by
  obtain ⟨body, hbody⟩ := m.packet.written_encodeBody.exists_ok h.writable
  have hlength := (m.packet.written_encodeBody.of_ok body hbody).2
  have hvalid := h.belongs.valid
  -- Only three packets have no kind, and these hold all that they travel as.
  cases hk : m.packet.kind? with
  | some kind =>
    rw [Packet.isValidFor_of_kind hk, Option.isSome_iff_exists] at hvalid
    obtain ⟨tag, htag⟩ := hvalid
    have hraw := Dialect.isRaw_eq_false_of_tagFor? htag
    have hempty : m.packet ≠ .empty := fun hm => by rw [hm] at hk; cases hk
    obtain ⟨hlimit, hcount⟩ := h.size hempty hraw
    rw [← hlength] at hlimit hcount
    exact exists_carries hraw hk htag hbody (by omega) hlimit
  | none =>
    have hsize := h.size
    obtain ⟨d, p⟩ := m
    cases p with
    | empty => exact ⟨[], .empty⟩
    | raw data => exact ⟨data, .raw hvalid⟩
    | unknown u =>
      have hraw : c.dialect.isRaw = false := by
        change (!c.dialect.isRaw) = true at hvalid
        rwa [Bool.not_eq_true'] at hvalid
      obtain ⟨hlimit, hcount⟩ := hsize (fun hu => by cases hu) hraw
      obtain ⟨frame, hframe⟩ := FrameHeader.exists_frame u.header
        (show headerLength + u.data.length < 2 ^ 32 by
          change headerLength + u.data.length ≤ 2 ^ 32 - 1 at hcount
          omega)
      change headerLength + u.data.length ≤ _ at hlimit
      rw [← FrameHeader.length_frame hframe] at hlimit
      exact ⟨frame, .unknown hraw hframe hlimit⟩
    | _ => cases hk

theorem encodeFrame_succeeds_iff : (∃ frame, c.encodeFrame m = .ok frame) ↔ c.Encodable m := by
  constructor
  · rintro ⟨frame, hf⟩
    obtain ⟨hdialect, hc⟩ := carries_of_encodeFrame hf
    exact encodable_of_carries hdialect hc
  · intro h
    obtain ⟨frame, hc⟩ := h.exists_frame
    have hf := encodeFrame_of_carries hc
    rw [← h.belongs.dialect] at hf
    exact ⟨frame, hf⟩

/-- A codec encodes the models that it can encode and no others.  The frames of a dialect that has
frames show their length, tag and body. -/
theorem encodeRaw_succeeds_iff (c : Codec) (m : Model) :
    ((∃ frame, (c.encodeRaw m).result = .ok frame) ↔ c.Encodable m) ∧
      ∀ frame, c.dialect.isRaw = false → (c.encodeRaw m).result = .ok frame →
        (m.packet = .empty → frame = []) ∧ (m.packet ≠ .empty → Shows frame m) := by
  refine ⟨encodeFrame_succeeds_iff, ?_⟩
  intro frame hraw hf
  obtain ⟨hdialect, hc⟩ := carries_of_encodeFrame hf
  constructor
  · intro hempty
    rw [hempty] at hc
    cases hc with
    | empty => rfl
    | known _ hkind => cases hkind
  · intro hempty
    obtain ⟨h, body, htag, hbody, hframe, -⟩ := hc.exists_header hdialect hraw hempty
    exact shows_of_frame htag hbody hframe

-- The limit counts every byte of a frame, also those of a surrogate pair and of the padding.
theorem encodeRaw_succeeds_atLimit :
    let c (limit : Nat) : Codec := { ofDialect .classic with settings := { maxFrameSize := limit } }
    let m : Model :=
      { dialect := .classic
        packet := .systemMessage { message := "é😀", msgType := .undefined, msgNum := 7 } }
    (c 32).Encodable m ∧ ¬(c 31).Encodable m ∧
      ∃ frame, ((c 32).encodeRaw m).result = .ok frame ∧ Shows frame m := by
  intro c m
  have h := encodeRaw_succeeds_iff (c 32) m
  obtain ⟨frame, hf⟩ : ∃ frame, ((c 32).encodeRaw m).result = .ok frame := ⟨_, rfl⟩
  refine ⟨h.1.1 ⟨frame, hf⟩, ?_, frame, hf, (h.2 frame rfl hf).2 fun hm => by cases hm⟩
  intro hless
  obtain ⟨out, hout⟩ := (encodeRaw_succeeds_iff (c 31) m).1.2 hless
  cases hout

end Codec

end GameWire
