import Mathlib.Data.List.Basic
import GameWire.Codec
import GameWire.Proofs.Body.RoundTrip

/-!
# Frames read back

`Codec.Carries` says which frame a packet travels as, apart from the function that makes it.  A
codec reads a frame back as the packet that travels as it, unless the packet is an unknown one that
the codec knows or refuses.
-/

namespace GameWire

namespace FrameHeader

/-! ## Headers -/

/-- A frame is its length, its tag and its reserved bytes, and behind them its body. -/
theorem frame_eq_ok {h : FrameHeader} {body frame : Bytes} (hf : h.frame body = .ok frame) :
    headerLength + body.length < 2 ^ 32 ∧
      frame = Bytes.le 4 (headerLength + body.length) ++
        (h.category :: h.subtype :: h.reserved.bytes ++ body) := by
  unfold FrameHeader.frame FrameHeader.write at hf
  by_cases hl : headerLength + body.length < 2 ^ 32
  · rw [if_pos hl] at hf
    cases hf
    exact ⟨hl, List.append_assoc _ _ _⟩
  · rw [if_neg hl] at hf; cases hf

theorem exists_frame (h : FrameHeader) {body : Bytes}
    (hlength : headerLength + body.length < 2 ^ 32) : ∃ frame, h.frame body = .ok frame := by
  unfold FrameHeader.frame FrameHeader.write
  rw [if_pos hlength]
  exact ⟨_, rfl⟩

theorem length_frame {h : FrameHeader} {body frame : Bytes} (hf : h.frame body = .ok frame) :
    frame.length = headerLength + body.length := by
  rw [(frame_eq_ok hf).2, List.length_append, Bytes.length_le, List.length_append,
    List.length_cons, List.length_cons, h.reserved.length_eq, headerLength]
  omega

/-- The length at the front of a frame covers all of it, and its header is the one it was made
with. -/
theorem parse_frame {h : FrameHeader} {body frame : Bytes} (hf : h.frame body = .ok frame) :
    parse frame = .ok (frame.length, h) := by
  obtain ⟨hl, he⟩ := frame_eq_ok hf
  rw [length_frame hf]
  obtain ⟨category, subtype, ⟨reserved, hr⟩⟩ := h
  obtain ⟨r, s, rfl⟩ := List.length_eq_two.1 hr
  have hn : Bytes.ofLE (Bytes.le 4 (headerLength + body.length)) = headerLength + body.length :=
    Bytes.ofLE_le hl
  rw [he]
  show Except.ok (Bytes.ofLE (Bytes.le 4 (headerLength + body.length)), _) = _
  rw [hn]

/-- A header cannot declare more than its four bytes hold. -/
theorem length_lt_of_parse {frame : Bytes} {declared : Nat} {h : FrameHeader}
    (hp : parse frame = .ok (declared, h)) : declared < 2 ^ 32 := by
  unfold parse at hp
  split at hp
  · rename_i a b c d _ _ _ _ _
    cases hp
    have hlt := Bytes.ofLE_lt [a, b, c, d]
    change _ < 256 ^ 4 at hlt
    omega
  · cases hp

/-- The length of a frame is found at the front of a stream that begins with it. -/
theorem frameLength?_frame {h : FrameHeader} {body frame : Bytes} (hf : h.frame body = .ok frame)
    (more : Bytes) : frameLength? (frame ++ more) = some frame.length := by
  obtain ⟨hl, he⟩ := frame_eq_ok hf
  rw [length_frame hf, he, List.append_assoc]
  exact Bytes.u32At?_append [] _ hl

theorem drop_frame {h : FrameHeader} {body frame : Bytes} (hf : h.frame body = .ok frame) :
    frame.drop headerLength = body := by
  rw [(frame_eq_ok hf).2]
  obtain ⟨category, subtype, ⟨reserved, hr⟩⟩ := h
  obtain ⟨r, s, rfl⟩ := List.length_eq_two.1 hr
  rfl

end FrameHeader

namespace Codec

/-! ## The frame of a packet -/

/-- The frame that a packet travels as under the dialect and the size limit of a codec. -/
inductive Carries (c : Codec) : Packet → Bytes → Prop
  | empty : c.Carries .empty []
  | raw {data : Bytes} (hraw : c.dialect.isRaw = true) : c.Carries (.raw data) data
  | unknown {u : UnknownFrame} {frame : Bytes} (hraw : c.dialect.isRaw = false)
      (hframe : u.header.frame u.data = .ok frame)
      (hlimit : frame.length ≤ c.settings.maxFrameSize) : c.Carries (.unknown u) frame
  | known {p : Packet} {kind : Packet.Kind} {category subtype : UInt8} {body frame : Bytes}
      (hraw : c.dialect.isRaw = false) (hkind : p.kind? = some kind)
      (htag : c.dialect.tagFor? kind = some (category, subtype)) (hbody : p.encodeBody = .ok body)
      (hframe : FrameHeader.frame { category, subtype } body = .ok frame)
      (hlimit : frame.length ≤ c.settings.maxFrameSize) : c.Carries p frame

/-- A packet with a layout is framed with the tag of its kind. -/
theorem framePacket_of_kind {m : Model} {kind : Packet.Kind} (hk : m.packet.kind? = some kind)
    (dialect : Dialect) :
    framePacket m dialect =
      match m.dialect.tagFor? kind with
      | none => .error (.invalidForDialect m.packet.name dialect)
      | some (category, subtype) =>
        m.packet.encodeBody >>= FrameHeader.frame { category, subtype } := by
  obtain ⟨d, p⟩ := m
  cases p <;> cases hk <;> rfl

theorem carries_of_framePacket {c : Codec} {m : Model} {frame : Bytes}
    (hraw : c.dialect.isRaw = false) (hm : m.dialect = c.dialect)
    (hf : framePacket m c.dialect = .ok frame) (hlimit : frame.length ≤ c.settings.maxFrameSize) :
    c.Carries m.packet frame := by
  cases hk : m.packet.kind? with
  | some kind =>
    rw [framePacket_of_kind hk, hm] at hf
    cases ht : c.dialect.tagFor? kind with
    | none => rw [ht] at hf; cases hf
    | some tag =>
      obtain ⟨category, subtype⟩ := tag
      rw [ht] at hf
      cases hb : m.packet.encodeBody with
      | error e => rw [hb] at hf; cases hf
      | ok body =>
        rw [hb] at hf
        exact .known hraw hk ht hb hf hlimit
  | none =>
    obtain ⟨d, p⟩ := m
    cases p with
    | unknown u => exact .unknown hraw hf hlimit
    | empty => cases hf
    | raw data => cases hf
    | _ => cases hk

/-- What is encoded belongs to the codec's dialect and becomes the frame it travels as. -/
theorem carries_of_encodeFrame {c : Codec} {m : Model} {frame : Bytes}
    (hf : c.encodeFrame m = .ok frame) : m.dialect = c.dialect ∧ c.Carries m.packet frame := by
  unfold encodeFrame Model.ensureDialect at hf
  by_cases hm : m.dialect = c.dialect
  · refine ⟨hm, ?_⟩
    rw [if_pos hm] at hf
    simp only [bind, Except.bind, pure, Except.pure] at hf
    -- Nothing, raw bytes, two refusals, and a packet in a frame.
    split at hf
    · rename_i hp
      cases hf
      rw [hp]
      exact .empty
    · rename_i data hp hraw
      cases hf
      rw [hp]
      exact .raw hraw
    · cases hf
    · cases hf
    · rename_i hraw _ _
      cases hp : framePacket m c.dialect with
      | error e => rw [hp] at hf; cases hf
      | ok out =>
        rw [hp] at hf
        change (if out.length > c.settings.maxFrameSize then _ else Except.ok out) = _ at hf
        split at hf
        · cases hf
        · rename_i hl
          cases hf
          exact carries_of_framePacket hraw hm hp (Nat.le_of_not_lt hl)
  · rw [if_neg hm] at hf
    cases hf

theorem encodeFrame_of_framePacket {c : Codec} (hraw : c.dialect.isRaw = false) {p : Packet}
    {frame : Bytes} (hf : framePacket { dialect := c.dialect, packet := p } c.dialect = .ok frame)
    (hlimit : frame.length ≤ c.settings.maxFrameSize) :
    c.encodeFrame { dialect := c.dialect, packet := p } = .ok frame := by
  unfold encodeFrame Model.ensureDialect
  rw [if_pos rfl]
  simp only [bind, Except.bind, pure, Except.pure]
  split
  · cases hf
  · cases hf
  · cases hf
  · rename_i h
    rw [hraw] at h
    cases h
  · rw [hf]
    show (if frame.length > _ then _ else Except.ok frame) = _
    rw [if_neg (Nat.not_lt.2 hlimit)]

/-- A packet of the dialect is encoded as the frame it travels as. -/
theorem encodeFrame_of_carries {c : Codec} {p : Packet} {frame : Bytes} (hc : c.Carries p frame) :
    c.encodeFrame { dialect := c.dialect, packet := p } = .ok frame := by
  cases hc with
  | empty =>
    unfold encodeFrame Model.ensureDialect
    rw [if_pos rfl]
    rfl
  | raw hraw =>
    unfold encodeFrame Model.ensureDialect
    rw [if_pos rfl, hraw]
    rfl
  | unknown hraw hframe hlimit => exact encodeFrame_of_framePacket hraw hframe hlimit
  | known hraw hkind htag hbody hframe hlimit =>
    apply encodeFrame_of_framePacket hraw _ hlimit
    rw [framePacket_of_kind hkind, htag]
    show p.encodeBody >>= _ = _
    rw [hbody]
    exact hframe

/-- A packet of the dialect travels if its body can be written and its frame is within the limit. -/
theorem exists_carries {c : Codec} {p : Packet} {kind : Packet.Kind} {tag : UInt8 × UInt8}
    {body : Bytes} (hraw : c.dialect.isRaw = false) (hkind : p.kind? = some kind)
    (htag : c.dialect.tagFor? kind = some tag) (hbody : p.encodeBody = .ok body)
    (hlength : headerLength + body.length < 2 ^ 32)
    (hlimit : headerLength + body.length ≤ c.settings.maxFrameSize) :
    ∃ frame, c.Carries p frame := by
  obtain ⟨category, subtype⟩ := tag
  obtain ⟨frame, hframe⟩ := FrameHeader.exists_frame { category, subtype } hlength
  rw [← FrameHeader.length_frame hframe] at hlimit
  exact ⟨frame, .known hraw hkind htag hbody hframe hlimit⟩

theorem exists_encodeFrame {c : Codec} {p : Packet} {kind : Packet.Kind} {tag : UInt8 × UInt8}
    {body : Bytes} (hraw : c.dialect.isRaw = false) (hkind : p.kind? = some kind)
    (htag : c.dialect.tagFor? kind = some tag) (hbody : p.encodeBody = .ok body)
    (hlength : headerLength + body.length < 2 ^ 32)
    (hlimit : headerLength + body.length ≤ c.settings.maxFrameSize) :
    ∃ frame, c.encodeFrame { dialect := c.dialect, packet := p } = .ok frame :=
  (exists_carries hraw hkind htag hbody hlength hlimit).imp fun _ => encodeFrame_of_carries

/-- A frame that carries a packet is within the bounds that framing puts on it, and announces its
length. -/
theorem Carries.bounds {c : Codec} {p : Packet} {frame : Bytes} (hraw : c.dialect.isRaw = false)
    (hc : c.Carries p frame) (hp : p ≠ .empty) :
    headerLength ≤ frame.length ∧ frame.length ≤ c.settings.maxFrameSize ∧
      ∀ more, frameLength? (frame ++ more) = some frame.length := by
  cases hc with
  | empty => exact absurd rfl hp
  | raw h => rw [hraw] at h; cases h
  | unknown _ hframe hlimit =>
    refine ⟨?_, hlimit, FrameHeader.frameLength?_frame hframe⟩
    rw [FrameHeader.length_frame hframe]
    exact Nat.le_add_right _ _
  | known _ _ _ _ hframe hlimit =>
    refine ⟨?_, hlimit, FrameHeader.frameLength?_frame hframe⟩
    rw [FrameHeader.length_frame hframe]
    exact Nat.le_add_right _ _

/-! ## Reading frames -/

/-- What a codec converts depends on its dialect and its settings only. -/
theorem conversions_congr {c c' : Codec} (hdialect : c'.dialect = c.dialect)
    (hsettings : c'.settings = c.settings) :
    c'.encodeFrame = c.encodeFrame ∧ c'.decodeFrame = c.decodeFrame := by
  obtain ⟨d, format, settings, error⟩ := c
  obtain ⟨d', format', settings', error'⟩ := c'
  cases hdialect
  cases hsettings
  exact ⟨rfl, rfl⟩

/-- What a codec reads from a frame that was made of a header and a body. -/
theorem decodeFrame_frame {c : Codec} (hraw : c.dialect.isRaw = false) {h : FrameHeader}
    {body frame : Bytes} (hf : h.frame body = .ok frame)
    (hlimit : frame.length ≤ c.settings.maxFrameSize) :
    c.decodeFrame frame =
      match c.dialect.lookup? h.category h.subtype with
      | some kind =>
        (Packet.decodeBody kind body).map fun packet => { dialect := c.dialect, packet }
      | none =>
        if c.settings.allowUnknownPackets then
          .ok { dialect := c.dialect, packet := .unknown { header := h, data := body } }
        else .error (.unknownPacket h.category h.subtype c.dialect) := by
  have hlen := FrameHeader.length_frame hf
  have hne : frame.isEmpty = false := by
    cases frame with
    | nil => rw [List.length_nil, headerLength] at hlen; omega
    | cons b bs => rfl
  unfold decodeFrame
  rw [hraw, hne, FrameHeader.parse_frame hf, FrameHeader.drop_frame hf]
  simp only [Bool.false_eq_true, if_false, bind, Except.bind, ne_eq, not_true_eq_false,
    Nat.not_lt.2 hlimit]
  cases c.dialect.lookup? h.category h.subtype with
  | some kind => cases hb : Packet.decodeBody kind body <;> rfl
  | none => rfl

/-- What a codec reads a frame as.  Under a header, which declares the whole frame, stands a body of
the kind that the tag means, or one that is left as it is because the tag means nothing. -/
inductive Reads (c : Codec) (frame : Bytes) : Packet → Prop
  | raw (hraw : c.dialect.isRaw = true) : c.Reads frame (.raw frame)
  | empty (hraw : c.dialect.isRaw = false) (hnil : frame = []) : c.Reads frame .empty
  | known {header : FrameHeader} {kind : Packet.Kind} {p : Packet}
      (hraw : c.dialect.isRaw = false)
      (hparse : FrameHeader.parse frame = .ok (frame.length, header))
      (hlimit : frame.length ≤ c.settings.maxFrameSize)
      (hlookup : c.dialect.lookup? header.category header.subtype = some kind)
      (hbody : Packet.decodeBody kind (frame.drop headerLength) = .ok p) : c.Reads frame p
  | unknown {header : FrameHeader} (hraw : c.dialect.isRaw = false)
      (hparse : FrameHeader.parse frame = .ok (frame.length, header))
      (hlimit : frame.length ≤ c.settings.maxFrameSize)
      (hlookup : c.dialect.lookup? header.category header.subtype = none)
      (hallow : c.settings.allowUnknownPackets = true) :
      c.Reads frame (.unknown { header, data := frame.drop headerLength })

theorem reads_of_decodeFrame {c : Codec} {frame : Bytes} {m : Model}
    (h : c.decodeFrame frame = .ok m) : m.dialect = c.dialect ∧ c.Reads frame m.packet := by
  unfold decodeFrame at h
  -- The cases are the checks of a frame, in the order in which they are made.
  by_cases hraw : c.dialect.isRaw = true
  · rw [if_pos hraw] at h
    cases h
    exact ⟨rfl, .raw hraw⟩
  · rw [if_neg hraw] at h
    replace hraw := Bool.eq_false_iff.2 hraw
    by_cases hnil : frame.isEmpty = true
    · rw [if_pos hnil] at h
      cases h
      exact ⟨rfl, .empty hraw (List.isEmpty_iff.1 hnil)⟩
    · rw [if_neg hnil] at h
      cases hparse : FrameHeader.parse frame with
      | error e => rw [hparse] at h; cases h
      | ok parsed =>
        obtain ⟨declared, header⟩ := parsed
        rw [hparse] at h
        simp only [bind, Except.bind] at h
        by_cases hlength : declared ≠ frame.length
        · rw [if_pos hlength] at h
          cases h
        · rw [if_neg hlength] at h
          obtain rfl := not_not.1 hlength
          by_cases hlimit : frame.length > c.settings.maxFrameSize
          · rw [if_pos hlimit] at h
            cases h
          · rw [if_neg hlimit] at h
            replace hlimit := Nat.le_of_not_lt hlimit
            cases hlookup : c.dialect.lookup? header.category header.subtype with
            | some kind =>
              rw [hlookup] at h
              cases hbody : Packet.decodeBody kind (frame.drop headerLength) with
              | error e => simp only [hbody] at h; cases h
              | ok packet =>
                simp only [hbody] at h
                cases h
                exact ⟨rfl, .known hraw hparse hlimit hlookup hbody⟩
            | none =>
              rw [hlookup] at h
              by_cases hallow : c.settings.allowUnknownPackets = true
              · simp only [if_pos hallow] at h
                cases h
                exact ⟨rfl, .unknown hraw hparse hlimit hlookup hallow⟩
              · simp only [if_neg hallow] at h
                cases h

/-- No frame that is longer than the limit is decoded. -/
theorem length_le_of_decodeFrame {c : Codec} (hraw : c.dialect.isRaw = false) {frame : Bytes}
    {m : Model} (h : c.decodeFrame frame = .ok m) : frame.length ≤ c.settings.maxFrameSize := by
  have hreads := (reads_of_decodeFrame h).2
  generalize m.packet = p at hreads
  cases hreads with
  | raw h => rw [hraw] at h; cases h
  | empty _ hnil =>
    rw [hnil]
    exact Nat.zero_le _
  | known _ _ hlimit => exact hlimit
  | unknown _ _ hlimit => exact hlimit

/-- A codec tells a packet from all others by its frame, unless the packet is an unknown one whose
tag is known. -/
inductive Distinguishes (c : Codec) : Packet → Prop
  | framed {p : Packet} (hraw : c.dialect.isRaw = false) (hp : ∀ u, p ≠ .unknown u) :
      c.Distinguishes p
  | raw (data : Bytes) (hraw : c.dialect.isRaw = true) : c.Distinguishes (.raw data)
  | unknown (u : UnknownFrame) (hraw : c.dialect.isRaw = false)
      (hallow : c.settings.allowUnknownPackets = true)
      (htag : c.dialect.lookup? u.header.category u.header.subtype = none) :
      c.Distinguishes (.unknown u)

/-- The frame of a packet is read back as that packet. -/
theorem decodeFrame_of_carries {c : Codec} {p : Packet} {frame : Bytes} (hp : c.Distinguishes p)
    (hc : c.Carries p frame) : c.decodeFrame frame = .ok { dialect := c.dialect, packet := p } := by
  cases hc with
  | empty =>
    cases hp with
    | framed hraw =>
      unfold decodeFrame
      rw [hraw]
      rfl
  | raw hraw =>
    unfold decodeFrame
    rw [hraw]
    rfl
  | unknown hraw hframe hlimit =>
    cases hp with
    | framed _ hu => exact absurd rfl (hu _)
    | unknown u _ hallow htag =>
      rw [decodeFrame_frame hraw hframe hlimit, htag]
      exact if_pos hallow
  | known hraw hkind htag hbody hframe hlimit =>
    have hb := Packet.decodeBody_encodeBody hkind hbody
    rw [decodeFrame_frame hraw hframe hlimit, Dialect.lookup?_of_tagFor? htag]
    show (Packet.decodeBody _ _).map _ = _
    rw [hb]
    rfl

/-- What a codec makes of a model, it reads back as that model. -/
def Restores (c : Codec) (m : Model) : Prop :=
  ∀ frame, c.encodeFrame m = .ok frame → c.decodeFrame frame = .ok m

theorem restores_congr {c c' : Codec} (hdialect : c'.dialect = c.dialect)
    (hsettings : c'.settings = c.settings) {m : Model} (h : c.Restores m) : c'.Restores m := by
  obtain ⟨hencode, hdecode⟩ := conversions_congr hdialect hsettings
  unfold Restores
  rw [hencode, hdecode]
  exact h

theorem Distinguishes.restores {c : Codec} {m : Model} (hp : c.Distinguishes m.packet) :
    c.Restores m := by
  intro frame hf
  obtain ⟨hm, hc⟩ := carries_of_encodeFrame hf
  have hd := decodeFrame_of_carries hp hc
  obtain ⟨dialect, packet⟩ := m
  obtain rfl : dialect = c.dialect := hm
  exact hd

/-! ## The round trip -/

/-- Whatever a codec encodes, it decodes to the same model. -/
theorem decodeRaw_encodeRaw {c : Codec} {m : Model} {frame : Bytes}
    (hp : c.Distinguishes m.packet) (hf : (c.encodeRaw m).result = .ok frame) :
    ((c.encodeRaw m).state.decodeRaw frame).result = .ok m :=
  hp.restores frame hf

theorem decodeRaw_encodeRaw_surrogatePair :
    let c := ofDialect .classic
    let m : Model :=
      { dialect := .classic
        packet := .systemMessage { message := "é😀", msgType := .undefined, msgNum := 7 } }
    let frame : Bytes :=
      [0x20, 0, 0, 0, 0x19, 0x01, 0, 0, 0x51, 0x78, 0, 0, 0xE9, 0, 0x3D, 0xD8, 0x00, 0xDE, 0, 0,
        0x55, 0x78, 0, 0, 0xFF, 0xFF, 0xFF, 0xFF, 7, 0, 0, 0]
    c.Distinguishes m.packet ∧ (c.encodeRaw m).result = .ok frame ∧
      ((c.encodeRaw m).state.decodeRaw frame).result = .ok m := by
  intro c m frame
  have hp : c.Distinguishes m.packet := .framed rfl fun u hu => by cases hu
  have hf : (c.encodeRaw m).result = .ok frame := rfl
  exact ⟨hp, hf, decodeRaw_encodeRaw hp hf⟩

end Codec

end GameWire
