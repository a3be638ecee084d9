import GameWire.Proofs.Body.Delimited
import GameWire.Proofs.Codec.Encoding

/-!
# Frames that are accepted

Many frames stand for one model: a text may lack its closing NUL or go on behind it, a number may
mean nothing, and bytes that are skipped may be anything.  Whichever frame a codec has accepted, it
writes one frame for its model, which it reads and writes as it is from then on.  It can fail to
write one for two reasons only, both of which are about lengths.  No frame is accepted whose body is
that of an accepted one, cut short or with more behind it, unless its kind takes all there is.
-/

namespace GameWire

theorem UnitsWithin.writable {most : Nat} {s : String} (h : UnitsWithin most s)
    (hmost : most < 2 ^ 32) : MaskedText.Writable s where
  noNul hnul := h.noNul (Utf16.zero_mem_encode.2 hnul)
  countable := by
    have hlength := h.length_le
    omega

theorem FrameHeader.tag_of_parse {frame : Bytes} {declared : Nat} {h : FrameHeader}
    (hp : parse frame = .ok (declared, h)) : (frame.drop 4).take 2 = [h.category, h.subtype] := by
  unfold parse at hp
  split at hp
  · cases hp
    rfl
  · cases hp

namespace Codec

/-! ## Written again -/

/-- A model as frames are decoded to it: it is read back from the frame that it travels as, and all
its texts have a place in one. -/
structure Accepted (c : Codec) (m : Model) : Prop where
  belongs : m.BelongsTo c.dialect
  restored : c.Restores m
  texts : ∀ s ∈ m.packet.texts, MaskedText.Writable s

variable {c : Codec} {m : Model} {frame : Bytes}

theorem Reads.distinguishes {p : Packet} (h : c.Reads frame p) : c.Distinguishes p := by
  cases h with
  | raw hraw => exact .raw frame hraw
  | empty hraw => exact .framed hraw fun u hu => by cases hu
  | known hraw _ _ _ hbody =>
    apply Distinguishes.framed hraw
    rintro u rfl
    have hkind := (Packet.decodeBody_eq_ok hbody).1
    cases hkind
  | unknown hraw _ _ hlookup hallow => exact .unknown _ hraw hallow hlookup

theorem Reads.writable {p : Packet} (h : c.Reads frame p) :
    ∀ s ∈ p.texts, MaskedText.Writable s := by
  intro s hs
  cases h with
  | raw => cases hs
  | empty => cases hs
  | known _ hparse _ _ hbody =>
    -- The body is shorter than its frame, whose length stood in four bytes.
    have hlt := FrameHeader.length_lt_of_parse hparse
    apply ((Packet.decodeBody_eq_ok hbody).2.1 s hs).writable
    rw [List.length_drop]
    omega
  | unknown => cases hs

theorem accepted_of_decodeFrame (h : c.decodeFrame frame = .ok m) : c.Accepted m where
  belongs := (decodeFrame_eq_ok h).1
  restored := (reads_of_decodeFrame h).2.distinguishes.restores
  texts := (reads_of_decodeFrame h).2.writable

/-- A codec writes a model, which it then reads back and writes as before, or lengths forbid it. -/
structure Normalises (c : Codec) (m : Model) : Prop where
  fixed : ∀ frame, (c.encodeRaw m).result = .ok frame →
    ((c.encodeRaw m).state.decodeRaw frame).result = .ok m ∧
      (((c.encodeRaw m).state.decodeRaw frame).state.encodeRaw m).result = .ok frame
  failure : ∀ e, (c.encodeRaw m).result = .error e →
    (∃ request, m.packet = .encryptionRequest request ∧
      KeyBlock.capacity < request.rsaData.length) ∨
    ∃ body, m.packet.encodeBody = .ok body ∧
      (c.settings.maxFrameSize < headerLength + body.length ∨
        2 ^ 32 - 1 < headerLength + body.length)

theorem Accepted.writable (h : c.Accepted m)
    (hkey : ¬∃ request, m.packet = .encryptionRequest request ∧
      KeyBlock.capacity < request.rsaData.length) : m.packet.Writable where
  texts := h.texts
  keyData request hrequest :=
    Nat.le_of_not_lt fun hlength => hkey ⟨request, hrequest, hlength⟩

theorem Accepted.normalises (h : c.Accepted m) : c.Normalises m where
  fixed frame hframe := ⟨h.restored frame hframe, hframe⟩
  failure e he := by
    by_cases hkey : ∃ request, m.packet = .encryptionRequest request ∧
        KeyBlock.capacity < request.rsaData.length
    · exact .inl hkey
    · right
      have hwritable := h.writable hkey
      obtain ⟨body, hbody⟩ := m.packet.written_encodeBody.exists_ok hwritable
      have hlength := (m.packet.written_encodeBody.of_ok body hbody).2
      refine ⟨body, hbody, ?_⟩
      -- If the frame were short enough, nothing would keep it from being written.
      by_contra hshort
      have hsize : headerLength + m.packet.bodyLength ≤ c.settings.maxFrameSize ∧
          headerLength + m.packet.bodyLength ≤ 2 ^ 32 - 1 := by
        rw [← hlength]
        omega
      obtain ⟨frame, hframe⟩ :=
        encodeFrame_succeeds_iff.2 ⟨h.belongs, hwritable, fun _ _ => hsize⟩
      change c.encodeFrame m = .error e at he
      rw [hframe] at he
      cases he

/-- Whatever frame was accepted, writing its model again normalises it. -/
theorem normalises_of_decodeRaw (h : (c.decodeRaw frame).result = .ok m) :
    (c.decodeRaw frame).state.Normalises m := by
  have haccepted := accepted_of_decodeFrame h
  -- What was read is remembered nowhere but in the error slot.
  have hnext : (c.decodeRaw frame).state.Accepted m :=
    ⟨haccepted.belongs, haccepted.restored, haccepted.texts⟩
  exact hnext.normalises

-- A text without its closing NUL takes more room when it is written: the frame of its model may
-- then be over a limit that the frame that was read is within.
theorem normalises_unterminated :
    let c (limit : Nat) : Codec := { ofDialect .classic with settings := { maxFrameSize := limit } }
    let m : Model :=
      { dialect := .classic
        packet := .systemMessage { message := "AB", msgType := .undefined, msgNum := 7 } }
    let frame : Bytes :=
      [0x1C, 0, 0, 0, 0x19, 0x01, 5, 6, 0x53, 0x78, 0, 0, 0x41, 0, 0x42, 0, 0x55, 0x78, 0, 0,
        9, 0, 0, 0, 7, 0, 0, 0]
    let written : Bytes :=
      [0x20, 0, 0, 0, 0x19, 0x01, 0, 0, 0x52, 0x78, 0, 0, 0x41, 0, 0x42, 0, 0, 0, 0, 0,
        0x55, 0x78, 0, 0, 0xFF, 0xFF, 0xFF, 0xFF, 7, 0, 0, 0]
    ((c 32).decodeRaw frame).result = .ok m ∧ ((c 32).decodeRaw frame).state.Normalises m ∧
      (((c 32).decodeRaw frame).state.encodeRaw m).result = .ok written ∧
      ((c 28).decodeRaw frame).result = .ok m ∧ ((c 28).decodeRaw frame).state.Normalises m ∧
      (((c 28).decodeRaw frame).state.encodeRaw m).result =
        .error (.encode (.frameOverLimit 32 28)) := by
  intro c m frame written
  have hlong : ((c 32).decodeRaw frame).result = .ok m := by
    subst c m frame
    rfl
  have hshort : ((c 28).decodeRaw frame).result = .ok m := by
    subst c m frame
    rfl
  exact ⟨hlong, normalises_of_decodeRaw hlong, rfl, hshort, normalises_of_decodeRaw hshort, rfl⟩

/-! ## Cut short or extended -/

/-- A byte string with the tag of a frame and with a body that is the front of the frame's body, or
has that at its front, but is another one. -/
structure Resized (frame other : Bytes) : Prop where
  tag : (other.drop 4).take 2 = (frame.drop 4).take 2
  ne : other.drop headerLength ≠ frame.drop headerLength
  nested : other.drop headerLength <+: frame.drop headerLength ∨
    frame.drop headerLength <+: other.drop headerLength

/-- What has a kind was read from a body, under a tag that means the kind. -/
theorem Reads.exists_body {p : Packet} {kind : Packet.Kind} (h : c.Reads frame p)
    (hkind : p.kind? = some kind) :
    c.dialect.isRaw = false ∧ ∃ category subtype, (frame.drop 4).take 2 = [category, subtype] ∧
      c.dialect.lookup? category subtype = some kind ∧
      Packet.decodeBody kind (frame.drop headerLength) = .ok p := by
  cases h with
  | raw => cases hkind
  | empty => cases hkind
  | known hraw hparse _ hlookup hbody =>
    have hfound := (Packet.decodeBody_eq_ok hbody).1
    rw [hkind] at hfound
    cases hfound
    exact ⟨hraw, _, _, FrameHeader.tag_of_parse hparse, hlookup, hbody⟩
  | unknown => cases hkind

/-- Under the same tag, a codec reads nothing but bodies of the same kind. -/
theorem Reads.body_of_tag {p : Packet} {kind : Packet.Kind} {category subtype : UInt8}
    (h : c.Reads frame p) (hraw : c.dialect.isRaw = false)
    (htag : (frame.drop 4).take 2 = [category, subtype])
    (hlookup : c.dialect.lookup? category subtype = some kind) :
    Packet.decodeBody kind (frame.drop headerLength) = .ok p := by
  cases h with
  | raw h => rw [hraw] at h; cases h
  | empty _ hnil =>
    rw [hnil] at htag
    cases htag
  | known _ hparse _ hfound hbody =>
    rw [FrameHeader.tag_of_parse hparse] at htag
    cases htag
    rw [hlookup] at hfound
    cases hfound
    exact hbody
  | unknown _ hparse _ hnone =>
    rw [FrameHeader.tag_of_parse hparse] at htag
    cases htag
    rw [hlookup] at hnone
    cases hnone

theorem decodeFrame_resized {kind : Packet.Kind} (hfields : kind.HasFields)
    (h : c.decodeFrame frame = .ok m) (hkind : m.packet.kind? = some kind) {other : Bytes}
    (hother : Resized frame other) {m' : Model} : c.decodeFrame other ≠ .ok m' := by
  intro h'
  obtain ⟨hraw, category, subtype, htag, hlookup, hbody⟩ :=
    (reads_of_decodeFrame h).2.exists_body hkind
  have hbody' := (reads_of_decodeFrame h').2.body_of_tag hraw (hother.tag.trans htag) hlookup
  rcases hother.nested with hcut | hextended
  · exact hother.ne (Packet.eq_of_decodeBody_of_isPrefix hfields hbody' hbody hcut)
  · exact hother.ne (Packet.eq_of_decodeBody_of_isPrefix hfields hbody hbody' hextended).symm

/-- Bodies that are made of fields are neither cut short nor extended unnoticed, and neither are the
frames around them. -/
theorem bodies_not_resized :
    (∀ kind : Packet.Kind, kind.HasFields → ∀ a b p q, a <+: b →
      Packet.decodeBody kind a = .ok p → Packet.decodeBody kind b = .ok q → a = b) ∧
    ∀ (c : Codec) (frame : Bytes) (m : Model) (kind : Packet.Kind), kind.HasFields →
      (c.decodeRaw frame).result = .ok m → m.packet.kind? = some kind →
      ∀ other, Resized frame other → ∀ m', (c.decodeRaw other).result ≠ .ok m' :=
  ⟨fun _ hfields _ _ _ _ hab ha hb => Packet.eq_of_decodeBody_of_isPrefix hfields ha hb hab,
    fun _ _ _ _ hfields h hkind _ hother _ => decodeFrame_resized hfields h hkind hother⟩

-- The last number is cut off, and the length at the front of the frame says so.
theorem bodies_not_resized_systemMessage :
    let c := ofDialect .classic
    let frame : Bytes :=
      [0x1C, 0, 0, 0, 0x19, 0x01, 0, 0, 0x55, 0x78, 0, 0, 0x53, 0x78, 0, 0, 0x41, 0, 0, 0,
        3, 0, 0, 0, 7, 0, 0, 0]
    let cut : Bytes :=
      [0x18, 0, 0, 0, 0x19, 0x01, 0, 0, 0x55, 0x78, 0, 0, 0x53, 0x78, 0, 0, 0x41, 0, 0, 0,
        3, 0, 0, 0]
    (∃ m, (c.decodeRaw frame).result = .ok m ∧ m.packet.kind? = some .systemMessage) ∧
      Resized frame cut ∧ (∀ m, (c.decodeRaw cut).result ≠ .ok m) ∧
      ∀ q, Packet.decodeBody .systemMessage (frame.drop headerLength ++ [0]) ≠ .ok q := by
  intro c frame cut
  have hfields : Packet.Kind.HasFields .systemMessage := by constructor <;> decide
  have h : (c.decodeRaw frame).result =
      .ok { dialect := .classic, packet := .systemMessage { unk := "A", msgNum := 7 } } := by
    subst c frame
    rfl
  have hbody : Packet.decodeBody .systemMessage (frame.drop headerLength) =
      .ok (.systemMessage { unk := "A", msgNum := 7 }) := by
    subst frame
    rfl
  have hcut : Resized frame cut := by
    refine ⟨rfl, by decide, .inl ?_⟩
    exact ⟨[7, 0, 0, 0], rfl⟩
  refine ⟨⟨_, h, rfl⟩, hcut, ?_, ?_⟩
  · exact bodies_not_resized.2 c frame _ _ hfields h rfl cut hcut
  · intro q hq
    have hmore : frame.drop headerLength <+: frame.drop headerLength ++ [0] :=
      List.prefix_append _ _
    have heq := bodies_not_resized.1 _ hfields _ _ _ _ hmore hbody hq
    simpa using congrArg List.length heq

/-! ## Unknown packets -/

/-- Only under a tag that means nothing is anything read as an unknown packet. -/
theorem Reads.lookup?_unknown {u : UnknownFrame} (h : c.Reads frame (.unknown u)) :
    c.dialect.lookup? u.header.category u.header.subtype = none := by
  cases h with
  | known _ _ _ _ hbody =>
    have hkind := (Packet.decodeBody_eq_ok hbody).1
    cases hkind
  | unknown _ _ _ hlookup => exact hlookup

/-- An unknown packet is read back from its frame if and only if its tag means nothing.  Otherwise
its data are read as a body of the kind that the tag means. -/
theorem decodeRaw_encodeRaw_unknown {u : UnknownFrame} (hraw : c.dialect.isRaw = false)
    (hallow : c.settings.allowUnknownPackets = true) (hu : m.packet = .unknown u)
    (hf : (c.encodeRaw m).result = .ok frame) :
    (((c.encodeRaw m).state.decodeRaw frame).result = .ok m ↔
        c.dialect.lookup? u.header.category u.header.subtype = none) ∧
      ∀ kind, c.dialect.lookup? u.header.category u.header.subtype = some kind →
        ((c.encodeRaw m).state.decodeRaw frame).result =
          (Packet.decodeBody kind u.data).map fun packet => { dialect := c.dialect, packet } := by
  refine ⟨⟨?_, ?_⟩, ?_⟩
  · intro hback
    have hreads := (reads_of_decodeFrame (c := c) hback).2
    rw [hu] at hreads
    exact hreads.lookup?_unknown
  · intro hlookup
    have hkept : c.Distinguishes m.packet := by
      rw [hu]
      exact .unknown u hraw hallow hlookup
    exact hkept.restores frame hf
  · intro kind hlookup
    have hcarries := (carries_of_encodeFrame hf).2
    rw [hu] at hcarries
    show c.decodeFrame frame = _
    cases hcarries with
    | unknown _ hframe hlimit => rw [decodeFrame_frame hraw hframe hlimit, hlookup]
    | known _ hkind => cases hkind

-- One tag that means nothing, and one that means a kind.
theorem decodeRaw_encodeRaw_unknown_twoTags :
    let c : Codec := { ofDialect .classic with settings := { allowUnknownPackets := true } }
    let m (category : UInt8) : Model :=
      { dialect := .classic
        packet := .unknown { header := { category, subtype := 0x0F }, data := [5, 0, 0, 0] } }
    let frame (category : UInt8) : Bytes := [0x0C, 0, 0, 0, category, 0x0F, 0, 0, 5, 0, 0, 0]
    c.dialect.isRaw = false ∧ c.settings.allowUnknownPackets = true ∧
      (c.encodeRaw (m 0xEE)).result = .ok (frame 0xEE) ∧
      ((c.encodeRaw (m 0xEE)).state.decodeRaw (frame 0xEE)).result = .ok (m 0xEE) ∧
      (c.encodeRaw (m 0x19)).result = .ok (frame 0x19) ∧
      ((c.encodeRaw (m 0x19)).state.decodeRaw (frame 0x19)).result =
        .ok { dialect := .classic, packet := .lobbyMonitor { videoId := 5 } } := by
  intro c m frame
  have hfree : (c.encodeRaw (m 0xEE)).result = .ok (frame 0xEE) := rfl
  have htaken : (c.encodeRaw (m 0x19)).result = .ok (frame 0x19) := rfl
  have hkept := decodeRaw_encodeRaw_unknown (c := c) rfl rfl rfl hfree
  have hread := decodeRaw_encodeRaw_unknown (c := c) rfl rfl rfl htaken
  exact ⟨rfl, rfl, hfree, hkept.1.2 rfl, htaken, hread.2 .lobbyMonitor rfl⟩

-- An unknown packet is encoded that comes back as a known one, and with less data not at all.
theorem encodeRaw_unknown_lobbyMonitor :
    let c : Codec := { ofDialect .classic with settings := { allowUnknownPackets := true } }
    let m (data : Bytes) : Model :=
      { dialect := .classic
        packet := .unknown { header := { category := 0x19, subtype := 0x0F }, data } }
    ¬(∀ data frame, (c.encodeRaw (m data)).result = .ok frame →
        ((c.encodeRaw (m data)).state.decodeRaw frame).result = .ok (m data)) ∧
      (c.encodeRaw (m [5, 0, 0, 0])).result = .ok [0x0C, 0, 0, 0, 0x19, 0x0F, 0, 0, 5, 0, 0, 0] ∧
      (c.decodeRaw [0x0C, 0, 0, 0, 0x19, 0x0F, 0, 0, 5, 0, 0, 0]).result =
        .ok { dialect := .classic, packet := .lobbyMonitor { videoId := 5 } } ∧
      (c.encodeRaw (m [])).result = .ok [8, 0, 0, 0, 0x19, 0x0F, 0, 0] ∧
      (c.decodeRaw [8, 0, 0, 0, 0x19, 0x0F, 0, 0]).result =
        .error (.insufficientData "LobbyMonitor" 4 0) := by
  intro c m
  refine ⟨?_, rfl, rfl, rfl, rfl⟩
  intro h
  have hback := h [5, 0, 0, 0] _ rfl
  cases hback

end Codec

end GameWire
