import GameWire.Proofs.Codec.RoundTrip

/-!
# Whole frames

A byte string that announces its own length is one whole frame.  Splitting finds such frames only,
and splitting one of them again finds nothing but itself.  A byte string is whole frames and a
remainder in one way only, and that is how it is split: this is `splitFrames_maximal`.
-/

namespace GameWire

/-- Whether a byte string is one whole frame: it has a header, which announces its length. -/
structure IsFrame (frame : Bytes) : Prop where
  header : headerLength ≤ frame.length
  announced : frameLength? frame = some frame.length

theorem splitFrames_nil : splitFrames [] = ([], []) := by
  unfold splitFrames
  rfl

/-- A frame at the front is cut off first. -/
theorem IsFrame.splitFrames_append {frame : Bytes} (h : IsFrame frame) (rest : Bytes) :
    splitFrames (frame ++ rest) = (frame :: (splitFrames rest).1, (splitFrames rest).2) := by
  have hannounced : frameLength? (frame ++ rest) = some frame.length :=
    Bytes.u32At?_append_of_eq_some h.announced rest
  have hbounds : headerLength ≤ frame.length ∧ frame.length ≤ (frame ++ rest).length :=
    ⟨h.header, by rw [List.length_append]; omega⟩
  rw [splitFrames, hannounced]
  simp only [dif_pos hbounds, List.take_left, List.drop_left]

theorem IsFrame.splitFrames_eq {frame : Bytes} (h : IsFrame frame) :
    splitFrames frame = ([frame], []) := by
  have hsplit := h.splitFrames_append []
  rw [List.append_nil, splitFrames_nil] at hsplit
  exact hsplit

/-- Four bytes announce no more than they can. -/
theorem IsFrame.length_lt {frame : Bytes} (h : IsFrame frame) : frame.length < 2 ^ 32 := by
  have hannounced := h.announced
  unfold frameLength? Bytes.u32At? Bytes.cut? at hannounced
  rw [List.drop_zero] at hannounced
  by_cases hl : 4 ≤ frame.length
  · rw [if_pos hl] at hannounced
    have hlength : Bytes.ofLE (frame.take 4) = frame.length := Option.some.inj hannounced
    have hlt := Bytes.ofLE_lt (frame.take 4)
    rw [hlength, List.length_take, Nat.min_eq_left hl] at hlt
    exact hlt
  · rw [if_neg hl] at hannounced
    cases hannounced

/-- A length that is announced is announced by the first bytes already. -/
theorem frameLength?_take {buf : Bytes} {length count : Nat} (h : frameLength? buf = some length)
    (hc : 4 ≤ count) : frameLength? (buf.take count) = some length := by
  unfold frameLength? Bytes.u32At? Bytes.cut? at h ⊢
  rw [List.drop_zero] at h ⊢
  by_cases hl : 4 ≤ buf.length
  · rw [if_pos hl] at h
    rw [if_pos (by rw [List.length_take]; omega), List.take_take, Nat.min_eq_left hc]
    exact h
  · rw [if_neg hl] at h
    cases h

/-- Splitting finds whole frames only. -/
theorem isFrame_of_mem_splitFrames {buf frame : Bytes} (h : frame ∈ (splitFrames buf).1) :
    IsFrame frame := by
  fun_induction splitFrames buf with
  | case1 => cases h
  | case2 buf length hlength hbounds frames rest hsplit ih =>
    rw [hsplit] at ih
    cases List.mem_cons.1 h with
    | inr h => exact ih h
    | inl h =>
      subst h
      have hl : (buf.take length).length = length := by
        rw [List.length_take]
        exact Nat.min_eq_left hbounds.2
      have hheader : 4 ≤ length := Nat.le_trans (by decide) hbounds.1
      constructor
      · rw [hl]
        exact hbounds.1
      · rw [hl]
        exact frameLength?_take hlength hheader
  | case3 => cases h

/-- An encoded packet is one whole frame, unless it travels as nothing. -/
theorem Codec.isFrame_of_encodeFrame {c : Codec} (hraw : c.dialect.isRaw = false) {m : Model}
    {frame : Bytes} (h : c.encodeFrame m = .ok frame) : frame = [] ∨ IsFrame frame := by
  have hcarries := (carries_of_encodeFrame h).2
  by_cases hp : m.packet = .empty
  · left
    rw [hp] at hcarries
    cases hcarries with
    | empty => rfl
    | known _ hkind => cases hkind
  · right
    have hbounds := hcarries.bounds hraw hp
    constructor
    · exact hbounds.1
    · have hlength := hbounds.2.2 []
      rw [List.append_nil] at hlength
      exact hlength

/-! ## The split of a byte string -/

/-- Whether no whole frame stands at the front of a byte string. -/
inductive IsRemainder (rest : Bytes) : Prop
  /-- It is too short for a length. -/
  | short (h : rest.length < 4)
  /-- It declares fewer bytes than a header has. -/
  | belowHeader {declared : Nat} (h : frameLength? rest = some declared)
      (hd : declared < headerLength)
  /-- It declares more bytes than there are. -/
  | incomplete {declared : Nat} (h : frameLength? rest = some declared)
      (hd : rest.length < declared)

theorem isRemainder_nil : IsRemainder [] := .short (by decide)

theorem frameLength?_of_length_lt {buf : Bytes} (h : buf.length < 4) : frameLength? buf = none := by
  unfold frameLength? Bytes.u32At? Bytes.cut?
  rw [List.drop_zero, if_neg (Nat.not_le_of_lt h), Option.map_none]

/-- Nothing is cut off a remainder. -/
theorem IsRemainder.splitFrames_eq {rest : Bytes} (h : IsRemainder rest) :
    splitFrames rest = ([], rest) := by
  have hstop : ∀ {declared}, frameLength? rest = some declared →
      declared < headerLength ∨ rest.length < declared → splitFrames rest = ([], rest) := by
    intro declared hdeclared hbad
    have hbounds : ¬ (headerLength ≤ declared ∧ declared ≤ rest.length) := by omega
    rw [splitFrames, hdeclared]
    simp only [dif_neg hbounds]
  cases h with
  | short h => rw [splitFrames, frameLength?_of_length_lt h]
  | belowHeader h hd => exact hstop h (.inl hd)
  | incomplete h hd => exact hstop h (.inr hd)

/-- What splitting leaves is a remainder. -/
theorem isRemainder_splitFrames (buf : Bytes) : IsRemainder (splitFrames buf).2 := by
  fun_induction splitFrames buf with
  | case1 buf hlength => exact .short (Bytes.length_lt_of_u32At?_eq_none hlength)
  | case2 buf length hlength hbounds frames rest hsplit ih =>
    rw [hsplit] at ih
    exact ih
  | case3 buf length hlength hbounds =>
    by_cases hheader : headerLength ≤ length
    · have hcut : ¬ length ≤ buf.length := fun h => hbounds ⟨hheader, h⟩
      exact .incomplete hlength (Nat.lt_of_not_le hcut)
    · exact .belowHeader hlength (Nat.lt_of_not_le hheader)

/-- Frames that are put together are cut apart again, in front of a remainder. -/
theorem splitFrames_flatten {frames : List Bytes} (hframes : ∀ frame ∈ frames, IsFrame frame)
    {rest : Bytes} (hrest : IsRemainder rest) :
    splitFrames (frames.flatten ++ rest) = (frames, rest) := by
  induction frames with
  | nil => exact hrest.splitFrames_eq
  | cons frame frames ih =>
    have hfirst := hframes frame List.mem_cons_self
    have hothers := ih fun other h => hframes other (List.mem_cons_of_mem frame h)
    rw [List.flatten_cons, List.append_assoc, hfirst.splitFrames_append, hothers]

/-- A packet that travels as something is one whole frame. -/
theorem Codec.isFrame_of_encodeRaw {c : Codec} (hraw : c.dialect.isRaw = false) {m : Model}
    (hm : m.packet ≠ .empty) {frame : Bytes} (h : (c.encodeRaw m).result = .ok frame) :
    IsFrame frame := by
  have hcarries := (carries_of_encodeFrame h).2
  rcases isFrame_of_encodeFrame hraw h with rfl | hframe
  · have hbounds := hcarries.bounds hraw hm
    exact absurd hbounds.1 (by decide)
  · exact hframe

/-- A byte string splits into whole frames and a remainder, and whenever it is whole frames in front
of a remainder, it splits into just these.  So the frames that framed codecs make for packets are
found again one by one, with nothing left over. -/
theorem splitFrames_maximal :
    (∀ buf : Bytes, (splitFrames buf).1.flatten ++ (splitFrames buf).2 = buf ∧
      (∀ frame ∈ (splitFrames buf).1, IsFrame frame) ∧ IsRemainder (splitFrames buf).2) ∧
    (∀ (frames : List Bytes) (rest : Bytes), (∀ frame ∈ frames, IsFrame frame) →
      IsRemainder rest → splitFrames (frames.flatten ++ rest) = (frames, rest)) ∧
    ∀ frames : List Bytes,
      (∀ frame ∈ frames, ∃ c : Codec, c.dialect.isRaw = false ∧ ∃ m : Model, m.packet ≠ .empty ∧
        (c.encodeRaw m).result = .ok frame) →
      splitFrames frames.flatten = (frames, []) := by
  refine ⟨fun buf => ⟨flatten_splitFrames buf, fun frame h => isFrame_of_mem_splitFrames h,
    isRemainder_splitFrames buf⟩, fun frames rest hframes hrest =>
    splitFrames_flatten hframes hrest, fun frames hframes => ?_⟩
  have hwhole : ∀ frame ∈ frames, IsFrame frame := by
    intro frame h
    obtain ⟨c, hraw, m, hm, hencode⟩ := hframes frame h
    exact c.isFrame_of_encodeRaw hraw hm hencode
  have hsplit := splitFrames_flatten hwhole isRemainder_nil
  rw [List.append_nil] at hsplit
  exact hsplit

theorem splitFrames_maximal_belowHeader :
    let ping : Bytes := [8, 0, 0, 0, 0x03, 0x0B, 0, 0]
    let monitor : Bytes := [12, 0, 0, 0, 0x19, 0x0F, 0, 0, 5, 0, 0, 0]
    let rest : Bytes := [7, 0, 0, 0, 0xFF, 0xFF, 0, 0, 0]
    (∀ frame ∈ [ping, monitor], ∃ c : Codec, c.dialect.isRaw = false ∧ ∃ m : Model,
      m.packet ≠ .empty ∧ (c.encodeRaw m).result = .ok frame) ∧
      (∀ frame ∈ [ping, monitor], IsFrame frame) ∧ IsRemainder rest ∧
      splitFrames ([ping, monitor].flatten ++ rest) = ([ping, monitor], rest) ∧
      splitFrames [ping, monitor].flatten = ([ping, monitor], []) := by
  intro ping monitor rest
  have hencoded : ∀ frame ∈ [ping, monitor], ∃ c : Codec, c.dialect.isRaw = false ∧ ∃ m : Model,
      m.packet ≠ .empty ∧ (c.encodeRaw m).result = .ok frame := by
    intro frame h
    rcases List.mem_cons.1 h with rfl | h
    · exact ⟨.ofDialect .classic, rfl, { packet := .serverPing }, by decide, rfl⟩
    · rcases List.mem_singleton.1 h with rfl
      exact ⟨.ofDialect .classic, rfl, { packet := .lobbyMonitor { videoId := 5 } }, by decide, rfl⟩
  have hframes : ∀ frame ∈ [ping, monitor], IsFrame frame := by
    intro frame h
    rcases List.mem_cons.1 h with rfl | h
    · exact ⟨by decide, rfl⟩
    · rcases List.mem_singleton.1 h with rfl
      exact ⟨by decide, rfl⟩
  have hrest : IsRemainder rest :=
    .belowHeader (show frameLength? rest = some 7 from rfl) (by decide)
  exact ⟨hencoded, hframes, hrest, splitFrames_maximal.2.1 _ _ hframes hrest,
    splitFrames_maximal.2.2 _ hencoded⟩

end GameWire
