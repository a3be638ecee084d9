import GameWire.Proofs.Transport.Failure
import GameWire.Proofs.Transport.Lifetime
import GameWire.Proofs.Transport.Outbound

/-!
# Bytes on their way in

`Intake` says what reading comes to, whatever the socket answers: the framer waits behind all that
is there until the last piece comes.  A framer that waits holds less than the longest frame or
envelope that it accepts, so what a peer sends can make the buffer of a connection only so long.
-/

namespace GameWire

def ReadAnswer.content : ReadAnswer → Bytes
  | .bytes bs => bs
  | .failed _ => []

namespace Socket

/-- The bytes that a socket is going to hand over. -/
def payload (s : Socket) : Bytes := s.reads.flatMap ReadAnswer.content

section Read

variable {s : Socket} {most : Nat}

/-- What a read hands over is the front of the payload, as much of it as was asked for at most. -/
theorem payload_read {bs : Bytes} (h : (s.read most).1 = .ok bs) :
    s.payload = bs ++ (s.read most).2.payload ∧ bs.length ≤ most := by
  unfold Socket.read payload at *
  cases hr : s.reads with
  | nil => rw [hr] at h; cases h
  | cons answer reads =>
    cases answer with
    | failed e => rw [hr] at h; cases h
    | bytes all =>
      rw [hr] at h
      cases h
      refine ⟨?_, List.length_take_le most all⟩
      by_cases hd : all.drop most = []
      · simp only [hd, List.isEmpty_nil, if_true, List.flatMap_cons, ReadAnswer.content]
        rw [← List.take_append_drop most all, hd, List.append_nil, List.take_take, Nat.min_self]
      · have he : (all.drop most).isEmpty = false := by rwa [List.isEmpty_eq_false_iff]
        simp only [he, Bool.false_eq_true, if_false, List.flatMap_cons, ReadAnswer.content]
        rw [← List.append_assoc, List.take_append_drop]

/-- A read that fails hands over nothing. -/
theorem payload_read_error {e : IoError} (h : (s.read most).1 = .error e) :
    (s.read most).2.payload = s.payload := by
  unfold Socket.read payload at *
  cases hr : s.reads with
  | nil => rw [hr]
  | cons answer reads =>
    cases answer with
    | failed e => rfl
    | bytes all => rw [hr] at h; cases h

end Read

end Socket

/-! ## Framers that wait -/

namespace Framer

/-- Without frames all that is there is one packet. -/
theorem next_eq_raw {f : Framer} (hraw : f.dialect.isRaw = true) {inbound : Bytes}
    (hne : inbound ≠ []) :
    f.next inbound =
      { result := .ok (some { dialect := f.dialect, packet := .raw inbound })
        state := (f.decoded inbound, []) } := by
  have hd : f.codec.decodeFrame inbound = .ok { dialect := f.dialect, packet := .raw inbound } := by
    unfold Codec.decodeFrame
    exact if_pos hraw
  unfold next decoded Codec.decodeRaw
  rw [if_neg (by rwa [List.isEmpty_iff]), if_pos hraw, hd]
  rfl

/-- No answer means that nothing is there yet, with frames or without, and nothing is reported. -/
theorem next_of_none {f : Framer} {inbound : Bytes} (h : (f.next inbound).result = .ok none) :
    f.judge inbound = none ∧ (f.next inbound).state = (f, inbound) ∧
      (f.next inbound).activity = [] := by
  cases hraw : f.dialect.isRaw with
  | false =>
    obtain ⟨hj, hstate⟩ := next_eq_none hraw h
    refine ⟨hj, hstate, ?_⟩
    rw [next_eq_judge hraw, hj]
  | true =>
    by_cases hne : inbound = []
    · rw [hne]
      exact ⟨rfl, rfl, rfl⟩
    · rw [next_eq_raw hraw hne] at h
      cases h

theorem length_next_le (f : Framer) (inbound : Bytes) :
    (f.next inbound).state.2.length ≤ inbound.length := by
  cases hraw : f.dialect.isRaw with
  | true =>
    by_cases hne : inbound = []
    · rw [hne]
      exact Nat.le_refl _
    · rw [next_eq_raw hraw hne]
      exact Nat.zero_le _
  | false =>
    rw [next_eq_judge hraw]
    split
    · exact Nat.le_refl _
    · exact Nat.le_refl _
    · show (inbound.drop _).length ≤ inbound.length
      rw [List.length_drop]
      exact Nat.sub_le _ _

/-- What a framer accepts is bounded, and so is what it must see of a frame to know its length. -/
theorem BuiltIn.outlook_within {f : Framer} (hf : f.BuiltIn) (inbound : Bytes) :
    (f.outlook inbound).limit ≤ f.codec.settings.maxFrameSize + mostOverhead ∧
      ((f.outlook inbound).declared? = none → inbound.length < mostOverhead) := by
  unfold outlook
  cases hs : f.session? with
  | none =>
    refine ⟨Nat.le_add_right _ _, fun hnone => ?_⟩
    have hl := Bytes.length_lt_of_u32At?_eq_none hnone
    have hfour : 4 ≤ mostOverhead := by decide
    omega
  | some s =>
    obtain ⟨hmost, hannounces⟩ := (hf.session s hs).within
    exact ⟨(Nat.mod_le _ _).trans (Nat.add_le_add_left hmost _), hannounces inbound⟩

/-- A frame that is longer than the limit is refused before it is there, so no framer waits for
it. -/
theorem BuiltIn.length_lt_of_next {f : Framer} (hf : f.BuiltIn) {inbound : Bytes}
    (h : (f.next inbound).result = .ok none) :
    inbound.length < f.codec.settings.maxFrameSize + mostOverhead := by
  have hpos : 0 < mostOverhead := by decide
  obtain ⟨hlimit, hnone⟩ := hf.outlook_within inbound
  rcases judge_eq_none (next_of_none h).1 with rfl | hwants
  · rw [List.length_nil]
    omega
  · cases hd : (f.outlook inbound).declared? with
    | none =>
      have hl := hnone hd
      omega
    | some declared =>
      obtain ⟨hl, hmax⟩ := hwants declared hd
      omega

end Framer

namespace Connection

/-! ## One read -/

/-- What reading comes to, whatever the socket answers: it takes pieces off the socket, and the
framer waits behind each but the last of them.  The outcome is what the framer makes of all that is
there then, but if it waits on, the socket may have failed. -/
structure Intake (f : Framer) (inbound : Bytes) (pieces : List Bytes) (socket : Socket) (most : Nat)
    (p : Call (Framer × Bytes × Socket) (Except ProtocolError (Option Model))) : Prop where
  payload : socket.payload = pieces.flatten ++ p.state.2.2.payload
  length_le : ∀ piece ∈ pieces, piece.length ≤ most
  waits : ∀ front last, pieces = front ++ [last] →
    (f.next (inbound ++ front.flatten)).result = .ok none
  framer : p.state.1 = (f.next (inbound ++ pieces.flatten)).state.1
  rest : p.state.2.1 = (f.next (inbound ++ pieces.flatten)).state.2
  activity : p.activity =
    pieces.map (.bytesRead ·.length) ++ (f.next (inbound ++ pieces.flatten)).activity
  result : p.result = (f.next (inbound ++ pieces.flatten)).result ∨
    (f.next (inbound ++ pieces.flatten)).result = .ok none ∧ ∃ e, p.result = .error e

section Intake

variable {f : Framer} {inbound : Bytes} {socket socket' : Socket} {most : Nat}

-- No bytes come.
theorem intake_nil {p : Call (Framer × Bytes × Socket) (Except ProtocolError (Option Model))}
    (hpayload : p.state.2.2.payload = socket.payload)
    (hstate : (p.state.1, p.state.2.1) = (f.next inbound).state)
    (hactivity : p.activity = (f.next inbound).activity)
    (hresult : p.result = (f.next inbound).result ∨
      (f.next inbound).result = .ok none ∧ ∃ e, p.result = .error e) :
    Intake f inbound [] socket most p := by
  have hnil : inbound ++ ([] : List Bytes).flatten = inbound := List.append_nil _
  refine ⟨hpayload.symm, fun piece h => (by cases h), fun front last h => ?_, ?_, ?_, ?_, ?_⟩
  · exact absurd h.symm (List.append_ne_nil_of_right_ne_nil _ (List.cons_ne_nil last []))
  · rw [hnil, ← hstate]
  · rw [hnil, ← hstate]
  · rw [hnil]
    exact hactivity
  · rw [hnil]
    exact hresult

-- The framer waits, and the socket has nothing to say or fails.
theorem intake_of_waiting {result : Except ProtocolError (Option Model)}
    (hwaits : (f.next inbound).result = .ok none) (hpayload : socket'.payload = socket.payload)
    (hresult : result = .ok none ∨ ∃ e, result = .error e) :
    Intake f inbound [] socket most { result, state := (f, inbound, socket') } := by
  obtain ⟨-, hstate, hactivity⟩ := Framer.next_of_none hwaits
  exact intake_nil hpayload hstate.symm hactivity.symm
    (hresult.imp (·.trans hwaits.symm) fun he => ⟨hwaits, he⟩)

-- The framer answers at once.
theorem intake_of_answer (f : Framer) (inbound : Bytes) (socket : Socket) (most : Nat) :
    Intake f inbound [] socket most
      { result := (f.next inbound).result
        state := ((f.next inbound).state.1, (f.next inbound).state.2, socket)
        activity := (f.next inbound).activity } :=
  intake_nil rfl rfl rfl (.inl rfl)

-- A piece comes behind which the framer is asked again.
theorem Intake.cons {bs : Bytes} {pieces : List Bytes}
    {p : Call (Framer × Bytes × Socket) (Except ProtocolError (Option Model))}
    (h : Intake f (inbound ++ bs) pieces socket' most p)
    (hwaits : (f.next inbound).result = .ok none) (hread : (socket.read most).1 = .ok bs)
    (hsocket : (socket.read most).2 = socket') :
    Intake f inbound (bs :: pieces) socket most
      { p with activity := .bytesRead bs.length :: p.activity } := by
  subst hsocket
  obtain ⟨hpayload, hle⟩ := Socket.payload_read hread
  have hflatten : inbound ++ (bs :: pieces).flatten = inbound ++ bs ++ pieces.flatten := by
    rw [List.flatten_cons, List.append_assoc]
  refine ⟨?_, ?_, ?_, ?_, ?_, ?_, ?_⟩
  · rw [hpayload, h.payload, List.flatten_cons, List.append_assoc]
  · intro piece hpiece
    rcases List.mem_cons.1 hpiece with rfl | hpiece
    · exact hle
    · exact h.length_le piece hpiece
  · intro front last hsplit
    -- Behind the first piece of all is where the framer has waited just now.
    cases front with
    | nil =>
      rw [List.flatten_nil, List.append_nil]
      exact hwaits
    | cons b front =>
      obtain ⟨rfl, hrest⟩ := List.cons.inj hsplit
      rw [List.flatten_cons, ← List.append_assoc]
      exact h.waits front last hrest
  · rw [hflatten]
    exact h.framer
  · rw [hflatten]
    exact h.rest
  · rw [hflatten]
    exact congrArg (Activity.bytesRead bs.length :: ·) h.activity
  · rw [hflatten]
    exact h.result

end Intake

theorem exists_intake_pull {f : Framer} {inbound : Bytes} {socket : Socket} {most : Nat}
    (hm : 0 < most) (hwaits : (f.next inbound).result = .ok none) :
    ∃ pieces, Intake f inbound pieces socket most (pull most hm f inbound socket) := by
  fun_induction pull most hm f inbound socket with
  | case1 f inbound socket h => exact ⟨[], intake_of_waiting hwaits rfl (.inl rfl)⟩
  | case2 f inbound socket _ _ e hread _ =>
    exact ⟨[], intake_of_waiting hwaits (Socket.payload_read_error hread) (.inl rfl)⟩
  | case3 f inbound socket _ _ e hread _ ih =>
    -- What comes after an interrupted read is all that comes.
    obtain ⟨pieces, h⟩ := ih hwaits
    have hpayload := h.payload
    rw [Socket.payload_read_error hread] at hpayload
    exact ⟨pieces, { h with payload := hpayload }⟩
  | case4 f inbound socket _ _ e hread _ =>
    exact ⟨[], intake_of_waiting hwaits (Socket.payload_read_error hread) (.inr ⟨_, rfl⟩)⟩
  | case5 f inbound socket _ _ hread =>
    exact ⟨[], intake_of_waiting hwaits (Socket.payload_read hread).1.symm (.inr ⟨_, rfl⟩)⟩
  | case6 f inbound socket _ _ bs _ hread next activity hnone pulled ih =>
    obtain ⟨-, hstate, hactivity⟩ := Framer.next_of_none hnone
    change next.state = (f, inbound ++ bs) at hstate
    change next.activity = [] at hactivity
    rw [hstate] at ih
    obtain ⟨pieces, h⟩ := ih hnone
    have hcons := h.cons hwaits hread rfl
    refine ⟨bs :: pieces, ?_⟩
    simp only [pulled, activity, hstate, hactivity]
    exact hcons
  | case7 f inbound socket _ _ bs _ hread next activity hsome =>
    exact ⟨[bs], (intake_of_answer f (inbound ++ bs) _ most).cons hwaits hread rfl⟩

/-- However the socket answers, a connection that is read from takes pieces off it. -/
theorem exists_intake (c : Connection) (socket : Socket) :
    ∃ pieces, Intake c.framer c.inbound pieces socket c.readChunk (c.pullFrame socket) := by
  unfold pullFrame
  simp only
  split
  · rename_i hnone
    obtain ⟨-, hstate, hactivity⟩ := Framer.next_of_none hnone
    rw [hstate, hactivity]
    exact exists_intake_pull c.readChunk_pos hnone
  · exact ⟨[], intake_of_answer c.framer c.inbound socket c.readChunk⟩

/-! ## How much is buffered -/

/-- A connection whose frames are limited and that has buffered no more than one piece beyond the
longest envelope. -/
structure Confined (limit chunk : Nat) (c : Connection) : Prop where
  builtIn : c.framer.BuiltIn
  maxFrameSize : c.framer.codec.settings.maxFrameSize = limit
  readChunk : c.readChunk = chunk
  inbound : c.inbound.length < limit + mostOverhead + chunk

section Confined

variable {c : Connection} {limit chunk : Nat} (h : c.Confined limit chunk)
include h

theorem Confined.follows {c' : Connection} (hf : c.framer.Follows c'.framer)
    (hchunk : c'.readChunk = c.readChunk)
    (hin : c'.inbound.length < limit + mostOverhead + chunk) : c'.Confined limit chunk where
  builtIn := h.builtIn.follows hf
  maxFrameSize := by rw [hf.settings, h.maxFrameSize]
  readChunk := hchunk.trans h.readChunk
  inbound := hin

/-- Only the last piece comes in addition to what the framer waits behind. -/
theorem Confined.length_pullFrame_lt (socket : Socket) :
    (c.pullFrame socket).state.2.1.length < limit + mostOverhead + chunk := by
  obtain ⟨pieces, hintake⟩ := c.exists_intake socket
  have hrest := Framer.length_next_le c.framer (c.inbound ++ pieces.flatten)
  rw [hintake.rest]
  rcases List.eq_nil_or_concat pieces with rfl | ⟨front, last, rfl⟩
  · rw [List.flatten_nil, List.append_nil] at hrest ⊢
    exact Nat.lt_of_le_of_lt hrest h.inbound
  · rw [List.concat_eq_append] at hintake hrest ⊢
    have hwaits := h.builtIn.length_lt_of_next (hintake.waits front last rfl)
    have hlast := hintake.length_le last
      (List.mem_append_right front (List.mem_singleton_self last))
    rw [h.maxFrameSize] at hwaits
    rw [h.readChunk] at hlast
    rw [List.flatten_append, List.flatten_singleton, ← List.append_assoc] at hrest ⊢
    have hlength : (c.inbound ++ front.flatten ++ last).length =
        (c.inbound ++ front.flatten).length + last.length := List.length_append
    omega

theorem Confined.read : c.read.state.Confined limit chunk := by
  cases hs : c.socket? with
  | none =>
    rw [(read_of_noSocket hs).2]
    exact h.follows (.refl _) rfl h.inbound
  | some socket =>
    by_cases he : c.state = .errored
    · rw [(read_of_errored (by rw [hs]; rfl) he).2]
      exact h.follows (.refl _) rfl h.inbound
    · obtain ⟨hframer, hin, -, hchunk⟩ := read_pulled hs he
      obtain ⟨pieces, hintake⟩ := c.exists_intake socket
      refine h.follows ?_ hchunk (hin ▸ h.length_pullFrame_lt socket)
      rw [hframer, hintake.framer]
      exact Framer.follows_next _ _

theorem Confined.write (entropy : Entropy) (m? : Option Model) :
    (c.write entropy m?).state.Confined limit chunk := by
  cases hs : c.socket? with
  | none =>
    rw [(write_of_noSocket hs entropy m?).2]
    exact h.follows (.refl _) rfl h.inbound
  | some socket =>
    cases m? with
    | none =>
      rw [write_of_none hs]
      obtain ⟨hframer, hin, hchunk⟩ := c.send_inbound socket
      exact h.follows (by rw [hframer]; exact .refl _) hchunk (hin ▸ h.inbound)
    | some m =>
      have hf := Framer.encode_follows c.framer entropy m
      cases he : (c.framer.encode entropy m).result with
      | error e =>
        rw [(write_of_error hs he).2]
        exact h.follows hf rfl h.inbound
      | ok bs =>
        rw [(write_of_ok hs he).2]
        obtain ⟨hframer, hin, hchunk⟩ :=
          (c.queue (c.framer.encode entropy m).state bs).send_inbound socket
        exact h.follows (by rw [hframer]; exact hf) hchunk (hin ▸ h.inbound)

/-- A switch of the dialect gives up the session and the keys, or neither. -/
theorem Confined.setDialect (dialect : Dialect) : (c.setDialect dialect).Confined limit chunk := by
  refine ⟨?_, ?_, h.readChunk, h.inbound⟩
  · show (c.framer.setDialect dialect).BuiltIn
    unfold Framer.setDialect
    cases dialect.isRaw with
    | true => exact ⟨⟨default, rfl⟩, fun s hs => by cases hs⟩
    | false => exact ⟨h.builtIn.factory, h.builtIn.session⟩
  · show (c.framer.setDialect dialect).codec.settings.maxFrameSize = limit
    unfold Framer.setDialect
    cases dialect.isRaw <;> exact h.maxFrameSize

theorem Confined.run (ops : List Operation) : (c.run ops).Confined limit chunk := by
  induction ops generalizing c with
  | nil => exact h
  | cons op ops ih =>
    apply ih
    cases op with
    | read => exact h.read
    | write entropy m? => exact h.write entropy m?
    | take => exact ⟨h.builtIn, h.maxFrameSize, h.readChunk, h.inbound⟩
    | setDialect dialect => exact h.setDialect dialect

end Confined

/-! ## What is delivered -/

def payload (c : Connection) : Bytes := (c.socket?.map (·.payload)).getD []

/-- A packet that is read comes as a frame: the frame, or its envelope if there is a session, is cut
off the front of what is buffered and what the socket hands over, and is decoded. -/
structure ComesAs (c : Connection) (m : Model) (frame : Bytes) : Prop where
  stream : ∃ received cut log, c.payload = received ++ c.read.state.payload ∧
    c.inbound ++ received = cut ++ c.read.state.inbound ∧
    c.framer.openEnvelope cut = (.ok frame, log)
  /-- In a request that begins a session the secret is revealed. -/
  decoded : ∃ sent, c.framer.codec.decodeFrame frame = .ok sent ∧
    ((c.framer.decoded frame).join sent).result = .ok m

theorem exists_comesAs {c : Connection} (hraw : c.dialect.isRaw = false)
    (hr : c.read.result = .ready) :
    ∃ m frame, c.read.state.pending? = some m ∧ c.ComesAs m frame := by
  obtain ⟨socket, m, hs, he, hp⟩ := read_eq_ready hr
  obtain ⟨-, hin, hsocket, -⟩ := read_pulled hs he
  obtain ⟨pieces, hintake⟩ := c.exists_intake socket
  have hnext : (c.framer.next (c.inbound ++ pieces.flatten)).result = .ok (some m) := by
    rcases hintake.result with h | ⟨-, e, h⟩
    · rw [← h, hp]
    · rw [hp] at h
      cases h
  obtain ⟨cut, -, hstream, hreceive, -⟩ := Framer.received_of_next hraw hnext
  obtain ⟨frame, log, sent, hopen, hdecode, hjoin⟩ := Framer.receive_eq_ok hreceive
  refine ⟨m, frame, ?_, ⟨pieces.flatten, cut, log, ?_, ?_, hopen⟩, ⟨sent, hdecode, hjoin⟩⟩
  · rw [(read_of_packet hs he hp).2]
  · unfold payload
    rw [hs, hsocket]
    exact hintake.payload
  · rw [hin, hintake.rest]
    exact hstream

/-- After any calls on a new connection, what a peer has sent and is not read yet is bounded,
however the socket cuts it, and no packet that is read has a frame longer than the limit. -/
theorem run_ofSocket_confined {suite : CipherSuite} (socket : Socket) (codec : Codec)
    {keys : ExchangeKeys} (hsuite : keys.factory = suite.establish) (readChunk : Nat)
    (ops : List Operation) :
    let c := (ofSocket socket codec keys readChunk).state.run ops
    c.inbound.length < codec.settings.maxFrameSize + mostOverhead + max readChunk 1 ∧
      (c.dialect.isRaw = false → c.read.result = .ready →
        ∃ m frame, c.read.state.pending? = some m ∧ c.ComesAs m frame ∧
          frame.length ≤ codec.settings.maxFrameSize) := by
  intro c
  have hbuiltIn : (Framer.ofCodec codec keys).BuiltIn := by
    refine ⟨?_, fun s hs => by cases hs⟩
    unfold Framer.ofCodec
    cases codec.dialect.isRaw with
    | true => exact ⟨default, rfl⟩
    | false => exact ⟨suite, hsuite⟩
  have hnew : (ofSocket socket codec keys readChunk).state.Confined codec.settings.maxFrameSize
      (max readChunk 1) := by
    refine ⟨hbuiltIn, rfl, rfl, ?_⟩
    show 0 < _
    omega
  have hc : c.Confined codec.settings.maxFrameSize (max readChunk 1) := hnew.run ops
  refine ⟨hc.inbound, fun hraw hr => ?_⟩
  obtain ⟨m, frame, hpending, hcomes⟩ := exists_comesAs hraw hr
  obtain ⟨sent, hdecode, -⟩ := hcomes.decoded
  have hle := Codec.length_le_of_decodeFrame hraw hdecode
  rw [hc.maxFrameSize] at hle
  exact ⟨m, frame, hpending, hcomes, hle⟩

theorem run_ofSocket_confined_atLimit :
    let ping : Bytes := [0x10, 0, 0, 0, 0x11, 0x0D, 0, 0, 7, 0, 0, 0, 0, 0, 0, 0]
    let socket : Socket := { reads := [.bytes ping, .bytes [0x11, 0, 0, 0, 0x11]] }
    let codec : Codec := .ofSettings { dialect := .classic, maxFrameSize := 16 }
    let keys : ExchangeKeys := { factory := CipherSuite.aes.establish }
    let c := (ofSocket socket codec keys 64).state
    keys.factory = CipherSuite.aes.establish ∧
      (c.run [.read, .read]).inbound.length < 16 + 104 + 64 ∧
      c.dialect.isRaw = false ∧ c.read.result = .ready ∧
      ∃ m frame, c.read.state.pending? = some m ∧ c.ComesAs m frame ∧ frame.length ≤ 16 := by
  intro ping socket codec keys c
  have hready : c.read.result = .ready := by
    unfold read c ofSocket pullFrame
    simp only
    rw [pull]
    rfl
  have hbound := (@run_ofSocket_confined .aes socket codec keys rfl 64 [.read, .read]).1
  have hpacket := (@run_ofSocket_confined .aes socket codec keys rfl 64 []).2
  exact ⟨rfl, hbound, rfl, hready, hpacket rfl hready⟩

end Connection

end GameWire
