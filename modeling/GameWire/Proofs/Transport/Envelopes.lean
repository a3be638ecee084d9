import GameWire.Proofs.Transport.Exchange

/-!
# Envelopes in a stream

An envelope of either suite opens to the frame that was sealed, and any part of it that tells a
length tells its own.  So a framer in the same session waits while it sees a part of the envelope,
and answers with what its codec makes of the frame as soon as it sees the whole: a frame within the
codec's limit is not refused for its length on the way.  Only a limit that leaves no room for an
envelope in a machine word wraps, and then every envelope is refused.
-/

namespace GameWire

/-! ## Sealing -/

theorem XChaCha.exists_sealFrame {key frame : Bytes} (entropy : Entropy)
    (hl : frame.length + overhead < 2 ^ 32) :
    ∃ envelope, sealFrame key entropy frame = .ok envelope := by
  have htotal : 4 + nonceLength + (encrypt key (entropy.take nonceLength) frame).length =
      frame.length + overhead := by
    rw [length_encrypt, overhead]
    omega
  unfold sealFrame
  simp only [htotal, if_pos hl]
  exact ⟨_, rfl⟩

theorem Chaining.exists_sealFrame {key frame : Bytes} (hkey : key.length = 32) (entropy : Entropy)
    (hl : frame.length + (headLength + blockLength) < 2 ^ 32) :
    ∃ envelope, sealFrame key entropy frame = .ok envelope := by
  have hbounds := length_encrypt_bounds hkey (entropy.length_take blockLength) frame
  have htotal : headLength + (encrypt key (entropy.take blockLength) frame).length < 2 ^ 32 := by
    omega
  unfold sealFrame
  simp only [if_pos htotal]
  exact ⟨_, rfl⟩

/-- Only an envelope whose length does not fit its length field cannot be made. -/
theorem CipherSuite.exists_sealFrame {suite : CipherSuite} {secret frame : Bytes}
    {cipher : SessionCipher} (h : suite.establish secret = .ok cipher) (entropy : Entropy)
    (hl : frame.length + cipher.maxOverhead < 2 ^ 32) :
    ∃ envelope, cipher.sealFrame entropy frame = .ok envelope := by
  cases secret with
  | nil => cases h
  | cons b bs =>
    cases suite with
    | xchacha =>
      cases h
      exact XChaCha.exists_sealFrame entropy hl
    | aes =>
      cases h
      exact Chaining.exists_sealFrame (Chaining.length_keyOf _) entropy hl

/-! ## Parts of an envelope -/

namespace SessionCipher

variable {c : SessionCipher} {entropy : Entropy} {frame envelope : Bytes}

theorem Lawful.envelope_ne_nil (hc : c.Lawful) (h : c.sealFrame entropy frame = .ok envelope) :
    envelope ≠ [] := by
  rintro rfl
  have hmin := (hc.length_sealFrame h).1
  have hpos := hc.minSealedLength_pos
  rw [List.length_nil] at hmin
  omega

/-- What the front of an envelope announces, the whole announces too. -/
theorem Lawful.sealedLength?_of_isPrefix (hc : c.Lawful)
    (h : c.sealFrame entropy frame = .ok envelope) {front : Bytes} (hf : front <+: envelope) :
    c.sealedLength? front = none ∨ c.sealedLength? front = some envelope.length := by
  obtain ⟨rest, rfl⟩ := hf
  cases hn : c.sealedLength? front with
  | none => exact .inl rfl
  | some n =>
    have hwhole := hc.sealedLength?_sealFrame [] h
    rw [List.append_nil, hc.sealedLength?_append rest hn] at hwhole
    exact .inr hwhole

end SessionCipher

/-! ## A framer in the session -/

namespace Framer

/-- A framer waits behind every part of an envelope, and takes the whole of it for what its codec
makes of the frame in it. -/
structure TakesEnvelope (f : Framer) (envelope frame : Bytes) : Prop where
  front : ∀ front, front <+: envelope → front ≠ envelope →
    (f.next front).result = .ok none ∧ (f.next front).state = (f, front)
  whole : ∀ rest, (f.next (envelope ++ rest)).result = (f.codec.decodeFrame frame).map some ∧
    (f.next (envelope ++ rest)).state = (f.decoded frame, rest)

variable {f : Framer} {s : Session} {entropy : Entropy} {frame envelope : Bytes}
  (hs : f.session? = some s) (hc : s.cipher.Lawful)
  (hseal : s.cipher.sealFrame entropy frame = .ok envelope)
include hs hc hseal

/-- Out of an envelope comes what the codec makes of the frame in it. -/
theorem receive_envelope :
    (f.receive envelope).result = f.codec.decodeFrame frame ∧
      (f.receive envelope).state = f.decoded frame := by
  have ho : f.openEnvelope envelope = (.ok frame, [.frameOpened]) := by
    unfold openEnvelope
    simp only [hs, hc.openFrame_sealFrame hseal]
  cases hd : f.codec.decodeFrame frame with
  | error e =>
    have hr : (f.codec.decodeRaw frame).result = .error e := hd
    unfold receive
    simp only [ho, hr]
    exact ⟨trivial, rfl⟩
  | ok m =>
    obtain ⟨hresult, hstate⟩ := receive_eq_join ho hd
    -- There is a session already, so no request begins another.
    have hj : (f.decoded frame).join m = { result := .ok m, state := f.decoded frame } := by
      apply join_eq_self
      intro hnone
      rw [show (f.decoded frame).session? = f.session? from rfl, hs] at hnone
      cases hnone
    rw [hj] at hresult hstate
    exact ⟨hresult, hstate⟩

section Word

variable (hsize : frame.length ≤ f.codec.settings.maxFrameSize)
  -- The limit on envelopes does not wrap.
  (hword : f.codec.settings.maxFrameSize + s.cipher.maxOverhead < 2 ^ 64)
include hsize hword

/-- While a part of an envelope is missing, nothing is there yet. -/
theorem judge_front {front : Bytes} (hf : front <+: envelope) (hne : front ≠ envelope) :
    f.judge front = none := by
  have hshort : front.length < envelope.length :=
    Nat.lt_of_le_of_ne hf.length_le fun hl => hne (hf.eq_of_length hl)
  obtain ⟨hmin, hmax⟩ := hc.length_sealFrame hseal
  unfold judge outlook
  simp only [hs]
  by_cases he : front.isEmpty = true
  · rw [if_pos he]
  · rw [if_neg he]
    rcases hc.sealedLength?_of_isPrefix hseal hf with hn | hn
    · rw [hn]
    · rw [hn]
      simp only
      rw [if_neg (by omega), if_neg (by omega), if_pos hshort]

theorem judge_envelope (rest : Bytes) :
    f.judge (envelope ++ rest) = some (.ok envelope.length) := by
  obtain ⟨hmin, hmax⟩ := hc.length_sealFrame hseal
  apply judge_of_declared (hc.envelope_ne_nil hseal)
  · unfold outlook
    simp only [hs]
    exact hc.sealedLength?_sealFrame rest hseal
  · unfold outlook
    simp only [hs]
    exact hmin
  · unfold outlook
    simp only [hs]
    omega

theorem takesEnvelope (hraw : f.dialect.isRaw = false) : f.TakesEnvelope envelope frame where
  front front hf hne := by
    rw [next_eq_judge hraw, judge_front hs hc hseal hsize hword hf hne]
    exact ⟨rfl, rfl⟩
  whole rest := by
    obtain ⟨hresult, hstate⟩ := receive_envelope hs hc hseal
    rw [next_eq_judge hraw, judge_envelope hs hc hseal hsize hword rest]
    simp only [List.take_left, List.drop_left, hresult, hstate, and_self]

end Word

omit hc in
/-- A limit that wraps is less than what sealing adds to a frame, so no envelope is within it. -/
theorem next_wrapped (hb : s.BuiltIn) (hraw : f.dialect.isRaw = false) {limit : Nat}
    (hlimit : f.codec.settings.maxFrameSize < 2 ^ 64)
    (hwraps : f.codec.settings.maxFrameSize + s.cipher.maxOverhead = 2 ^ 64 + limit)
    (rest : Bytes) :
    f.next (envelope ++ rest) =
      { result := .error (.decode (.frameOverLimit envelope.length limit))
        state := (f, envelope ++ rest) } := by
  have hmost : s.cipher.maxOverhead ≤ 104 := hb.within.1
  have hoverhead := hb.maxOverhead_le_minSealedLength
  have hmin := (hb.lawful.length_sealFrame hseal).1
  -- What wraps is less than the overhead, and no envelope is shorter than that.
  have hwrapped : (f.codec.settings.maxFrameSize + s.cipher.maxOverhead) % 2 ^ 64 = limit := by
    omega
  have hne : ¬ (envelope ++ rest).isEmpty = true := by
    rw [List.isEmpty_iff, List.append_eq_nil_iff]
    exact fun h => hb.lawful.envelope_ne_nil hseal h.1
  have hj : f.judge (envelope ++ rest) =
      some (.error (.decode (.frameOverLimit envelope.length limit))) := by
    unfold judge outlook
    rw [if_neg hne]
    simp only [hs, hb.lawful.sealedLength?_sealFrame rest hseal, hwrapped]
    rw [if_neg (by omega), if_pos (by omega)]
  rw [next_eq_judge hraw, hj]

end Framer

/-- A frame that is sealed in a session of either suite is opened again, and its envelope announces
its own length within the bounds of the cipher.  A framer in that session takes the envelope as soon
as it is whole, if the frame is within the limit of its codec and this limit leaves room for an
envelope in a machine word.  Under a larger limit it refuses every envelope. -/
theorem CipherSuite.sealed_opens (suite : CipherSuite) {secret : Bytes} (hsecret : secret ≠ []) :
    ∃ s, Session.establish suite.establish secret = .ok s ∧
      ∀ (entropy : Entropy) (frame : Bytes),
        (frame.length + s.cipher.maxOverhead < 2 ^ 32 →
          ∃ envelope, s.cipher.sealFrame entropy frame = .ok envelope) ∧
        ∀ envelope, s.cipher.sealFrame entropy frame = .ok envelope →
          s.cipher.openFrame envelope = .ok frame ∧
          (∀ rest, s.cipher.sealedLength? (envelope ++ rest) = some envelope.length) ∧
          (∀ front, front <+: envelope → s.cipher.sealedLength? front = none ∨
            s.cipher.sealedLength? front = some envelope.length) ∧
          s.cipher.minSealedLength ≤ envelope.length ∧
          envelope.length ≤ frame.length + s.cipher.maxOverhead ∧
          ∀ f : Framer, f.dialect.isRaw = false → f.session? = some s →
            (frame.length ≤ f.codec.settings.maxFrameSize →
              f.codec.settings.maxFrameSize + s.cipher.maxOverhead < 2 ^ 64 →
              f.TakesEnvelope envelope frame) ∧
            ∀ limit, f.codec.settings.maxFrameSize < 2 ^ 64 →
              f.codec.settings.maxFrameSize + s.cipher.maxOverhead = 2 ^ 64 + limit →
              ∀ rest, f.next (envelope ++ rest) =
                { result := .error (.decode (.frameOverLimit envelope.length limit))
                  state := (f, envelope ++ rest) } := by
  obtain ⟨s, hs⟩ := Session.exists_establish suite hsecret
  have hcipher := (Session.establish_eq_ok hs).2.2
  have hb := Session.builtIn_of_establish hs
  have hc := hb.lawful
  refine ⟨s, hs, fun entropy frame =>
    ⟨CipherSuite.exists_sealFrame hcipher entropy, fun envelope hseal => ?_⟩⟩
  obtain ⟨hmin, hmax⟩ := hc.length_sealFrame hseal
  refine ⟨hc.openFrame_sealFrame hseal, fun rest => hc.sealedLength?_sealFrame rest hseal,
    fun front hf => hc.sealedLength?_of_isPrefix hseal hf, hmin, hmax, ?_⟩
  intro f hraw hsession
  exact ⟨fun hsize hword => Framer.takesEnvelope hsession hc hseal hsize hword hraw,
    fun _ hlimit hwraps => Framer.next_wrapped hsession hseal hb hraw hlimit hwraps⟩

theorem CipherSuite.sealed_opens_blockFilled :
    let frame : Bytes := [16, 0, 0, 0, 0x19, 0x0F, 0, 0, 5, 0, 0, 0, 1, 2, 3, 4]
    ([1, 2, 3] : Bytes) ≠ [] ∧
      ∃ s envelope, Session.establish CipherSuite.aes.establish [1, 2, 3] = .ok s ∧
        s.cipher.sealFrame (fun _ => 0xA5) frame = .ok envelope ∧
        s.cipher.openFrame envelope = .ok frame ∧
        (∀ front, front <+: envelope → s.cipher.sealedLength? front = none ∨
          s.cipher.sealedLength? front = some envelope.length) ∧
        envelope.length ≤ 16 + s.cipher.maxOverhead ∧
        let f : Framer := { codec := .ofDialect .classic, session? := some s }
        f.dialect.isRaw = false ∧ frame.length ≤ f.codec.settings.maxFrameSize ∧
          ∀ rest, (f.next (envelope ++ rest)).result = (f.codec.decodeFrame frame).map some := by
  intro frame
  have hsecret : ([1, 2, 3] : Bytes) ≠ [] := List.cons_ne_nil 1 [2, 3]
  obtain ⟨s, hs, hsealed⟩ := CipherSuite.sealed_opens .aes hsecret
  have hoverhead : s.cipher.maxOverhead = 104 := by
    cases hs
    rfl
  have hsize : frame.length ≤ (Codec.ofDialect .classic).settings.maxFrameSize := by decide
  have hlength : frame.length + s.cipher.maxOverhead < 2 ^ 32 := by
    rw [hoverhead]
    decide
  obtain ⟨envelope, henvelope⟩ := (hsealed (fun _ => 0xA5) frame).1 hlength
  obtain ⟨hopens, -, hfront, -, hmax, hframer⟩ := (hsealed (fun _ => 0xA5) frame).2 _ henvelope
  have hword : (Codec.ofDialect .classic).settings.maxFrameSize + s.cipher.maxOverhead < 2 ^ 64 := by
    rw [hoverhead]
    decide
  have htakes := (hframer { codec := .ofDialect .classic, session? := some s } rfl rfl).1 hsize hword
  exact ⟨hsecret, s, envelope, hs, henvelope, hopens, hfront, hmax, rfl, hsize,
    fun rest => (htakes.whole rest).1⟩

/-- The frame of a ping is well within the largest limit of all, which leaves 43 bytes for its
envelope of 52. -/
theorem CipherSuite.sealed_refused_largestLimit :
    let ping : Bytes := [8, 0, 0, 0, 3, 11, 0, 0]
    ∃ s envelope, Session.establish CipherSuite.xchacha.establish [1, 2, 3] = .ok s ∧
      s.cipher.sealFrame (fun _ => 0xA5) ping = .ok envelope ∧
      let codec : Codec := .ofSettings { dialect := .classic, maxFrameSize := 2 ^ 64 - 1 }
      let f : Framer := { codec, session? := some s }
      f.dialect.isRaw = false ∧ ping.length ≤ f.codec.settings.maxFrameSize ∧
        (f.next envelope).result = .error (.decode (.frameOverLimit 52 43)) := by
  intro ping
  obtain ⟨s, hs⟩ := Session.exists_establish .xchacha (List.cons_ne_nil (1 : UInt8) [2, 3])
  have hcipher : s.cipher = XChaCha.cipher (deriveKey [1, 2, 3]) := by
    cases hs
    rfl
  have hoverhead : s.cipher.maxOverhead = 44 := by
    rw [hcipher]
    rfl
  have hfits : ping.length + s.cipher.maxOverhead < 2 ^ 32 := by
    rw [hoverhead]
    decide
  obtain ⟨envelope, hseal⟩ := CipherSuite.exists_sealFrame (Session.establish_eq_ok hs).2.2
    (fun _ => 0xA5) hfits
  have hlength : envelope.length = 52 := by
    rw [hcipher] at hseal
    exact XChaCha.length_sealFrame hseal
  refine ⟨s, envelope, hs, hseal, ?_⟩
  intro codec f
  have hsize : ping.length ≤ 2 ^ 64 - 1 := by decide
  have hword : 2 ^ 64 - 1 < 2 ^ 64 := by decide
  have hwraps : f.codec.settings.maxFrameSize + s.cipher.maxOverhead = 2 ^ 64 + 43 := by
    rw [hoverhead]
    exact (by decide : 2 ^ 64 - 1 + 44 = 2 ^ 64 + 43)
  have hrefused := Framer.next_wrapped rfl hseal (Session.builtIn_of_establish hs)
    (f := f) rfl hword hwraps []
  rw [List.append_nil, hlength] at hrefused
  exact ⟨rfl, hsize, by rw [hrefused]⟩

end GameWire
