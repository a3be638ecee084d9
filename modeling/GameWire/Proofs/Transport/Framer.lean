import GameWire.Proofs.KeyExchange
import GameWire.Transport.Framer

/-!
# Frames in a stream

`Framer.next` first judges the front of the buffer and then takes a frame off it.  A judgement
stands when more bytes come behind, so an answer does not depend on how much of the stream is there
already: this is `next_append`.  `Drains` says what comes of asking again and again.
-/

namespace GameWire.Framer

/-! ## Framers after a call -/

/-- What a call may change about a framer: the error slot of its codec, and a session may begin. -/
structure Follows (f g : Framer) : Prop where
  dialect : g.codec.dialect = f.codec.dialect
  settings : g.codec.settings = f.codec.settings
  keys : g.keys = f.keys
  session : g.session? = f.session? ∨
    ∃ secret s, Session.establish f.keys.factory secret = .ok s ∧ g.session? = some s

theorem Follows.refl (f : Framer) : f.Follows f := ⟨rfl, rfl, rfl, .inl rfl⟩

theorem isRaw_of_dialect {f g : Framer} (h : g.codec.dialect = f.codec.dialect)
    (hraw : f.dialect.isRaw = false) : g.dialect.isRaw = false := by
  unfold Framer.dialect at hraw ⊢
  rw [h, hraw]

theorem Follows.isRaw {f g : Framer} (h : f.Follows g) (hraw : f.dialect.isRaw = false) :
    g.dialect.isRaw = false :=
  isRaw_of_dialect h.dialect hraw

theorem join_follows (f : Framer) (m : Model) : f.Follows (f.join m).state := by
  unfold join
  split
  · rename_i request _ _
    cases hk : f.keys.decryptKey? with
    | none =>
      rw [ExchangeKeys.acceptRequest_of_none hk]
      exact .refl f
    | some key =>
      rw [ExchangeKeys.acceptRequest_of_some hk]
      cases ho : f.keys.openRequest key request with
      | error e => exact .refl f
      | ok pair =>
        obtain ⟨opened, s⟩ := pair
        obtain ⟨secret, -, hs, -⟩ := ExchangeKeys.openRequest_eq_ok.1 ho
        exact ⟨rfl, rfl, rfl, .inr ⟨secret, s, hs, rfl⟩⟩
  · exact .refl f

theorem receive_follows (f : Framer) (cut : Bytes) : f.Follows (f.receive cut).state := by
  unfold receive
  cases hc : f.openEnvelope cut with
  | mk opened log =>
    cases opened with
    | error e => exact .refl f
    | ok frame =>
      cases hd : (f.codec.decodeRaw frame).result with
      | error e =>
        simp only [hd]
        exact ⟨rfl, rfl, rfl, .inl rfl⟩
      | ok m =>
        simp only [hd]
        have h := join_follows { f with codec := (f.codec.decodeRaw frame).state } m
        exact ⟨h.dialect, h.settings, h.keys, h.session⟩

/-! ## Judgements on the front of a buffer -/

/-- What the front of a buffer comes to: nothing yet, a failure, or the length of a frame that is
there. -/
def judge (f : Framer) (inbound : Bytes) : Option (Except ProtocolError Nat) :=
  if inbound.isEmpty then none
  else
    let outlook := f.outlook inbound
    match outlook.declared? with
    | none => none
    | some declared =>
      if declared < outlook.minimum then some (.error (.decode (.belowHeader declared)))
      else if declared > outlook.limit then
        some (.error (.decode (.frameOverLimit declared outlook.limit)))
      else if inbound.length < declared then none
      else some (.ok declared)

/-- A framer takes a frame off the buffer as it judges the front of it. -/
theorem next_eq_judge {f : Framer} (hraw : f.dialect.isRaw = false) (inbound : Bytes) :
    f.next inbound =
      match f.judge inbound with
      | none => { result := .ok none, state := (f, inbound) }
      | some (.error e) => { result := .error e, state := (f, inbound) }
      | some (.ok declared) =>
        let received := f.receive (inbound.take declared)
        { result := received.result.map some
          state := (received.state, inbound.drop declared)
          activity := received.activity } := by
  unfold next judge
  rw [hraw]
  by_cases he : inbound.isEmpty = true
  · rw [if_pos he, if_pos he]
  · rw [if_neg he, if_neg he, if_neg Bool.false_ne_true]
    simp only
    cases (f.outlook inbound).declared? with
    | none => rfl
    | some declared =>
      simp only
      by_cases hmin : declared < (f.outlook inbound).minimum
      · rw [if_pos hmin, if_pos hmin]
      · rw [if_neg hmin, if_neg hmin]
        by_cases hmax : declared > (f.outlook inbound).limit
        · rw [if_pos hmax, if_pos hmax]
        · rw [if_neg hmax, if_neg hmax]
          by_cases hl : inbound.length < declared
          · rw [if_pos hl, if_pos hl]
          · rw [if_neg hl, if_neg hl]

/-- What reading relies on: the ciphers of the session, and of those that may begin, are lawful. -/
structure Lawful (f : Framer) : Prop where
  session : ∀ s, f.session? = some s → s.cipher.Lawful
  factory : ∀ secret cipher, f.keys.factory secret = .ok cipher → cipher.Lawful

theorem Lawful.follows {f g : Framer} (hf : f.Lawful) (h : f.Follows g) : g.Lawful where
  session s hs := by
    rcases h.session with hsame | ⟨secret, t, ht, hnew⟩
    · exact hf.session s (hsame ▸ hs)
    · obtain rfl : s = t := by rw [hs] at hnew; exact Option.some.inj hnew
      exact hf.factory _ _ (Session.establish_eq_ok ht).2.2
  factory secret cipher hc := hf.factory secret cipher (h.keys ▸ hc)

/-- The cipher of a framer is one that comes with the library, also that of its session. -/
structure BuiltIn (f : Framer) : Prop where
  factory : ∃ suite : CipherSuite, f.keys.factory = suite.establish
  session : ∀ s, f.session? = some s → s.BuiltIn

theorem BuiltIn.lawful {f : Framer} (hf : f.BuiltIn) : f.Lawful where
  session s hs := (hf.session s hs).lawful
  factory secret cipher hc := by
    obtain ⟨suite, hsuite⟩ := hf.factory
    rw [hsuite] at hc
    exact (CipherSuite.establish_eq_ok hc).2

theorem BuiltIn.follows {f g : Framer} (hf : f.BuiltIn) (h : f.Follows g) : g.BuiltIn where
  factory := by rw [h.keys]; exact hf.factory
  session s hs := by
    rcases h.session with hsame | ⟨secret, t, ht, hnew⟩
    · exact hf.session s (hsame ▸ hs)
    · obtain rfl : s = t := by rw [hs] at hnew; exact Option.some.inj hnew
      obtain ⟨suite, hsuite⟩ := hf.factory
      rw [hsuite] at ht
      exact Session.builtIn_of_establish ht

theorem BuiltIn.declared?_nil {f : Framer} (hf : f.BuiltIn) : (f.outlook []).declared? = none := by
  unfold outlook
  cases hs : f.session? with
  | none => rfl
  | some s => exact (hf.session s hs).sealedLength?_nil

/-- What a buffer says about the next frame stands when more bytes come. -/
theorem outlook_append {f : Framer} (hf : f.Lawful) {inbound : Bytes} {declared : Nat}
    (h : (f.outlook inbound).declared? = some declared) (more : Bytes) :
    f.outlook (inbound ++ more) = f.outlook inbound := by
  unfold outlook at h ⊢
  cases hs : f.session? with
  | none =>
    simp only [hs] at h ⊢
    have ha : frameLength? (inbound ++ more) = some declared :=
      Bytes.u32At?_append_of_eq_some h more
    rw [ha, h]
  | some s =>
    simp only [hs] at h ⊢
    rw [(hf.session s hs).sealedLength?_append more h, h]

theorem minimum_pos {f : Framer} (hf : f.Lawful) (inbound : Bytes) :
    0 < (f.outlook inbound).minimum := by
  unfold outlook
  cases hs : f.session? with
  | none => exact (by decide : 0 < headerLength)
  | some s => exact (hf.session s hs).minSealedLength_pos

/-- The frame that a buffer is judged to hold is long enough and is all there. -/
theorem declared_of_judge {f : Framer} {inbound : Bytes} {declared : Nat}
    (h : f.judge inbound = some (.ok declared)) :
    (f.outlook inbound).declared? = some declared ∧ (f.outlook inbound).minimum ≤ declared ∧
      declared ≤ inbound.length := by
  unfold judge at h
  split at h
  · cases h
  · simp only at h
    split at h
    · cases h
    · rename_i n hn
      split at h
      · cases h
      · rename_i hmin
        split at h
        · cases h
        · split at h
          · cases h
          · rename_i hl
            cases h
            exact ⟨hn, Nat.le_of_not_lt hmin, Nat.le_of_not_lt hl⟩

-- So it is not empty, since the smallest length is not zero.
theorem judge_eq_ok {f : Framer} (hf : f.Lawful) {inbound : Bytes} {declared : Nat}
    (h : f.judge inbound = some (.ok declared)) :
    (f.outlook inbound).declared? = some declared ∧ 0 < declared ∧ declared ≤ inbound.length := by
  have hdeclared := declared_of_judge h
  have hpos := minimum_pos hf inbound
  exact ⟨hdeclared.1, by omega, hdeclared.2.2⟩

/-- A buffer that is no whole frame yet: it is too short to announce a length, or shorter than the
length that it announces. -/
def Waits (f : Framer) (inbound : Bytes) : Prop :=
  ∀ declared, (f.outlook inbound).declared? = some declared → inbound.length < declared

/-- Nothing is judged to be there while more bytes are wanting, up to the limit. -/
theorem judge_eq_none {f : Framer} {inbound : Bytes} (h : f.judge inbound = none) :
    inbound = [] ∨ ∀ declared, (f.outlook inbound).declared? = some declared →
      inbound.length < declared ∧ declared ≤ (f.outlook inbound).limit := by
  unfold judge at h
  split at h
  · rename_i he
    exact .inl (List.isEmpty_iff.1 he)
  · refine .inr fun declared hd => ?_
    simp only [hd] at h
    split at h
    · cases h
    · split at h
      · cases h
      · rename_i hmax
        split at h
        · rename_i hl
          exact ⟨hl, Nat.le_of_not_gt hmax⟩
        · cases h

theorem BuiltIn.waits_of_judge {f : Framer} (hf : f.BuiltIn) {inbound : Bytes}
    (h : f.judge inbound = none) : f.Waits inbound := by
  intro declared hd
  rcases judge_eq_none h with rfl | hwants
  · rw [hf.declared?_nil] at hd
    cases hd
  · exact (hwants declared hd).1

/-- A frame that announces its own length within the bounds is judged to be there. -/
theorem judge_of_declared {f : Framer} {cut more : Bytes} (hne : cut ≠ [])
    (hd : (f.outlook (cut ++ more)).declared? = some cut.length)
    (hmin : (f.outlook (cut ++ more)).minimum ≤ cut.length)
    (hmax : cut.length ≤ (f.outlook (cut ++ more)).limit) :
    f.judge (cut ++ more) = some (.ok cut.length) := by
  have he : ¬ (cut ++ more).isEmpty = true := by
    rw [List.isEmpty_iff, List.append_eq_nil_iff]
    exact fun h => hne h.1
  unfold judge
  rw [if_neg he]
  simp only [hd]
  rw [if_neg (by omega), if_neg (by omega), if_neg (by rw [List.length_append]; omega)]

/-- A judgement stands when more bytes come. -/
theorem judge_append {f : Framer} (hf : f.Lawful) {inbound : Bytes}
    {judgement : Except ProtocolError Nat} (h : f.judge inbound = some judgement) (more : Bytes) :
    f.judge (inbound ++ more) = some judgement := by
  unfold judge at h ⊢
  by_cases he : inbound.isEmpty = true
  · rw [if_pos he] at h
    cases h
  · rw [if_neg he] at h
    have he' : ¬ (inbound ++ more).isEmpty = true := by
      rw [List.isEmpty_iff, List.append_eq_nil_iff]
      exact fun hb => he (List.isEmpty_iff.2 hb.1)
    rw [if_neg he']
    cases hd : (f.outlook inbound).declared? with
    | none =>
      simp only [hd] at h
      cases h
    | some declared =>
      rw [outlook_append hf hd]
      simp only [hd] at h ⊢
      by_cases hmin : declared < (f.outlook inbound).minimum
      · rw [if_pos hmin] at h ⊢
        exact h
      · rw [if_neg hmin] at h ⊢
        by_cases hmax : declared > (f.outlook inbound).limit
        · rw [if_pos hmax] at h ⊢
          exact h
        · rw [if_neg hmax] at h ⊢
          -- Only here do more bytes matter: a frame that is there stays there.
          by_cases hl : inbound.length < declared
          · rw [if_pos hl] at h
            cases h
          · rw [if_neg hl] at h
            rw [if_neg (by rw [List.length_append]; omega)]
            exact h

/-! ## The next frame -/

section Next

variable {f : Framer} (hraw : f.dialect.isRaw = false)
include hraw

theorem next_follows (inbound : Bytes) : f.Follows (f.next inbound).state.1 := by
  rw [next_eq_judge hraw]
  split
  · exact .refl f
  · exact .refl f
  · exact receive_follows f _

/-- No answer means that nothing is there yet, and nothing has changed. -/
theorem next_eq_none {inbound : Bytes} (h : (f.next inbound).result = .ok none) :
    f.judge inbound = none ∧ (f.next inbound).state = (f, inbound) := by
  rw [next_eq_judge hraw] at h ⊢
  cases hj : f.judge inbound with
  | none => exact ⟨rfl, rfl⟩
  | some judgement =>
    simp only [hj] at h
    cases judgement with
    | error e => cases h
    | ok declared =>
      change (f.receive (inbound.take declared)).result.map some = .ok none at h
      cases hr : (f.receive (inbound.take declared)).result with
      | error e => rw [hr] at h; cases h
      | ok m => rw [hr] at h; cases h

theorem judge_of_next_ne_none {inbound : Bytes} (h : (f.next inbound).result ≠ .ok none) :
    ∃ judgement, f.judge inbound = some judgement := by
  cases hj : f.judge inbound with
  | none =>
    rw [next_eq_judge hraw, hj] at h
    exact absurd rfl h
  | some judgement => exact ⟨judgement, rfl⟩

theorem judge_of_next_packet {inbound : Bytes} {m : Model}
    (h : (f.next inbound).result = .ok (some m)) :
    ∃ declared, f.judge inbound = some (.ok declared) ∧
      (f.receive (inbound.take declared)).result = .ok m ∧
      (f.next inbound).state =
        ((f.receive (inbound.take declared)).state, inbound.drop declared) := by
  obtain ⟨judgement, hj⟩ := judge_of_next_ne_none hraw (by rw [h]; intro hn; cases hn)
  rw [next_eq_judge hraw, hj] at h ⊢
  cases judgement with
  | error e => cases h
  | ok declared =>
    change (f.receive (inbound.take declared)).result.map some = .ok (some m) at h
    cases hm : (f.receive (inbound.take declared)).result with
    | error e => rw [hm] at h; cases h
    | ok received =>
      rw [hm] at h
      cases h
      exact ⟨declared, rfl, hm, rfl⟩

/-- A packet takes the bytes off the buffer that its frame declares, at least one. -/
theorem next_eq_packet (hf : f.Lawful) {inbound : Bytes} {m : Model}
    (h : (f.next inbound).result = .ok (some m)) :
    ∃ declared, (f.outlook inbound).declared? = some declared ∧ 0 < declared ∧
      declared ≤ inbound.length ∧ (f.next inbound).state.2 = inbound.drop declared := by
  obtain ⟨declared, hj, -, hstate⟩ := judge_of_next_packet hraw h
  obtain ⟨hd, hpos, hle⟩ := judge_eq_ok hf hj
  exact ⟨declared, hd, hpos, hle, by rw [hstate]⟩

/-- A packet is what is received from exactly the bytes that its frame declares. -/
theorem received_of_next {inbound : Bytes} {m : Model}
    (h : (f.next inbound).result = .ok (some m)) :
    ∃ cut, (f.outlook inbound).declared? = some cut.length ∧
      inbound = cut ++ (f.next inbound).state.2 ∧ (f.receive cut).result = .ok m ∧
      (f.next inbound).state.1 = (f.receive cut).state := by
  obtain ⟨declared, hj, hm, hstate⟩ := judge_of_next_packet hraw h
  obtain ⟨hdeclared, -, hle⟩ := declared_of_judge hj
  rw [hstate]
  refine ⟨inbound.take declared, ?_, (List.take_append_drop declared inbound).symm, hm, rfl⟩
  rw [List.length_take_of_le hle]
  exact hdeclared

/-- What a call of `next` takes off the buffer: nothing while no whole frame is there, and otherwise
exactly one frame. -/
structure TakesWhole (f : Framer) (inbound : Bytes) : Prop where
  none : (f.next inbound).result = .ok none →
    f.Waits inbound ∧ (f.next inbound).state = (f, inbound)
  packet {m : Model} : (f.next inbound).result = .ok (some m) →
    ∃ cut, (f.outlook inbound).declared? = some cut.length ∧
      inbound = cut ++ (f.next inbound).state.2 ∧ (f.receive cut).result = .ok m

theorem takesWhole (hf : f.BuiltIn) (inbound : Bytes) : f.TakesWhole inbound where
  none hn := by
    obtain ⟨hj, hstate⟩ := next_eq_none hraw hn
    exact ⟨hf.waits_of_judge hj, hstate⟩
  packet hm := by
    obtain ⟨cut, hdeclared, hstream, hreceive, -⟩ := received_of_next hraw hm
    exact ⟨cut, hdeclared, hstream, hreceive⟩

/-- An answer stands when more bytes come, and leaves them behind what it leaves. -/
theorem next_append (hf : f.Lawful) {inbound : Bytes} (h : (f.next inbound).result ≠ .ok none)
    (more : Bytes) :
    (f.next (inbound ++ more)).result = (f.next inbound).result ∧
      (f.next (inbound ++ more)).state =
        ((f.next inbound).state.1, (f.next inbound).state.2 ++ more) := by
  obtain ⟨judgement, hj⟩ := judge_of_next_ne_none hraw h
  rw [next_eq_judge hraw, next_eq_judge hraw, hj, judge_append hf hj more]
  cases judgement with
  | error e => exact ⟨rfl, rfl⟩
  | ok declared =>
    obtain ⟨-, -, hle⟩ := judge_eq_ok hf hj
    simp only [List.take_append_of_le_length hle, List.drop_append_of_le_length hle, and_self]

end Next

/-! ## Draining a buffer -/

/-- What came of taking frames off a buffer. -/
structure Delivery where
  packets : List Model
  /-- The failure that ended it, if it was not for want of bytes. -/
  error? : Option ProtocolError
  framer : Framer
  rest : Bytes

/-- Frames are taken off a buffer until none is complete or one fails. -/
inductive Drains : Framer → Bytes → Delivery → Prop
  | waiting {f : Framer} {inbound : Bytes} (h : (f.next inbound).result = .ok none) :
      Drains f inbound ⟨[], none, (f.next inbound).state.1, (f.next inbound).state.2⟩
  | failed {f : Framer} {inbound : Bytes} {e : ProtocolError}
      (h : (f.next inbound).result = .error e) :
      Drains f inbound ⟨[], some e, (f.next inbound).state.1, (f.next inbound).state.2⟩
  | packet {f : Framer} {inbound : Bytes} {m : Model} {d : Delivery}
      (h : (f.next inbound).result = .ok (some m))
      (hd : Drains (f.next inbound).state.1 (f.next inbound).state.2 d) :
      Drains f inbound { d with packets := m :: d.packets }

/-- A buffer can be drained in one way only. -/
theorem Drains.unique {f : Framer} {inbound : Bytes} {d d' : Delivery} (h : f.Drains inbound d)
    (h' : f.Drains inbound d') : d = d' := by
  induction h generalizing d' with
  | waiting h =>
    cases h' with
    | waiting => rfl
    | failed he => rw [h] at he; cases he
    | packet hm => rw [h] at hm; cases hm
  | failed h =>
    cases h' with
    | waiting hn => rw [h] at hn; cases hn
    | failed he =>
      rw [h] at he
      cases he
      rfl
    | packet hm => rw [h] at hm; cases hm
  | packet h _ ih =>
    cases h' with
    | waiting hn => rw [h] at hn; cases hn
    | failed he => rw [h] at he; cases he
    | packet hm hd =>
      rw [h] at hm
      cases hm
      rw [ih hd]

theorem Drains.of_packet {f : Framer} {inbound : Bytes} {m : Model} {d : Delivery}
    (hd : f.Drains inbound d) (h : (f.next inbound).result = .ok (some m)) :
    ∃ d', (f.next inbound).state.1.Drains (f.next inbound).state.2 d' ∧
      d = { d' with packets := m :: d'.packets } := by
  cases hd with
  | waiting hn => rw [h] at hn; cases hn
  | failed he => rw [h] at he; cases he
  | packet hm hd =>
    rw [h] at hm
    cases hm
    exact ⟨_, hd, rfl⟩

/-- Every buffer can be drained, since no frame is empty. -/
theorem exists_drains {f : Framer} (hraw : f.dialect.isRaw = false) (hf : f.Lawful)
    (inbound : Bytes) : ∃ d, f.Drains inbound d := by
  -- Every packet leaves a shorter buffer and a framer that is lawful again.
  induction hn : inbound.length using Nat.strongRecOn generalizing f inbound with
  | ind n ih =>
    cases hr : (f.next inbound).result with
    | error e => exact ⟨_, .failed hr⟩
    | ok m? =>
      cases m? with
      | none => exact ⟨_, .waiting hr⟩
      | some m =>
        obtain ⟨declared, -, hpos, hle, hrest⟩ := next_eq_packet hraw hf hr
        have hfollows := next_follows hraw inbound
        have hshort : (f.next inbound).state.2.length < n := by
          rw [hrest, List.length_drop]
          omega
        obtain ⟨d, hd⟩ := ih _ hshort (hfollows.isRaw hraw) (hf.follows hfollows) _ rfl
        exact ⟨_, .packet hr hd⟩

/-- A stream is cut into frames, each as long as it announces and received as a packet, and what is
left of it is no whole frame. -/
inductive Cuts : Framer → Bytes → List Model → Framer → Bytes → Prop
  | rest {f : Framer} {inbound : Bytes} (h : f.Waits inbound) : Cuts f inbound [] f inbound
  | frame {f last : Framer} {cut more rest : Bytes} {m : Model} {packets : List Model}
      (hd : (f.outlook (cut ++ more)).declared? = some cut.length)
      (hm : (f.receive cut).result = .ok m)
      (h : Cuts (f.receive cut).state more packets last rest) :
      Cuts f (cut ++ more) (m :: packets) last rest

/-- Draining delivers every whole frame of a stream, unless it fails. -/
theorem Drains.cuts {f : Framer} (hraw : f.dialect.isRaw = false) (hf : f.BuiltIn) {inbound : Bytes}
    {d : Delivery} (h : f.Drains inbound d) (he : d.error? = none) :
    f.Cuts inbound d.packets d.framer d.rest := by
  -- Every packet leaves a framer of the same dialect whose ciphers are built in again.
  induction h with
  | waiting h =>
    obtain ⟨hj, hstate⟩ := next_eq_none hraw h
    rw [hstate]
    exact .rest (hf.waits_of_judge hj)
  | failed h => cases he
  | @packet f inbound m d h hd ih =>
    obtain ⟨cut, hdeclared, hstream, hreceive, hframer⟩ := received_of_next hraw h
    have hfollows := next_follows hraw inbound
    have hrest := ih (hfollows.isRaw hraw) (hf.follows hfollows) he
    rw [hframer] at hrest
    rw [hstream] at hdeclared ⊢
    exact .frame hdeclared hreceive hrest

end GameWire.Framer
