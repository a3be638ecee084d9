import GameWire.Proofs.Codec.RoundTrip
import GameWire.Proofs.Transport.Framer

/-!
# One frame from a sender to a receiver

A sender with a public key and a receiver with the private key stay in step: for whatever the
sender encodes, the receiver takes a frame off its buffer and delivers the model.  When a request
passes, both begin the same session behind the same frame.
-/

namespace GameWire

theorem Dialect.exists_tagFor?_encryptionRequest {d : Dialect} (hraw : d.isRaw = false) :
    ∃ tag, d.tagFor? .encryptionRequest = some tag := by
  cases d with
  | raw => cases hraw
  | _ => exact ⟨_, rfl⟩

namespace Framer

/-! ## Sending -/

/-- The secret of the request that a model is. -/
def secretOf? (m : Model) : Option Bytes :=
  match m.packet with
  | .encryptionRequest request => some request.rsaData
  | _ => none

theorem isSome_secretOf?_iff {m : Model} :
    (secretOf? m).isSome = true ↔ ∃ request, m.packet = .encryptionRequest request := by
  unfold secretOf?
  split
  · rename_i request hp
    exact ⟨fun _ => ⟨request, hp⟩, fun _ => rfl⟩
  · rename_i hp
    exact ⟨fun h => (by cases h), fun ⟨request, h⟩ => absurd h (hp request)⟩

/-- What is not sent as it is, is a request that begins a session. -/
theorem request_of_not_plain {f : Framer} {m : Model}
    (h : ¬ (f.session? = none → secretOf? m = none)) :
    f.session? = none ∧ ∃ request, m.packet = .encryptionRequest request := by
  obtain ⟨hs, hsecret⟩ := Classical.not_imp.1 h
  exact ⟨hs, isSome_secretOf?_iff.1 (Option.isSome_iff_ne_none.2 hsecret)⟩

section Encode

variable {f : Framer} {entropy : Entropy} {m : Model} {bs : Bytes}

theorem encodeSealed_follows (f : Framer) (entropy : Entropy) (m : Model) :
    f.Follows (f.encodeSealed entropy m).state ∧
      (f.encodeSealed entropy m).state.session? = f.session? := by
  unfold encodeSealed
  simp only
  split
  · split
    · exact ⟨⟨rfl, rfl, rfl, .inl rfl⟩, rfl⟩
    · exact ⟨⟨rfl, rfl, rfl, .inl rfl⟩, rfl⟩
  · exact ⟨⟨rfl, rfl, rfl, .inl rfl⟩, rfl⟩

/-- What is sent is a frame, in an envelope if there is a session and the frame is not empty. -/
theorem encodeSealed_eq_ok (h : (f.encodeSealed entropy m).result = .ok bs) :
    ∃ frame, f.codec.encodeFrame m = .ok frame ∧
      match f.session? with
      | none => bs = frame
      | some s =>
        frame = [] ∧ bs = [] ∨ frame ≠ [] ∧ s.cipher.sealFrame entropy frame = .ok bs := by
  unfold encodeSealed at h
  simp only at h
  cases hf : f.codec.encodeFrame m with
  | error e =>
    have hr : (f.codec.encodeRaw m).result = .error e := hf
    rw [hr] at h
    cases h
  | ok frame =>
    have hr : (f.codec.encodeRaw m).result = .ok frame := hf
    rw [hr] at h
    refine ⟨frame, rfl, ?_⟩
    cases hs : f.session? with
    | none =>
      rw [hs] at h
      cases h
      rfl
    | some s =>
      rw [hs] at h
      simp only at h
      cases frame with
      | nil =>
        cases h
        exact .inl ⟨rfl, rfl⟩
      | cons b frame => exact .inr ⟨List.cons_ne_nil b frame, h⟩

/-- A model that cannot begin a session is sent as it is. -/
theorem encode_eq_encodeSealed (entropy : Entropy)
    (h : f.session? = none → secretOf? m = none) :
    f.encode entropy m = f.encodeSealed entropy m := by
  unfold encode
  split
  · rename_i request hs hp
    have hn := h hs
    unfold secretOf? at hn
    rw [hp] at hn
    cases hn
  · rfl

/-- A request that begins a session is sent with its secret concealed.  It does so only if it can be
encoded. -/
theorem encode_request (entropy : Entropy) {request : EncryptionRequest} {pub : Rsa.PublicKey}
    (hs : f.session? = none) (hp : m.packet = .encryptionRequest request)
    (hk : f.keys.encryptKey? = some pub) :
    (∃ e, (f.encode entropy m).result = .error e ∧ (f.encode entropy m).state.session? = none) ∨
      ∃ closed s frame, f.keys.closeRequest pub entropy request = .ok (closed, s) ∧
        f.codec.encodeFrame { m with packet := .encryptionRequest closed } = .ok frame ∧
        (f.encode entropy m).result = .ok frame ∧
        (f.encode entropy m).state.session? = some s := by
  unfold encode
  rw [hs, hp]
  simp only [ExchangeKeys.sealRequest_of_some hk]
  cases hc : f.keys.closeRequest pub entropy request with
  | error e => exact .inl ⟨e, rfl, hs⟩
  | ok pair =>
    obtain ⟨closed, s⟩ := pair
    cases hf : f.codec.encodeFrame { m with packet := .encryptionRequest closed } with
    | error e =>
      have hr : (f.codec.encodeRaw { m with packet := .encryptionRequest closed }).result =
          .error e := hf
      refine .inl ⟨e, ?_⟩
      simp only [Except.map, hr, and_self]
    | ok frame =>
      have hr : (f.codec.encodeRaw { m with packet := .encryptionRequest closed }).result =
          .ok frame := hf
      refine .inr ⟨closed, s, frame, rfl, hf, ?_⟩
      simp only [Except.map, hr, and_self]

/-- What cannot be encoded begins no session, even if one was agreed on. -/
theorem session_encode_of_error {e : ProtocolError} (h : (f.encode entropy m).result = .error e) :
    (f.encode entropy m).state.session? = f.session? := by
  by_cases hplain : f.session? = none → secretOf? m = none
  · rw [encode_eq_encodeSealed entropy hplain]
    exact (encodeSealed_follows f entropy m).2
  · obtain ⟨hs, request, hp⟩ := request_of_not_plain hplain
    cases hk : f.keys.encryptKey? with
    | none =>
      unfold encode
      rw [hs, hp]
      simp only [ExchangeKeys.sealRequest_of_none hk]
      exact (encodeSealed_follows f entropy m).2.trans hs
    | some pub =>
      rcases encode_request entropy hs hp hk with ⟨_, -, hnone⟩ | ⟨_, _, _, -, -, hok, -⟩
      · rw [hnone, hs]
      · rw [hok] at h
        cases h

/-- A request with a secret that fits its key begins a session. -/
theorem exists_encode_request {suite : CipherSuite} {pub : Rsa.PublicKey} {secret : Bytes}
    (hraw : f.dialect.isRaw = false) (hs : f.session? = none)
    (hsuite : f.keys.factory = suite.establish) (hpub : f.keys.encryptKey? = some pub)
    (hne : secret ≠ []) (hfit : secret.length + Rsa.paddingLength ≤ pub.size)
    (hsize : pub.size ≤ KeyBlock.capacity)
    (hlimit : headerLength + KeyBlock.blockLength ≤ f.codec.settings.maxFrameSize)
    (entropy : Entropy) :
    ∃ bs, (f.encode entropy
      { dialect := f.dialect, packet := .encryptionRequest { rsaData := secret } }).result =
        .ok bs := by
  obtain ⟨s, hestablish⟩ := Session.exists_establish suite hne
  rw [← hsuite] at hestablish
  obtain ⟨ciphertext, hconceal, hlength⟩ := Rsa.exists_conceal hfit entropy
  have hclose : f.keys.closeRequest pub entropy { rsaData := secret } =
      .ok ({ rsaData := ciphertext }, s) :=
    ExchangeKeys.closeRequest_eq_ok.2 ⟨ciphertext, hestablish, hconceal, rfl⟩
  obtain ⟨body, hencode, hlen⟩ := KeyBlock.exists_encode (hlength ▸ hsize)
  have hbody : (Packet.encryptionRequest { rsaData := ciphertext }).encodeBody = .ok body := hencode
  obtain ⟨tag, htag⟩ := Dialect.exists_tagFor?_encryptionRequest hraw
  unfold encode
  rw [hs]
  simp only [ExchangeKeys.sealRequest_of_some hpub, hclose, Except.map]
  exact Codec.exists_encodeFrame hraw rfl htag hbody (by rw [hlen]; decide)
    (by rw [hlen]; exact hlimit)

-- It is the session of the secret.
theorem exists_session_request {suite : CipherSuite} {pub : Rsa.PublicKey} {secret : Bytes}
    (hraw : f.dialect.isRaw = false) (hs : f.session? = none)
    (hsuite : f.keys.factory = suite.establish) (hpub : f.keys.encryptKey? = some pub)
    (hne : secret ≠ []) (hfit : secret.length + Rsa.paddingLength ≤ pub.size)
    (hsize : pub.size ≤ KeyBlock.capacity)
    (hlimit : headerLength + KeyBlock.blockLength ≤ f.codec.settings.maxFrameSize)
    (entropy : Entropy) :
    ∃ s, Session.establish f.keys.factory secret = .ok s ∧ (f.encode entropy
      { dialect := f.dialect, packet := .encryptionRequest { rsaData := secret } }).state.session? =
        some s := by
  obtain ⟨bs, hbs⟩ := exists_encode_request hraw hs hsuite hpub hne hfit hsize hlimit entropy
  have hp : ({ dialect := f.dialect, packet := .encryptionRequest { rsaData := secret } } :
      Model).packet = .encryptionRequest { rsaData := secret } := rfl
  rcases encode_request entropy hs hp hpub with
    ⟨e, herror, -⟩ | ⟨closed, s, frame, hclose, -, -, hsession⟩
  · rw [hbs] at herror
    cases herror
  · obtain ⟨ciphertext, hestablish, -, -⟩ := ExchangeKeys.closeRequest_eq_ok.1 hclose
    exact ⟨s, hestablish, hsession⟩

theorem encode_follows (f : Framer) (entropy : Entropy) (m : Model) :
    f.Follows (f.encode entropy m).state := by
  unfold encode
  split
  · rename_i request hs hp
    cases hk : f.keys.encryptKey? with
    | none =>
      rw [ExchangeKeys.sealRequest_of_none hk]
      exact (encodeSealed_follows f entropy m).1
    | some pub =>
      rw [ExchangeKeys.sealRequest_of_some hk]
      cases hc : f.keys.closeRequest pub entropy request with
      | error e => exact .refl f
      | ok pair =>
        obtain ⟨closed, s⟩ := pair
        obtain ⟨ciphertext, hsession, -, -⟩ := ExchangeKeys.closeRequest_eq_ok.1 hc
        simp only [Except.map]
        split
        · exact ⟨rfl, rfl, rfl, .inr ⟨request.rsaData, s, hsession, rfl⟩⟩
        · exact ⟨rfl, rfl, rfl, .inl rfl⟩
  · exact (encodeSealed_follows f entropy m).1

end Encode

/-! ## Receiving -/

section Receive

variable {g : Framer} {cut frame : Bytes} {m : Model}

theorem join_eq_self (h : g.session? = none → secretOf? m = none) :
    g.join m = { result := .ok m, state := g } := by
  unfold join
  split
  · rename_i request hs hp
    have hn := h hs
    unfold secretOf? at hn
    rw [hp] at hn
    cases hn
  · rfl

/-- A request that comes in begins a session and has its secret revealed. -/
theorem join_request {closed opened : EncryptionRequest} {priv : Rsa.PrivateKey} {s : Session}
    (hs : g.session? = none) (hp : m.packet = .encryptionRequest closed)
    (hk : g.keys.decryptKey? = some priv) (ho : g.keys.openRequest priv closed = .ok (opened, s)) :
    (g.join m).result = .ok { m with packet := .encryptionRequest opened } ∧
      (g.join m).state = { g with session? := some s } := by
  unfold join
  rw [hs, hp]
  simp only [ExchangeKeys.acceptRequest_of_some hk, ho, Except.map, and_self]

def decoded (g : Framer) (frame : Bytes) : Framer :=
  { g with codec := (g.codec.decodeRaw frame).state }

theorem decoded_follows (g : Framer) (frame : Bytes) : g.Follows (g.decoded frame) :=
  ⟨rfl, rfl, rfl, .inl rfl⟩

/-- What is received is what the frame in the envelope decodes to, after the key exchange. -/
theorem receive_eq_join {log : List Activity} (ho : g.openEnvelope cut = (.ok frame, log))
    (hd : g.codec.decodeFrame frame = .ok m) :
    (g.receive cut).result = ((g.decoded frame).join m).result ∧
      (g.receive cut).state = ((g.decoded frame).join m).state := by
  have hr : (g.codec.decodeRaw frame).result = .ok m := hd
  unfold receive
  simp only [ho, hr]
  exact ⟨rfl, rfl⟩

/-- Every packet that is received comes that way. -/
theorem receive_eq_ok (h : (g.receive cut).result = .ok m) :
    ∃ frame log sent, g.openEnvelope cut = (.ok frame, log) ∧
      g.codec.decodeFrame frame = .ok sent ∧ ((g.decoded frame).join sent).result = .ok m := by
  unfold receive at h
  cases ho : g.openEnvelope cut with
  | mk opened log =>
    rw [ho] at h
    cases opened with
    | error e => cases h
    | ok frame =>
      simp only at h
      cases hd : (g.codec.decodeRaw frame).result with
      | error e => rw [hd] at h; cases h
      | ok sent =>
        rw [hd] at h
        exact ⟨frame, log, sent, rfl, hd, h⟩

/-- A framer that finds certain bytes in front of its buffer delivers a model for them, whatever
stands behind. -/
def Takes (g : Framer) (bs : Bytes) (m : Model) (g' : Framer) : Prop :=
  ∀ more, (g.next (bs ++ more)).result = .ok (some m) ∧ (g.next (bs ++ more)).state = (g', more)

/-- A frame or an envelope that announces its own length within the bounds is taken as a whole. -/
theorem takes_receive (hraw : g.dialect.isRaw = false) (hne : cut ≠ [])
    (hcut : ∀ more, (g.outlook (cut ++ more)).declared? = some cut.length ∧
      (g.outlook (cut ++ more)).minimum ≤ cut.length ∧
      cut.length ≤ (g.outlook (cut ++ more)).limit)
    (hm : (g.receive cut).result = .ok m) : g.Takes cut m (g.receive cut).state := by
  intro more
  obtain ⟨hd, hmin, hmax⟩ := hcut more
  rw [next_eq_judge hraw, judge_of_declared hne hd hmin hmax]
  simp only [List.take_left, List.drop_left, hm, and_true]
  rfl

end Receive

/-! ## A sender and a receiver in the same session -/

theorem isEncrypted_of_none {f : Framer} (h : f.session? = none) : f.isEncrypted = false := by
  unfold Framer.isEncrypted
  rw [h]
  rfl

theorem isEncrypted_of_ne_none {f : Framer} (h : f.session? ≠ none) : f.isEncrypted = true :=
  Option.isSome_iff_ne_none.2 h

/-- Framers that differ in what their codecs last did at most, as before and after a call that
begins no session. -/
structure Alike (f g : Framer) : Prop where
  dialect : g.codec.dialect = f.codec.dialect
  settings : g.codec.settings = f.codec.settings
  keys : g.keys = f.keys
  session : g.session? = f.session?

theorem Alike.refl (f : Framer) : f.Alike f := ⟨rfl, rfl, rfl, rfl⟩

theorem Alike.symm {f g : Framer} (h : f.Alike g) : g.Alike f :=
  ⟨h.dialect.symm, h.settings.symm, h.keys.symm, h.session.symm⟩

theorem Alike.trans {f g k : Framer} (h : f.Alike g) (h' : g.Alike k) : f.Alike k where
  dialect := h'.dialect.trans h.dialect
  settings := h'.settings.trans h.settings
  keys := h'.keys.trans h.keys
  session := h'.session.trans h.session

theorem Alike.follows {f g : Framer} (h : f.Alike g) : f.Follows g :=
  ⟨h.dialect, h.settings, h.keys, .inl h.session⟩

theorem Alike.isEncrypted {f g : Framer} (h : f.Alike g) : g.isEncrypted = f.isEncrypted := by
  unfold Framer.isEncrypted
  rw [h.session]

theorem Follows.alike {f g : Framer} (h : f.Follows g) (hs : g.session? = f.session?) :
    f.Alike g :=
  ⟨h.dialect, h.settings, h.keys, hs⟩

theorem alike_encodeSealed (f : Framer) (entropy : Entropy) (m : Model) :
    f.Alike (f.encodeSealed entropy m).state :=
  (encodeSealed_follows f entropy m).1.alike (encodeSealed_follows f entropy m).2

theorem alike_decoded (g : Framer) (frame : Bytes) : g.Alike (g.decoded frame) :=
  (decoded_follows g frame).alike rfl

/-- A sender and a receiver that frame alike: what the one sends as a frame or as an envelope is one
for the other. -/
structure Aligned (f g : Framer) : Prop where
  isFramed : f.dialect.isRaw = false
  dialect : g.codec.dialect = f.codec.dialect
  settings : g.codec.settings = f.codec.settings
  limit : f.codec.settings.maxFrameSize + mostOverhead < 2 ^ 64
  session : g.session? = f.session?
  builtIn : ∀ s, f.session? = some s → s.BuiltIn

section Aligned

variable {f g : Framer} {entropy : Entropy} {m sent : Model} {bs frame : Bytes}

theorem Aligned.isRaw (h : Aligned f g) : g.dialect.isRaw = false :=
  isRaw_of_dialect h.dialect h.isFramed

/-- What is sent carries its packet, and the receiver decodes it as the sender would. -/
theorem Aligned.carries (h : Aligned f g) (he : f.codec.encodeFrame sent = .ok frame) :
    g.codec.Carries sent.packet frame ∧ g.codec.decodeFrame frame = f.codec.decodeFrame frame := by
  obtain ⟨hencode, hdecode⟩ := Codec.conversions_congr h.dialect h.settings
  rw [← hencode] at he
  exact ⟨(Codec.carries_of_encodeFrame he).2, congrFun hdecode frame⟩

/-- A frame that is sent in plain sight is taken as it is. -/
theorem Aligned.takes_plain (h : Aligned f g) (hs : f.session? = none)
    (he : f.codec.encodeFrame sent = .ok frame) (hne : sent.packet ≠ .empty)
    (hd : f.codec.decodeFrame frame = .ok sent)
    (hj : ((g.decoded frame).join sent).result = .ok m) :
    frame ≠ [] ∧ g.Takes frame m ((g.decoded frame).join sent).state := by
  obtain ⟨hc, hdecode⟩ := h.carries he
  obtain ⟨hmin, hmax, hlength⟩ := hc.bounds h.isRaw hne
  have hgs : g.session? = none := by rw [h.session, hs]
  have hnil : frame ≠ [] := by
    rintro rfl
    exact absurd hmin (by decide)
  have ho : g.openEnvelope frame = (.ok frame, []) := by
    unfold openEnvelope
    rw [hgs]
  obtain ⟨hresult, hstate⟩ := receive_eq_join ho (hdecode.trans hd)
  refine ⟨hnil, ?_⟩
  rw [← hstate]
  refine takes_receive h.isRaw hnil (fun more => ?_) (hresult.trans hj)
  unfold outlook
  rw [hgs]
  exact ⟨hlength more, hmin, hmax⟩

/-- A frame that is sent in an envelope is taken out of it. -/
theorem Aligned.takes_sealed (h : Aligned f g) {s : Session} (hs : f.session? = some s)
    (he : f.codec.encodeFrame m = .ok frame) (hne : m.packet ≠ .empty)
    (hd : f.codec.decodeFrame frame = .ok m) (hseal : s.cipher.sealFrame entropy frame = .ok bs) :
    bs ≠ [] ∧ g.Takes bs m (g.decoded frame) := by
  obtain ⟨hc, hdecode⟩ := h.carries he
  obtain ⟨-, hmax, -⟩ := hc.bounds h.isRaw hne
  have hlaw := (h.builtIn s hs).lawful
  obtain ⟨hlmin, hlmax⟩ := hlaw.length_sealFrame hseal
  have hgs : g.session? = some s := by rw [h.session, hs]
  have hword : g.codec.settings.maxFrameSize + s.cipher.maxOverhead < 2 ^ 64 := by
    have hlimit := h.limit
    have hoverhead := (h.builtIn s hs).within.1
    rw [h.settings]
    omega
  have hnil : bs ≠ [] := by
    rintro rfl
    have hpos := hlaw.minSealedLength_pos
    rw [List.length_nil] at hlmin
    omega
  have ho : g.openEnvelope bs = (.ok frame, [.frameOpened]) := by
    unfold openEnvelope
    simp only [hgs, hlaw.openFrame_sealFrame hseal]
  obtain ⟨hresult, hstate⟩ := receive_eq_join ho (hdecode.trans hd)
  -- There is a session already, so even a request is delivered as it is.
  have hj : (g.decoded frame).join m = { result := .ok m, state := g.decoded frame } := by
    apply join_eq_self
    intro hnone
    rw [show (g.decoded frame).session? = g.session? from rfl, hgs] at hnone
    cases hnone
  rw [hj] at hresult hstate
  have htakes : g.Takes bs m (g.receive bs).state := by
    refine takes_receive h.isRaw hnil (fun more => ?_) hresult
    unfold outlook
    simp only [hgs]
    exact ⟨hlaw.sealedLength?_sealFrame more hseal, hlmin, by omega⟩
  rw [hstate] at htakes
  exact ⟨hnil, htakes⟩

/-- The empty packet is the only one that is sent as no bytes. -/
theorem Aligned.eq_nil_iff (h : Aligned f g) (he : f.codec.encodeFrame m = .ok frame) :
    frame = [] ↔ m.packet = .empty := by
  obtain ⟨hc, -⟩ := h.carries he
  constructor
  · intro hnil
    by_cases hp : m.packet = .empty
    · exact hp
    · have hmin := (hc.bounds h.isRaw hp).1
      rw [hnil] at hmin
      exact absurd hmin (by decide)
  · intro hp
    rw [hp] at hc
    cases hc with
    | empty => rfl
    | known _ hkind => cases hkind

/-- A model that cannot begin a session is taken as it was sent. -/
theorem Aligned.taken (h : Aligned f g) (hplain : f.session? = none → secretOf? m = none)
    (hm : f.codec.Restores m) (hr : (f.encodeSealed entropy m).result = .ok bs) :
    m.packet = .empty ∧ bs = [] ∨
      m.packet ≠ .empty ∧ bs ≠ [] ∧ ∃ frame, g.Takes bs m (g.decoded frame) := by
  obtain ⟨frame, hframe, hbs⟩ := encodeSealed_eq_ok hr
  -- The empty packet has no bytes, and none are sealed either.
  by_cases hp : m.packet = .empty
  · have hnil := (h.eq_nil_iff hframe).2 hp
    refine .inl ⟨hp, ?_⟩
    cases hs : f.session? with
    | none => rw [hs] at hbs; exact hbs.trans hnil
    | some s =>
      rw [hs] at hbs
      rcases hbs with ⟨-, hb⟩ | ⟨hne, -⟩
      · exact hb
      · exact absurd hnil hne
  · refine .inr ⟨hp, ?_⟩
    cases hs : f.session? with
    | none =>
      rw [hs] at hbs
      have hj : (g.decoded frame).join m = { result := .ok m, state := g.decoded frame } :=
        join_eq_self fun _ => hplain hs
      have ht := h.takes_plain (m := m) hs hframe hp (hm frame hframe) (by rw [hj])
      rw [hj] at ht
      rw [hbs]
      exact ⟨ht.1, frame, ht.2⟩
    | some s =>
      rw [hs] at hbs
      rcases hbs with ⟨hnil, -⟩ | ⟨-, hseal⟩
      · exact absurd ((h.eq_nil_iff hframe).1 hnil) hp
      · have ht := h.takes_sealed hs hframe hp (hm frame hframe) hseal
        exact ⟨ht.1, frame, ht.2⟩

end Aligned

/-! ## Both sides in step -/

/-- A sender and a receiver between which a key exchange can run: the dialect has frames, and both
sides have the same settings, matching keys and the same cipher of the library. -/
structure Paired (f g : Framer) : Prop where
  isFramed : f.dialect.isRaw = false
  dialect : g.codec.dialect = f.codec.dialect
  settings : g.codec.settings = f.codec.settings
  /-- The length of an envelope of the longest frame fits in a machine word. -/
  limit : f.codec.settings.maxFrameSize + mostOverhead < 2 ^ 64
  keys : ∃ pub priv, f.keys.encryptKey? = some pub ∧ g.keys.decryptKey? = some priv ∧
    Rsa.Matching pub priv
  suite : ∃ suite : CipherSuite, f.keys.factory = suite.establish ∧ g.keys.factory = suite.establish

theorem Paired.isRaw {f g : Framer} (h : Paired f g) : g.dialect.isRaw = false :=
  isRaw_of_dialect h.dialect h.isFramed

theorem Paired.follows {f f' g g' : Framer} (h : Paired f g) (hf : f.Follows f')
    (hg : g.Follows g') : Paired f' g' where
  isFramed := hf.isRaw h.isFramed
  dialect := by rw [hg.dialect, hf.dialect, h.dialect]
  settings := by rw [hg.settings, hf.settings, h.settings]
  limit := by rw [hf.settings]; exact h.limit
  keys := by rw [hf.keys, hg.keys]; exact h.keys
  suite := by rw [hf.keys, hg.keys]; exact h.suite

/-- The two sides have the same session, or neither has one. -/
structure InStep (f g : Framer) : Prop where
  paired : Paired f g
  session : g.session? = f.session?
  builtIn : ∀ s, f.session? = some s → s.BuiltIn

theorem Paired.inStep {f g : Framer} (h : Paired f g) (hf : f.session? = none)
    (hg : g.session? = none) : InStep f g where
  paired := h
  session := hg.trans hf.symm
  builtIn s hs := by rw [hf] at hs; cases hs

theorem InStep.aligned {f g : Framer} (h : InStep f g) : Aligned f g where
  isFramed := h.paired.isFramed
  dialect := h.paired.dialect
  settings := h.paired.settings
  limit := h.paired.limit
  session := h.session
  builtIn := h.builtIn

theorem InStep.isRaw {f g : Framer} (h : InStep f g) : g.dialect.isRaw = false :=
  h.paired.isRaw

theorem InStep.lawful_sender {f g : Framer} (h : InStep f g) : f.Lawful := by
  obtain ⟨suite, hf, -⟩ := h.paired.suite
  exact BuiltIn.lawful ⟨⟨suite, hf⟩, h.builtIn⟩

theorem InStep.lawful_receiver {f g : Framer} (h : InStep f g) : g.Lawful := by
  obtain ⟨suite, -, hg⟩ := h.paired.suite
  exact BuiltIn.lawful ⟨⟨suite, hg⟩, fun s hs => h.builtIn s (h.session ▸ hs)⟩

section Step

variable {f g : Framer} {entropy : Entropy} {m : Model} {bs frame : Bytes}

/-- Calls that begin no session keep both sides in step. -/
theorem InStep.alike (h : InStep f g) {f' g' : Framer} (hf : f.Alike f') (hg : g.Alike g') :
    InStep f' g' where
  paired := h.paired.follows hf.follows hg.follows
  session := by rw [hg.session, h.session, hf.session]
  builtIn s hs := h.builtIn s (hf.session ▸ hs)

/-- What it takes to keep both sides in step when a model is encoded. -/
structure Sent (f g : Framer) (entropy : Entropy) (m : Model) (bs : Bytes) (g' : Framer) :
    Prop where
  /-- The receiver delivers the model, unless it is the empty packet, which has no bytes. -/
  taken : m.packet = .empty ∧ bs = [] ∧ g' = g ∨ m.packet ≠ .empty ∧ bs ≠ [] ∧ g.Takes bs m g'
  inStep : InStep (f.encode entropy m).state g'
  /-- The first request that was sent begins the session. -/
  secret : (f.encode entropy m).state.session?.map (·.secret) =
    (f.session?.map (·.secret)).or (secretOf? m)

-- A model that begins no session.
theorem sent_of_encodeSealed (h : InStep f g) (hplain : f.session? = none → secretOf? m = none)
    (hm : f.codec.Restores m) (hr : (f.encodeSealed entropy m).result = .ok bs) :
    ∃ g', Sent f g entropy m bs g' := by
  have he := encode_eq_encodeSealed entropy hplain
  have hf := alike_encodeSealed f entropy m
  have hsecret : (f.encode entropy m).state.session?.map (·.secret) =
      (f.session?.map (·.secret)).or (secretOf? m) := by
    rw [he, hf.session]
    cases hs : f.session? with
    | none => rw [hplain hs]; rfl
    | some s => rfl
  rcases h.aligned.taken hplain hm hr with ⟨hp, hnil⟩ | ⟨hp, hne, frame, htakes⟩
  · exact ⟨g, .inl ⟨hp, hnil, rfl⟩, by rw [he]; exact h.alike hf (.refl g), hsecret⟩
  · refine ⟨g.decoded frame, .inr ⟨hp, hne, htakes⟩, ?_, hsecret⟩
    rw [he]
    exact h.alike hf (alike_decoded g frame)

/-- A request that was closed is opened behind its frame, and the receiver begins its session. -/
theorem takes_request (h : InStep f g) (hs : f.session? = none) {request : EncryptionRequest}
    (hp : m.packet = .encryptionRequest request) {closed : EncryptionRequest} {s : Session}
    {pub : Rsa.PublicKey} {priv : Rsa.PrivateKey} (hmatch : Rsa.Matching pub priv)
    (hpriv : g.keys.decryptKey? = some priv) (hfactory : g.keys.factory = f.keys.factory)
    (hclose : f.keys.closeRequest pub entropy request = .ok (closed, s))
    (hframe : f.codec.encodeFrame { m with packet := .encryptionRequest closed } = .ok frame) :
    frame ≠ [] ∧ g.Takes frame m { g.decoded frame with session? := some s } := by
  have hdistinct : f.codec.Distinguishes (.encryptionRequest closed) :=
    .framed h.paired.isFramed fun u hu => by cases hu
  have hd : f.codec.decodeFrame frame =
      .ok { m with packet := .encryptionRequest closed } :=
    Codec.Distinguishes.restores hdistinct frame hframe
  have hopen : g.keys.openRequest priv closed = .ok (request, s) :=
    ExchangeKeys.openRequest_closeRequest hmatch hfactory hclose
  obtain ⟨hjm, hjs⟩ := join_request (g := g.decoded frame)
    (m := { m with packet := .encryptionRequest closed }) (h.session.trans hs) rfl hpriv hopen
  have hback : ({ m with packet := .encryptionRequest request } : Model) = m := by
    rw [← hp]
  have ht := h.aligned.takes_plain hs hframe (by intro hn; cases hn) hd hjm
  rw [hjs, hback] at ht
  exact ht

-- A request that begins a session.
theorem sent_request (h : InStep f g) (hs : f.session? = none) {request : EncryptionRequest}
    (hp : m.packet = .encryptionRequest request)
    (hr : (f.encode entropy m).result = .ok bs) : ∃ g', Sent f g entropy m bs g' := by
  obtain ⟨pub, priv, hpub, hpriv, hmatch⟩ := h.paired.keys
  obtain ⟨suite, hfs, hgs⟩ := h.paired.suite
  rcases encode_request entropy hs hp hpub with
    ⟨e, herror, -⟩ | ⟨closed, s, frame, hclose, hframe, hok, hsession⟩
  · rw [herror] at hr
    cases hr
  · obtain rfl : frame = bs := by
      rw [hok] at hr
      exact Except.ok.inj hr
    obtain ⟨ciphertext, hestablish, -, -⟩ := ExchangeKeys.closeRequest_eq_ok.1 hclose
    obtain ⟨hsecret, -, -⟩ := Session.establish_eq_ok hestablish
    have hbuiltIn : s.BuiltIn := Session.builtIn_of_establish (hfs ▸ hestablish)
    -- Both sides establish the session from the same secret.
    have hfollows : g.Follows { g.decoded frame with session? := some s } :=
      ⟨rfl, rfl, rfl, .inr ⟨request.rsaData, s, by rw [hgs, ← hfs]; exact hestablish, rfl⟩⟩
    refine ⟨{ g.decoded frame with session? := some s }, .inr ⟨?_, ?_⟩, ?_, ?_⟩
    · rw [hp]
      intro hn
      cases hn
    · exact takes_request h hs hp hmatch hpriv (hgs.trans hfs.symm) hclose hframe
    · refine ⟨h.paired.follows (encode_follows f entropy m) hfollows, hsession.symm, ?_⟩
      intro t ht
      rw [hsession] at ht
      exact Option.some.inj ht ▸ hbuiltIn
    · rw [hsession, hs]
      unfold secretOf?
      rw [hp]
      exact congrArg some hsecret

/-- Whatever is encoded keeps both sides in step. -/
theorem exists_sent (h : InStep f g) (hm : f.codec.Restores m)
    (hr : (f.encode entropy m).result = .ok bs) : ∃ g', Sent f g entropy m bs g' := by
  by_cases hplain : f.session? = none → secretOf? m = none
  · rw [encode_eq_encodeSealed entropy hplain] at hr
    exact sent_of_encodeSealed h hplain hm hr
  · obtain ⟨hs, request, hp⟩ := request_of_not_plain hplain
    exact sent_request h hs hp hr

/-- What cannot be encoded begins no session and keeps both sides in step. -/
theorem encode_failed (h : InStep f g) {e : ProtocolError}
    (hr : (f.encode entropy m).result = .error e) :
    (f.encode entropy m).state.session? = f.session? ∧ InStep (f.encode entropy m).state g := by
  have hsame := session_encode_of_error hr
  exact ⟨hsame, h.alike ((encode_follows f entropy m).alike hsame) (.refl g)⟩

end Step

end Framer

end GameWire
