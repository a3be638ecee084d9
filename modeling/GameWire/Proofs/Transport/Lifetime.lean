import GameWire.Proofs.Transport.Exchange

/-!
# The life of a session

A session begins with a request that a key of the framer opens or closes.  It keeps its secret and
ends only when the framer is switched to the raw dialect, and a framer that was ever raw begins no
session any more.  While a session lasts, all that goes out is sealed and all that comes in was.
-/

namespace GameWire.Framer

/-! ## Calls -/

inductive Operation where
  | next (inbound : Bytes)
  | encode (entropy : Entropy) (m : Model)
  | setDialect (dialect : Dialect)

/-- Whether a call switches to the raw dialect. -/
def Operation.entersRaw : Operation → Bool
  | .setDialect dialect => dialect.isRaw
  | .next _ | .encode _ _ => false

def perform (f : Framer) : Operation → Framer
  | .next inbound => (f.next inbound).state.1
  | .encode entropy m => (f.encode entropy m).state
  | .setDialect dialect => f.setDialect dialect

def run (f : Framer) : List Operation → Framer
  | [] => f
  | op :: ops => (f.perform op).run ops

/-! ## What begins a session -/

theorem join_session (f : Framer) (m : Model) :
    (f.join m).state.session? = f.session? ∨ f.session? = none ∧ f.keys.canDecrypt = true := by
  unfold join
  split
  · rename_i request hs _
    cases hk : f.keys.decryptKey? with
    | none =>
      rw [ExchangeKeys.acceptRequest_of_none hk]
      exact .inl rfl
    | some key =>
      right
      unfold ExchangeKeys.canDecrypt
      rw [hk]
      exact ⟨hs, rfl⟩
  · exact .inl rfl

theorem receive_session (f : Framer) (cut : Bytes) :
    (f.receive cut).state.session? = f.session? ∨
      f.session? = none ∧ f.keys.canDecrypt = true := by
  unfold receive
  split
  · exact .inl rfl
  · simp only
    split
    · exact .inl rfl
    · exact join_session (f.decoded _) _

/-- Only a framer with a private key begins a session with what comes in. -/
theorem next_session (f : Framer) (inbound : Bytes) :
    (f.next inbound).state.1.session? = f.session? ∨
      f.session? = none ∧ f.keys.canDecrypt = true := by
  cases hraw : f.dialect.isRaw with
  | true =>
    unfold next
    rw [hraw]
    split
    · exact .inl rfl
    · exact .inl rfl
  | false =>
    rw [next_eq_judge hraw]
    split
    · exact .inl rfl
    · exact .inl rfl
    · exact receive_session f _

/-- Only a framer with a public key begins a session with what goes out. -/
theorem encode_session (f : Framer) (entropy : Entropy) (m : Model) :
    (f.encode entropy m).state.session? = f.session? ∨
      f.session? = none ∧ f.keys.canEncrypt = true := by
  by_cases hplain : f.session? = none → secretOf? m = none
  · rw [encode_eq_encodeSealed entropy hplain]
    exact .inl (encodeSealed_follows f entropy m).2
  · obtain ⟨hs, request, hp⟩ := request_of_not_plain hplain
    cases hk : f.keys.encryptKey? with
    | none =>
      left
      unfold encode
      rw [hs, hp]
      simp only [ExchangeKeys.sealRequest_of_none hk]
      exact (encodeSealed_follows f entropy m).2.trans hs
    | some pub =>
      right
      unfold ExchangeKeys.canEncrypt
      rw [hk]
      exact ⟨hs, rfl⟩

theorem follows_next (f : Framer) (inbound : Bytes) : f.Follows (f.next inbound).state.1 := by
  cases hraw : f.dialect.isRaw with
  | false => exact next_follows hraw inbound
  | true =>
    unfold next
    rw [hraw]
    split
    · exact .refl f
    · exact ⟨rfl, rfl, rfl, .inl rfl⟩

/-! ## Where a framer stands -/

/-- What holds of a framer that was given certain keys: they are barred for good once it was raw,
and its session was established with them. -/
structure Stands (keys : ExchangeKeys) (barred : Bool) (f : Framer) : Prop where
  keys_eq : f.keys = if barred then {} else keys
  framed : barred = false → f.dialect.isRaw = false
  session : ∀ s, f.session? = some s →
    barred = false ∧ Session.establish keys.factory s.secret = .ok s

section Stands

variable {f : Framer} {keys : ExchangeKeys} {barred : Bool}

theorem stands_ofCodec (codec : Codec) (keys : ExchangeKeys) :
    (ofCodec codec keys).Stands keys codec.dialect.isRaw where
  keys_eq := rfl
  framed h := h
  session s hs := by cases hs

/-- A framer that can take part in a key exchange was never raw. -/
theorem Stands.not_barred (h : f.Stands keys barred)
    (hcan : f.keys.canDecrypt = true ∨ f.keys.canEncrypt = true) : barred = false := by
  cases barred with
  | false => rfl
  | true =>
    rw [h.keys_eq] at hcan
    rcases hcan with hcan | hcan <;> cases hcan

/-- A call after which the same keys are there can only begin a session with them. -/
theorem Stands.follows (h : f.Stands keys barred) {g : Framer} (hg : f.Follows g)
    (hbegins : g.session? = f.session? ∨ f.keys.canDecrypt = true ∨ f.keys.canEncrypt = true) :
    g.Stands keys barred where
  keys_eq := hg.keys.trans h.keys_eq
  framed hb := hg.isRaw (h.framed hb)
  session s hs := by
    rcases hbegins with hsame | hcan
    · exact h.session s (hsame ▸ hs)
    · have hb := h.not_barred hcan
      refine ⟨hb, ?_⟩
      rcases hg.session with hsame | ⟨secret, t, ht, hnew⟩
      · exact (h.session s (hsame ▸ hs)).2
      · obtain rfl : s = t := by rw [hs] at hnew; exact Option.some.inj hnew
        rw [h.keys_eq, hb] at ht
        rw [(Session.establish_eq_ok ht).1]
        exact ht

theorem Stands.setDialect (h : f.Stands keys barred) (dialect : Dialect) :
    (f.setDialect dialect).Stands keys (barred || dialect.isRaw) := by
  unfold Framer.setDialect
  cases hd : dialect.isRaw with
  | true =>
    rw [Bool.or_true]
    exact ⟨rfl, fun hb => (by cases hb), fun s hs => by cases hs⟩
  | false =>
    rw [Bool.or_false]
    exact ⟨h.keys_eq, fun _ => hd, h.session⟩

theorem Stands.perform (h : f.Stands keys barred) (op : Operation) :
    (f.perform op).Stands keys (barred || op.entersRaw) := by
  cases op with
  | next inbound =>
    rw [show Operation.entersRaw (.next inbound) = false from rfl, Bool.or_false]
    apply h.follows (follows_next f inbound)
    exact (next_session f inbound).imp id fun hbegins => .inl hbegins.2
  | encode entropy m =>
    rw [show Operation.entersRaw (.encode entropy m) = false from rfl, Bool.or_false]
    apply h.follows (encode_follows f entropy m)
    exact (encode_session f entropy m).imp id fun hbegins => .inr hbegins.2
  | setDialect dialect => exact h.setDialect dialect

theorem Stands.run (h : f.Stands keys barred) (ops : List Operation) :
    (f.run ops).Stands keys (barred || ops.any Operation.entersRaw) := by
  induction ops generalizing f barred with
  | nil =>
    rw [List.any_nil, Bool.or_false]
    exact h
  | cons op ops ih =>
    rw [List.any_cons, ← Bool.or_assoc]
    exact ih (h.perform op)

end Stands

/-! ## While a session lasts -/

section Session

variable {f : Framer} {s : Session} (hs : f.session? = some s)
include hs

/-- A session is not given up by any call but a switch to the raw dialect. -/
theorem perform_session_of_some (op : Operation) :
    (f.perform op).session? = if op.entersRaw then none else some s := by
  have hne : f.session? ≠ none := by rw [hs]; exact Option.some_ne_none s
  cases op with
  | next inbound =>
    rcases next_session f inbound with hsame | hbegins
    · exact hsame.trans hs
    · exact absurd hbegins.1 hne
  | encode entropy m =>
    rcases encode_session f entropy m with hsame | hbegins
    · exact hsame.trans hs
    · exact absurd hbegins.1 hne
  | setDialect dialect =>
    show (f.setDialect dialect).session? = if dialect.isRaw then none else some s
    unfold Framer.setDialect
    cases dialect.isRaw with
    | true => rfl
    | false => exact hs

theorem run_session_of_some {keys : ExchangeKeys} {barred : Bool} (h : f.Stands keys barred)
    (ops : List Operation) :
    (f.run ops).session? = if ops.any Operation.entersRaw then none else some s := by
  induction ops generalizing f barred with
  | nil => exact hs
  | cons op ops ih =>
    have hop := perform_session_of_some hs op
    have hstands := h.perform op
    show ((f.perform op).run ops).session? = _
    rw [List.any_cons]
    cases hraw : op.entersRaw with
    | false =>
      rw [hraw] at hop
      exact ih hop hstands
    | true =>
      -- From now on the framer is barred.
      rw [hraw, Bool.or_true] at hstands
      cases hlast : ((f.perform op).run ops).session? with
      | none => rfl
      | some t => cases ((hstands.run ops).session t hlast).1

/-- What goes out is the empty packet, or its frame sealed. -/
theorem sealed_of_encode {entropy : Entropy} {m : Model} {bs : Bytes}
    (he : (f.encode entropy m).result = .ok bs) (hne : bs ≠ []) :
    ∃ frame, f.codec.encodeFrame m = .ok frame ∧ s.cipher.sealFrame entropy frame = .ok bs := by
  rw [encode_eq_encodeSealed entropy (by rw [hs]; exact fun h => by cases h)] at he
  obtain ⟨frame, hframe, hbs⟩ := encodeSealed_eq_ok he
  rw [hs] at hbs
  rcases hbs with ⟨-, hnil⟩ | ⟨-, hseal⟩
  · exact absurd hnil hne
  · exact ⟨frame, hframe, hseal⟩

/-- What comes in is the frame in an envelope, and even a request is left as it is. -/
theorem opened_of_receive {cut : Bytes} {m : Model} (hr : (f.receive cut).result = .ok m) :
    ∃ frame, s.cipher.openFrame cut = .ok frame ∧ f.codec.decodeFrame frame = .ok m := by
  obtain ⟨frame, log, sent, ho, hd, hjoin⟩ := receive_eq_ok hr
  have hopen : s.cipher.openFrame cut = .ok frame := by
    unfold openEnvelope at ho
    simp only [hs] at ho
    split at ho
    · rename_i opened hopened
      cases ho
      exact hopened
    · cases ho
  -- There is a session, so the key exchange is not run again.
  have hsession : (f.decoded frame).session? ≠ none := by
    show f.session? ≠ none
    rw [hs]
    exact Option.some_ne_none s
  rw [join_eq_self fun hnone => absurd hnone hsession] at hjoin
  cases hjoin
  exact ⟨frame, hopen, hd⟩

theorem opened_of_next (hraw : f.dialect.isRaw = false) {inbound : Bytes} {m : Model}
    (hr : (f.next inbound).result = .ok (some m)) :
    ∃ cut frame, s.cipher.sealedLength? inbound = some cut.length ∧
      inbound = cut ++ (f.next inbound).state.2 ∧ s.cipher.openFrame cut = .ok frame ∧
      f.codec.decodeFrame frame = .ok m := by
  obtain ⟨cut, hdeclared, hstream, hreceive, -⟩ := received_of_next hraw hr
  obtain ⟨frame, hopen, hdecode⟩ := opened_of_receive hs hreceive
  unfold outlook at hdeclared
  simp only [hs] at hdeclared
  exact ⟨cut, frame, hdeclared, hstream, hopen, hdecode⟩

end Session

/-! ## The whole life -/

/-- What holds of a framer that was given certain keys at first and may have been raw since. -/
structure Lifetime (keys : ExchangeKeys) (everRaw : Bool) (f : Framer) : Prop where
  /-- There is a session only while there are frames. -/
  framed : f.isEncrypted = true → f.dialect.isRaw = false
  key : f.isEncrypted = true → f.key ≠ []
  /-- The session is the one of its key. -/
  keyed : ∀ s, f.session? = some s → Session.establish keys.factory f.key = .ok s
  /-- Later calls do not change a session, and only a switch to the raw dialect ends it. -/
  lasting : ∀ s, f.session? = some s → ∀ later,
    (f.run later).session? = if later.any Operation.entersRaw then none else some s
  /-- Once raw, a framer has no session any more. -/
  barred : everRaw = true → f.session? = none
  /-- A session begins with what comes in only if there is a private key. -/
  accepted : ∀ inbound, f.isEncrypted = false → (f.next inbound).state.1.isEncrypted = true →
    everRaw = false ∧ keys.canDecrypt = true
  /-- A session begins with what goes out only if there is a public key. -/
  requested : ∀ entropy m, f.isEncrypted = false → (f.encode entropy m).state.isEncrypted = true →
    everRaw = false ∧ keys.canEncrypt = true
  /-- In a session all bytes that go out are the envelope of a frame. -/
  sealed : ∀ s, f.session? = some s → ∀ entropy m bs, (f.encode entropy m).result = .ok bs →
    bs ≠ [] → ∃ frame, f.codec.encodeFrame m = .ok frame ∧
      s.cipher.sealFrame entropy frame = .ok bs
  /-- In a session all packets that come in were in an envelope, which is taken off the buffer. -/
  opened : ∀ s, f.session? = some s → ∀ inbound m, (f.next inbound).result = .ok (some m) →
    ∃ cut frame, s.cipher.sealedLength? inbound = some cut.length ∧
      inbound = cut ++ (f.next inbound).state.2 ∧ s.cipher.openFrame cut = .ok frame ∧
      f.codec.decodeFrame frame = .ok m

theorem isEncrypted_iff {f : Framer} : f.isEncrypted = true ↔ ∃ s, f.session? = some s :=
  Option.isSome_iff_exists

theorem key_of_session {f : Framer} {s : Session} (hs : f.session? = some s) :
    f.key = s.secret := by
  unfold key
  rw [hs]
  rfl

/-- A call after which there is a session, and before which there was none, has begun it. -/
theorem begins_of_isEncrypted {f g : Framer} {can : Prop}
    (h : g.session? = f.session? ∨ f.session? = none ∧ can) (hno : f.isEncrypted = false)
    (he : g.isEncrypted = true) : can := by
  rcases h with hsame | hbegins
  · unfold isEncrypted at hno he
    rw [hsame, hno] at he
    cases he
  · exact hbegins.2

/-- A call of a framer that stands begins a session only if it was never raw. -/
theorem Stands.lifetime {f : Framer} {keys : ExchangeKeys} {barred : Bool}
    (h : f.Stands keys barred) : f.Lifetime keys barred where
  framed he := by
    obtain ⟨s, hs⟩ := isEncrypted_iff.1 he
    exact h.framed (h.session s hs).1
  key he := by
    obtain ⟨s, hs⟩ := isEncrypted_iff.1 he
    rw [key_of_session hs]
    exact (Session.establish_eq_ok (h.session s hs).2).2.1
  keyed s hs := by
    rw [key_of_session hs]
    exact (h.session s hs).2
  lasting s hs := run_session_of_some hs h
  barred hb := by
    cases hs : f.session? with
    | none => rfl
    | some s =>
      have hnot := (h.session s hs).1
      rw [hb] at hnot
      cases hnot
  accepted inbound hno he := by
    have hcan := begins_of_isEncrypted (next_session f inbound) hno he
    have hb := h.not_barred (.inl hcan)
    rw [h.keys_eq, hb] at hcan
    exact ⟨hb, hcan⟩
  requested entropy m hno he := by
    have hcan := begins_of_isEncrypted (encode_session f entropy m) hno he
    have hb := h.not_barred (.inr hcan)
    rw [h.keys_eq, hb] at hcan
    exact ⟨hb, hcan⟩
  sealed s hs entropy m bs he hne := sealed_of_encode hs he hne
  opened s hs inbound m hr := opened_of_next hs (h.framed (h.session s hs).1) hr

/-- After any calls on a new framer, its session, if there is one, has kept to its life. -/
theorem run_ofCodec_lifetime (codec : Codec) (keys : ExchangeKeys) (ops : List Operation) :
    ((ofCodec codec keys).run ops).Lifetime keys
      (codec.dialect.isRaw || ops.any Operation.entersRaw) :=
  ((stands_ofCodec codec keys).run ops).lifetime

theorem run_encode (f : Framer) (entropy : Entropy) (m : Model) :
    f.run [.encode entropy m] = (f.encode entropy m).state :=
  rfl

theorem run_ofCodec_lifetime_request :
    let f := ofCodec (.ofDialect .classic) { encryptKey? := some Rsa.mersennePublic }
    let request : Model :=
      { dialect := f.dialect, packet := .encryptionRequest { rsaData := [1, 2, 3] } }
    let g := f.run [.encode (fun _ => 5) request]
    g.key = [1, 2, 3] ∧ (g.run [.setDialect .ngs]).key = [1, 2, 3] ∧
      (g.run [.setDialect .ngs, .setDialect .raw]).isEncrypted = false := by
  intro f request g
  have hlife : g.Lifetime _ false := run_ofCodec_lifetime (.ofDialect .classic)
    { encryptKey? := some Rsa.mersennePublic } [.encode (fun _ => 5) request]
  obtain ⟨s, hestablish, hsession⟩ := @exists_session_request f default Rsa.mersennePublic [1, 2, 3]
    rfl rfl rfl rfl (by decide) (by decide +kernel) (by decide +kernel) (by decide) (fun _ => 5)
  have hrequest : request =
      { dialect := f.dialect, packet := .encryptionRequest { rsaData := [1, 2, 3] } } := rfl
  have hs : (f.run [.encode (fun _ => 5) request]).session? = some s := by
    rw [run_encode, hrequest]
    exact hsession
  have hsecret := (Session.establish_eq_ok hestablish).1
  have hkept : (g.run [.setDialect .ngs]).session? = some s := hlife.lasting s hs _
  have hended : (g.run [.setDialect .ngs, .setDialect .raw]).session? = none :=
    hlife.lasting s hs _
  exact ⟨(key_of_session hs).trans hsecret, (key_of_session hkept).trans hsecret,
    isEncrypted_of_none hended⟩

end GameWire.Framer
