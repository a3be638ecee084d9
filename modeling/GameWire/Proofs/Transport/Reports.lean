import GameWire.Proofs.Metrics
import GameWire.Proofs.Transport.Lifetime

/-!
# What framers report

Each call on a framer reports a frame that came in and a key exchange, if there was one.  A key
exchange is reported where it is agreed on.  What comes in begins the session then, but a request
that goes out must still be encoded, and where that fails a session was reported that never begins.
-/

namespace GameWire

/-- The tally of key exchanges of which some were rejected. -/
def Tally.exchanges (established rejected : Nat) : Tally where
  keyExchanges := established + rejected
  keyExchangesEstablished := established
  keyExchangesRejected := rejected

/-- What is reported of failures only, and is not tallied, comes to nothing. -/
theorem Tally.of_onFailure {α : Type} {a : Activity} (h : one a = 0)
    (result : Except ProtocolError α) : of (Codec.onFailure result a) = 0 := by
  cases result with
  | ok _ => rfl
  | error e =>
    show one a + 0 = 0
    rw [h, add_zero]

theorem Codec.tally_decodeRaw (c : Codec) (frame : Bytes) :
    Tally.of (c.decodeRaw frame).activity = 0 :=
  Tally.of_onFailure rfl _

theorem Codec.tally_encodeRaw (c : Codec) (m : Model) :
    Tally.of (c.encodeRaw m).activity = 0 :=
  Tally.of_onFailure rfl _

namespace Framer

/-! ## Sessions that begin -/

/-- Whether there is a session afterwards and was none before. -/
def begins (before after : Framer) : Bool := !before.isEncrypted && after.isEncrypted

section Begins

variable {f g : Framer}

theorem begins_of_session_eq (h : g.session? = f.session?) : f.begins g = false := by
  unfold begins isEncrypted
  rw [h, Bool.not_and_self]

theorem begins_of_some {s : Session} (hs : f.session? = none) (h : g.session? = some s) :
    f.begins g = true := by
  unfold begins isEncrypted
  rw [hs, h]
  rfl

/-- What is not about keys leaves the session alone. -/
theorem tally_of_quiet {log : List Activity} (hlog : Tally.of log = 0)
    (h : g.session? = f.session?) : Tally.of log = .exchanges (f.begins g).toNat 0 := by
  rw [hlog, begins_of_session_eq h]
  rfl

-- A key exchange that is rejected does, too.
theorem tally_of_rejected {log : List Activity} (hlog : Tally.of log = .exchanges 0 1)
    (h : g.session? = f.session?) : Tally.of log = .exchanges (f.begins g).toNat 1 := by
  rw [hlog, begins_of_session_eq h]
  rfl

end Begins

/-- Whether a session is agreed on that never begins, since the request for it cannot be encoded. -/
def abandons (f : Framer) (entropy : Entropy) (m : Model) : Bool :=
  match f.session?, m.packet with
  | none, .encryptionRequest request =>
    match (f.keys.sealRequest entropy request).1, (f.encode entropy m).result with
    | .ok (some _), .error _ => true
    | _, _ => false
  | _, _ => false

/-! ## Single calls -/

theorem tally_openEnvelope (f : Framer) (cut : Bytes) : Tally.of (f.openEnvelope cut).2 = 0 := by
  unfold openEnvelope
  split
  · rfl
  · split <;> rfl

/-- What comes in begins a session if its key exchange is established. -/
theorem exists_tally_join (f : Framer) (m : Model) :
    ∃ rejected, Tally.of (f.join m).activity =
      .exchanges (f.begins (f.join m).state).toNat rejected := by
  unfold join
  split
  · rename_i request hs _
    cases hk : f.keys.decryptKey? with
    | none =>
      rw [ExchangeKeys.acceptRequest_of_none hk]
      exact ⟨0, tally_of_quiet rfl rfl⟩
    | some key =>
      rw [ExchangeKeys.acceptRequest_of_some hk]
      cases f.keys.openRequest key request with
      | error e => exact ⟨1, tally_of_rejected rfl rfl⟩
      | ok pair =>
        obtain ⟨opened, s⟩ := pair
        refine ⟨0, ?_⟩
        show _ = Tally.exchanges (f.begins { f with session? := some s }).toNat 0
        rw [begins_of_some hs rfl]
        rfl
  · exact ⟨0, tally_of_quiet rfl rfl⟩

theorem exists_tally_receive (f : Framer) (cut : Bytes) :
    ∃ rejected, Tally.of (f.receive cut).activity =
      .exchanges (f.begins (f.receive cut).state).toNat rejected +
        { framesIn := (f.receive cut).result.isOk.toNat } := by
  have hopen := f.tally_openEnvelope cut
  unfold receive
  cases ho : f.openEnvelope cut with
  | mk opened log =>
    rw [ho] at hopen
    change Tally.of log = 0 at hopen
    cases opened with
    | error e => exact ⟨0, tally_of_quiet hopen rfl⟩
    | ok frame =>
      have hquiet : Tally.of (log ++ (f.codec.decodeRaw frame).activity) = 0 := by
        rw [Tally.of_append, hopen, f.codec.tally_decodeRaw]
        rfl
      cases hd : (f.codec.decodeRaw frame).result with
      | error e =>
        simp only [hd]
        exact ⟨0, tally_of_quiet hquiet rfl⟩
      | ok m =>
        simp only [hd]
        obtain ⟨rejected, hjoin⟩ :=
          exists_tally_join { f with codec := (f.codec.decodeRaw frame).state } m
        refine ⟨rejected, ?_⟩
        rw [Tally.of_append, Tally.of_append, hquiet, zero_add, hjoin]
        cases (join { f with codec := (f.codec.decodeRaw frame).state } m).result <;> rfl

def isPacket : Except ProtocolError (Option Model) → Bool
  | .ok (some _) => true
  | .ok none | .error _ => false

theorem isPacket_map_some (result : Except ProtocolError Model) :
    isPacket (result.map some) = result.isOk := by
  cases result <;> rfl

/-- Without frames, what comes in is a packet, but no frame is reported. -/
theorem exists_tally_next (f : Framer) (inbound : Bytes) :
    ∃ rejected, Tally.of (f.next inbound).activity =
      .exchanges (f.begins (f.next inbound).state.1).toNat rejected +
        { framesIn := (!f.dialect.isRaw && isPacket (f.next inbound).result).toNat } := by
  cases hraw : f.dialect.isRaw with
  | true =>
    unfold next
    rw [hraw]
    split
    · exact ⟨0, tally_of_quiet rfl rfl⟩
    · exact ⟨0, tally_of_quiet (f.codec.tally_decodeRaw inbound) rfl⟩
  | false =>
    rw [next_eq_judge hraw]
    split
    · exact ⟨0, tally_of_quiet rfl rfl⟩
    · exact ⟨0, tally_of_quiet rfl rfl⟩
    · rename_i declared _
      obtain ⟨rejected, h⟩ := f.exists_tally_receive (inbound.take declared)
      rw [← isPacket_map_some] at h
      exact ⟨rejected, h⟩

theorem tally_encodeSealed (f : Framer) (entropy : Entropy) (m : Model) :
    Tally.of (f.encodeSealed entropy m).activity = 0 := by
  have hquiet := f.codec.tally_encodeRaw m
  unfold encodeSealed
  simp only
  split
  · split
    · exact hquiet
    · rw [Tally.of_append, hquiet]
      rfl
  · exact hquiet

/-- What goes out begins a session if its key exchange is established and it can be encoded. -/
theorem exists_tally_encode (f : Framer) (entropy : Entropy) (m : Model) :
    ∃ rejected, Tally.of (f.encode entropy m).activity =
      .exchanges ((f.begins (f.encode entropy m).state).toNat +
        (f.abandons entropy m).toNat) rejected := by
  unfold abandons
  split
  · rename_i request hs hp
    -- A request that is sealed counts as established, whether or not it can be encoded then.
    unfold encode
    rw [hs, hp]
    cases hk : f.keys.encryptKey? with
    | none =>
      simp only [ExchangeKeys.sealRequest_of_none hk]
      exact ⟨0, tally_of_quiet (f.tally_encodeSealed entropy m)
        (f.encodeSealed_follows entropy m).2⟩
    | some pub =>
      simp only [ExchangeKeys.sealRequest_of_some hk]
      cases f.keys.closeRequest pub entropy request with
      | error e => exact ⟨1, tally_of_rejected rfl rfl⟩
      | ok pair =>
        obtain ⟨closed, s⟩ := pair
        have hquiet := f.codec.tally_encodeRaw { m with packet := .encryptionRequest closed }
        refine ⟨0, ?_⟩
        simp only [Except.map]
        rw [Tally.of_append, hquiet]
        cases (f.codec.encodeRaw { m with packet := .encryptionRequest closed }).result with
        | error e =>
          simp only
          rw [begins_of_session_eq hs.symm]
          rfl
        | ok frame =>
          simp only
          rw [begins_of_some hs rfl]
          rfl
  · rename_i hplain
    -- Everything else is encoded as it is, and exchanges no keys.
    have hsealed : f.encode entropy m = f.encodeSealed entropy m := by
      unfold encode
      split
      · rename_i request hs hp
        exact absurd hp (hplain request hs)
      · rfl
    rw [hsealed]
    exact ⟨0, tally_of_quiet (f.tally_encodeSealed entropy m)
      (f.encodeSealed_follows entropy m).2⟩

/-! ## Runs -/

def reportedBy (f : Framer) : Operation → List Activity
  | .next inbound => (f.next inbound).activity
  | .encode entropy m => (f.encode entropy m).activity
  | .setDialect _ => []

def begunBy (f : Framer) (op : Operation) : Bool := f.begins (f.perform op)

def abandonedBy (f : Framer) : Operation → Bool
  | .encode entropy m => f.abandons entropy m
  | .next _ | .setDialect _ => false

/-- A call establishes a session if it begins one or agrees on one that never begins. -/
theorem tally_reportedBy (f : Framer) (op : Operation) :
    let t := Tally.of (f.reportedBy op)
    t.keyExchanges = t.keyExchangesEstablished + t.keyExchangesRejected ∧
      t.keyExchangesEstablished = (f.begunBy op).toNat + (f.abandonedBy op).toNat := by
  intro t
  cases op with
  | next inbound =>
    obtain ⟨rejected, h⟩ := f.exists_tally_next inbound
    have ht : t = _ := h
    rw [ht]
    exact ⟨rfl, rfl⟩
  | encode entropy m =>
    obtain ⟨rejected, h⟩ := f.exists_tally_encode entropy m
    have ht : t = _ := h
    rw [ht]
    exact ⟨rfl, rfl⟩
  | setDialect dialect =>
    have hends : f.begins (f.setDialect dialect) = false := by
      unfold Framer.setDialect
      cases dialect.isRaw with
      | true => exact Bool.and_false _
      | false => exact begins_of_session_eq rfl
    refine ⟨rfl, ?_⟩
    show 0 = (f.begins (f.setDialect dialect)).toNat + 0
    rw [hends]
    rfl

theorem tally_reportAll (f : Framer) (ops : List Operation) :
    let t := Tally.of (reportAll perform reportedBy f ops)
    t.keyExchanges = t.keyExchangesEstablished + t.keyExchangesRejected ∧
      t.keyExchangesEstablished =
        countCalls perform begunBy f ops + countCalls perform abandonedBy f ops := by
  induction ops generalizing f with
  | nil => exact ⟨rfl, rfl⟩
  | cons op ops ih =>
    obtain ⟨hall, hestablished⟩ := f.tally_reportedBy op
    obtain ⟨hlater, hlaterEstablished⟩ := ih (f.perform op)
    intro t
    have ht : t = Tally.of (f.reportedBy op) +
        Tally.of (reportAll perform reportedBy (f.perform op) ops) := Tally.of_append _ _
    rw [ht]
    constructor
    · show _ + _ = _ + _ + (_ + _)
      omega
    · show _ + _ = _ + _ + (_ + _)
      omega

/-- The counter of key exchanges grows by those that are established and those that are rejected.
Those that are established are the sessions that begin, and the sessions that were agreed on with a
request that could not be encoded. -/
theorem run_counts_sessions (f : Framer) (ops : List Operation) (m : Metrics) :
    let m' := m.recordAll (reportAll perform reportedBy f ops)
    let established := countCalls perform begunBy f ops + countCalls perform abandonedBy f ops
    ∃ rejected,
      m'.keyExchanges = m.keyExchanges + UInt64.ofNat (established + rejected) ∧
      m'.keyExchangesEstablished = m.keyExchangesEstablished + UInt64.ofNat established ∧
      m'.keyExchangesRejected = m.keyExchangesRejected + UInt64.ofNat rejected := by
  intro m' established
  obtain ⟨hall, hestablished⟩ := f.tally_reportAll ops
  have hgrows := m.grows_recordAll (reportAll perform reportedBy f ops)
  have hcounted : established =
      (Tally.of (reportAll perform reportedBy f ops)).keyExchangesEstablished := hestablished.symm
  refine ⟨_, ?_, ?_, hgrows.keyExchangesRejected⟩
  · rw [hcounted, ← hall]
    exact hgrows.keyExchanges
  · rw [hcounted]
    exact hgrows.keyExchangesEstablished

/-- A whole request is longer than some limits. -/
theorem encodeFrame_request_of_limit_lt {c : Codec} {m : Model} {request : EncryptionRequest}
    (hp : m.packet = .encryptionRequest request)
    (hlimit : c.settings.maxFrameSize < headerLength + KeyBlock.blockLength) :
    ∃ e, c.encodeFrame m = .error e := by
  cases hf : c.encodeFrame m with
  | error e => exact ⟨e, rfl⟩
  | ok frame =>
    have hcarries := (Codec.carries_of_encodeFrame hf).2
    rw [hp] at hcarries
    cases hcarries with
    | known _ _ _ hbody hframe hle =>
      have hlength := FrameHeader.length_frame hframe
      have hblock := KeyBlock.length_encode hbody
      omega

/-- A request that cannot be encoded begins no session, although one was agreed on. -/
theorem abandons_of_error {f : Framer} {entropy : Entropy} {m : Model}
    {request closed : EncryptionRequest} {pub : Rsa.PublicKey} {s : Session} {e : ProtocolError}
    (hs : f.session? = none) (hp : m.packet = .encryptionRequest request)
    (hk : f.keys.encryptKey? = some pub)
    (hc : f.keys.closeRequest pub entropy request = .ok (closed, s))
    (he : f.codec.encodeFrame { m with packet := .encryptionRequest closed } = .error e) :
    f.abandons entropy m = true ∧ (f.encode entropy m).state.session? = f.session? := by
  have hr : (f.codec.encodeRaw { m with packet := .encryptionRequest closed }).result =
      .error e := he
  unfold abandons encode
  rw [hs, hp]
  simp only [ExchangeKeys.sealRequest_of_some hk, hc, Except.map, hr, and_self]

theorem run_counts_sessions_overLimit :
    let f := ofCodec (.ofSettings { dialect := .classic, maxFrameSize := 128 })
      { encryptKey? := some Rsa.mersennePublic }
    let request : Model :=
      { dialect := .classic, packet := .encryptionRequest { rsaData := [1, 2, 3] } }
    let ops : List Operation := [.encode (fun _ => 5) request]
    let m' := Metrics.recordAll {} (reportAll perform reportedBy f ops)
    m'.keyExchangesEstablished = 1 ∧ countCalls perform begunBy f ops = 0 := by
  intro f request ops m'
  obtain ⟨s, hestablish⟩ := @Session.exists_establish [1, 2, 3] default (by decide)
  obtain ⟨ciphertext, hconceal, -⟩ :=
    @Rsa.exists_conceal Rsa.mersennePublic [1, 2, 3] (by decide +kernel) (fun _ => 5)
  have hclose : f.keys.closeRequest Rsa.mersennePublic (fun _ => 5) { rsaData := [1, 2, 3] } =
      .ok ({ rsaData := ciphertext }, s) :=
    ExchangeKeys.closeRequest_eq_ok.2 ⟨ciphertext, hestablish, hconceal, rfl⟩
  obtain ⟨e, he⟩ := @encodeFrame_request_of_limit_lt f.codec
    { request with packet := .encryptionRequest { rsaData := ciphertext } } _ rfl (by decide)
  obtain ⟨habandons, hsame⟩ :=
    @abandons_of_error f (fun _ => 5) request _ _ _ s e rfl rfl rfl hclose he
  have hbegun : countCalls perform begunBy f ops = 0 := by
    show (f.begins (f.encode (fun _ => 5) request).state).toNat + 0 = 0
    rw [begins_of_session_eq hsame]
    rfl
  have habandoned : countCalls perform abandonedBy f ops = 1 := by
    show (f.abandons (fun _ => 5) request).toNat + 0 = 1
    rw [habandons]
    rfl
  obtain ⟨-, hestablished⟩ := f.tally_reportAll ops
  have hgrows := Metrics.grows_recordAll {} (reportAll perform reportedBy f ops)
  refine ⟨?_, hbegun⟩
  rw [hgrows.keyExchangesEstablished, hestablished, hbegun, habandoned]
  rfl

end Framer

end GameWire
