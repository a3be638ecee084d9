import GameWire.Proofs.Transport.Lane

/-!
# Two peers

A client with a public key and a server with the private key are joined by two lanes.  What the
client sends is never disturbed, whatever both sides do and however the bytes travel.  What the
server sends is not either, unless the client overtakes it: a client that has encoded its request
reads envelopes, also where packets still come that the server sent in plain sight.
-/

namespace GameWire

open Framer

/-- Two framers and the lanes between them. -/
structure Peers where
  client : Framer
  server : Framer
  up : Lane := {}
  down : Lane := {}

namespace Peers

inductive Side where
  | client
  | server

inductive Action where
  | encode (side : Side) (entropy : Entropy) (m : Model)
  | arrive (side : Side) (count : Nat)
  | ask (side : Side)

def step (p : Peers) : Action → Peers
  | .encode .client entropy m =>
    { p with client := (p.client.encode entropy m).state, up := p.up.send p.client entropy m }
  | .encode .server entropy m =>
    { p with server := (p.server.encode entropy m).state, down := p.down.send p.server entropy m }
  | .arrive .client count => { p with down := p.down.arrive count }
  | .arrive .server count => { p with up := p.up.arrive count }
  | .ask .client =>
    { p with client := (p.client.next p.down.buffer).state.1, down := p.down.ask p.client }
  | .ask .server =>
    { p with server := (p.server.next p.up.buffer).state.1, up := p.up.ask p.server }

def run (p : Peers) : List Action → Peers
  | [] => p
  | a :: actions => (p.step a).run actions

/-- An honest side sends what its codec restores, and the server sends no request. -/
def Action.Honest (codec : Codec) : Action → Prop
  | .encode .client _ m => codec.Restores m
  | .encode .server _ m => codec.Restores m ∧ secretOf? m = none
  | .arrive _ _ | .ask _ => True

/-- The client takes bytes for an envelope that are none: it has a session, a packet that the server
sent before it had one is still to be received, and the client judges what is in its buffer. -/
def Overtakes (p : Peers) : Action → Prop
  | .ask .client =>
    p.client.isEncrypted = true ∧ p.down.received.length < p.down.clear ∧
      p.client.judge p.down.buffer ≠ none
  | _ => False

def NeverOvertakes : Peers → List Action → Prop
  | _, [] => True
  | p, a :: actions => ¬ p.Overtakes a ∧ (p.step a).NeverOvertakes actions

/-! ## Invariants -/

/-- The server expects what the client has sent, and will be in step with it then. -/
def Upward (p : Peers) : Prop :=
  ∃ script last, p.up.Carries script ∧ Expects p.server script last ∧ InStep p.client last

/-- What is on its way to the client: at first what was sent before the server had a session, if the
client has one already, and then what the client expects. -/
structure Downward (p : Peers) (stale script : List (Model × Bytes)) (last : Framer) : Prop where
  carries : p.down.Carries (stale ++ script)
  expects : Expects p.client script last
  /-- No session begins with it. -/
  alike : p.client.Alike last
  stale : stale ≠ [] → p.client.isEncrypted = true ∧ p.down.received.length < p.down.clear
  clear : p.server.session? = none → p.down.clear = (arriving p.down.sent).length
  /-- While the client is ahead, nothing is sent that it expects. -/
  ahead : p.server.session? ≠ p.client.session? → script = []

/-- What holds of peers, and of the lane to the client as long as nothing was overtaken. -/
structure Holds (codec : Codec) (p : Peers) (clean : Prop) : Prop where
  dialect : p.client.codec.dialect = codec.dialect
  settings : p.client.codec.settings = codec.settings
  paired : Paired p.client p.server
  upward : p.Upward
  downward : clean ∨ p.client.session? = none → ∃ stale script last, p.Downward stale script last

variable {p : Peers}

/-- The server has no session that the client does not have. -/
theorem Upward.session_of_some (h : p.Upward) {s : Session} (hs : p.server.session? = some s) :
    p.client.session? = some s := by
  obtain ⟨script, last, -, hx, hin⟩ := h
  rw [← hin.session]
  exact hx.session_of_some hs

theorem Upward.builtIn (h : p.Upward) {s : Session} (hs : p.server.session? = some s) :
    s.BuiltIn := by
  have hclient := h.session_of_some hs
  obtain ⟨script, last, -, -, hin⟩ := h
  exact hin.builtIn s hclient

theorem Upward.lawful (h : p.Upward) : p.client.Lawful := by
  obtain ⟨script, last, -, -, hin⟩ := h
  exact hin.lawful_sender

/-! ## The client encodes -/

theorem Upward.encode_client (h : p.Upward) {entropy : Entropy} {m : Model}
    (hm : p.client.codec.Restores m) : (p.step (.encode .client entropy m)).Upward := by
  obtain ⟨script, last, hc, hx, hin⟩ := h
  cases hr : (p.client.encode entropy m).result with
  | error e =>
    refine ⟨script, last, ?_, hx, (encode_failed hin hr).2⟩
    show (p.up.send p.client entropy m).Carries script
    rw [Lane.send_of_error hr]
    exact hc
  | ok bs =>
    obtain ⟨last', htaken, hin', -⟩ := exists_sent hin hm hr
    rcases htaken with ⟨hempty, rfl, rfl⟩ | ⟨hne, hbs, htakes⟩
    · exact ⟨script, last', hc.send_empty hr hempty, hx, hin'⟩
    · exact ⟨script ++ [(m, bs)], last', hc.send hr hne, hx.append hbs htakes, hin'⟩

section Steps

variable {stale script : List (Model × Bytes)} {last : Framer}

/-- When the client begins a session, all that is on its way to it becomes stale. -/
theorem Downward.encode_client (h : p.Downward stale script last) (hp : Paired p.client p.server)
    (entropy : Entropy) (m : Model) :
    ∃ stale script last, (p.step (.encode .client entropy m)).Downward stale script last := by
  by_cases hsame : (p.client.encode entropy m).state.session? = p.client.session?
  · obtain ⟨error, he⟩ := encode_state hsame
    have hclient := (encode_follows p.client entropy m).alike hsame
    obtain ⟨last', hx, hlast⟩ := h.expects.withError hp.isFramed error
    rw [← he] at hx
    exact ⟨stale, script, last', h.carries, hx, hclient.symm.trans (h.alike.trans hlast),
      fun hs => ⟨hclient.isEncrypted.trans (h.stale hs).1, (h.stale hs).2⟩, h.clear,
      fun hs => h.ahead fun hserver => hs (hserver.trans hsame.symm)⟩
  · rcases encode_session p.client entropy m with heq | ⟨hnone, -⟩
    · exact absurd heq hsame
    -- The client begins a session, so that all that is under way to it becomes stale.
    · obtain rfl : stale = [] := by
        by_contra hs
        have hsome := (h.stale hs).1
        rw [isEncrypted_of_none hnone] at hsome
        cases hsome
      refine ⟨script, [], (p.client.encode entropy m).state, ?_, .nothing _, .refl _, ?_, h.clear,
        fun _ => rfl⟩
      · rw [List.append_nil]
        exact h.carries
      · intro hscript
        constructor
        · rw [hnone] at hsame
          exact isEncrypted_of_ne_none hsame
        · -- The server has no session either, so all of this was sent in plain sight.
          have hserver : p.server.session? = none := by
            by_contra hs
            exact hscript (h.ahead (by rw [hnone]; exact hs))
          exact h.carries.received_lt (h.clear hserver) hscript

/-! ## The server encodes -/

theorem Upward.encode_server (h : p.Upward) (hp : Paired p.client p.server) (entropy : Entropy)
    {m : Model} (hm : secretOf? m = none) : (p.step (.encode .server entropy m)).Upward := by
  obtain ⟨script, last, hc, hx, hin⟩ := h
  obtain ⟨error, he⟩ := encodeSealed_state p.server entropy m
  obtain ⟨last', hx', hlast⟩ := hx.withError hp.isRaw error
  rw [← he, ← encode_eq_encodeSealed entropy fun _ => hm] at hx'
  exact ⟨script, last', hc, hx', hin.alike (.refl _) hlast⟩

/-- What is on its way after the server has encoded a model. -/
theorem Downward.encoded_server (h : p.Downward stale script last) {entropy : Entropy} {m : Model}
    (hserver : p.server.Alike (p.server.encode entropy m).state)
    {stale' script' : List (Model × Bytes)} {last' : Framer}
    (hcarries : (p.down.send p.server entropy m).Carries (stale' ++ script'))
    (hexpects : Expects p.client script' last') (halike : p.client.Alike last')
    (hstale : stale' ≠ [] →
      p.client.isEncrypted = true ∧ (p.server.session? = none ∨ stale ≠ []))
    (hahead : p.server.session? ≠ p.client.session? → script' = []) :
    (p.step (.encode .server entropy m)).Downward stale' script' last' where
  carries := hcarries
  expects := hexpects
  alike := halike
  stale hs := by
    refine ⟨(hstale hs).1, ?_⟩
    show (p.down.send p.server entropy m).received.length < (p.down.send p.server entropy m).clear
    cases hserved : p.server.session? with
    | none =>
      have hclear := Lane.clear_send (isEncrypted_of_none hserved) (h.clear hserved) entropy m
      exact hcarries.received_lt hclear (List.append_ne_nil_of_left_ne_nil hs script')
    | some s =>
      have hne : p.server.session? ≠ none := by rw [hserved]; exact Option.some_ne_none s
      rw [Lane.received_send, Lane.clear_send_of_isEncrypted (isEncrypted_of_ne_none hne)]
      rcases (hstale hs).2 with hn | hold
      · exact absurd hn hne
      · exact (h.stale hold).2
  clear hs := by
    have hnone := hserver.session.symm.trans hs
    exact Lane.clear_send (isEncrypted_of_none hnone) (h.clear hnone) entropy m
  ahead hne := hahead fun heq => hne (hserver.session.trans heq)

/-- Without a session of its own, the server sends in plain sight, also when the client has one. -/
theorem Downward.encode_server (h : p.Downward stale script last) (hp : Paired p.client p.server)
    (hup : p.Upward) (entropy : Entropy) {m : Model} (hm : p.server.codec.Restores m)
    (hsecret : secretOf? m = none) :
    ∃ stale script last, (p.step (.encode .server entropy m)).Downward stale script last := by
  have he := encode_eq_encodeSealed (f := p.server) entropy fun _ => hsecret
  have hserver : p.server.Alike (p.server.encode entropy m).state := by
    rw [he]
    exact alike_encodeSealed p.server entropy m
  have hbuiltIn : ∀ s, p.server.session? = some s → s.BuiltIn := fun _ => hup.builtIn
  have hlimit : p.server.codec.settings.maxFrameSize + mostOverhead < 2 ^ 64 := by
    rw [hp.settings]
    exact hp.limit
  have hold (hs : stale ≠ []) :
      p.client.isEncrypted = true ∧ (p.server.session? = none ∨ stale ≠ []) :=
    ⟨(h.stale hs).1, .inr hs⟩
  cases hr : (p.server.encode entropy m).result with
  | error e =>
    have hcarries : (p.down.send p.server entropy m).Carries (stale ++ script) := by
      rw [Lane.send_of_error hr]
      exact h.carries
    exact ⟨stale, script, last, h.encoded_server hserver hcarries h.expects h.alike hold h.ahead⟩
  | ok bs =>
    have hself : Aligned p.server p.server := ⟨hp.isRaw, rfl, rfl, hlimit, rfl, hbuiltIn⟩
    rcases hself.taken (fun _ => hsecret) hm (he ▸ hr) with ⟨hempty, rfl⟩ | ⟨hne, hbs, -⟩
    · exact ⟨stale, script, last, h.encoded_server hserver (h.carries.send_empty hr hempty)
        h.expects h.alike hold h.ahead⟩
    · have hcarries := h.carries.send hr hne
      rw [List.append_assoc] at hcarries
      -- In one session with the client, the packet is what the client expects next.
      by_cases hsame : p.server.session? = p.client.session?
      · have haligned : Aligned p.server last :=
          ⟨hp.isRaw, h.alike.dialect.trans hp.dialect.symm,
            h.alike.settings.trans hp.settings.symm, hlimit, h.alike.session.trans hsame.symm,
            hbuiltIn⟩
        rcases haligned.taken (fun _ => hsecret) hm (he ▸ hr) with
          ⟨hempty, -⟩ | ⟨-, -, frame, htakes⟩
        · exact absurd hempty hne
        · exact ⟨stale, script ++ [(m, bs)], last.decoded frame,
            h.encoded_server hserver hcarries (h.expects.append hbs htakes)
              (h.alike.trans (alike_decoded last frame)) hold fun hd => absurd hsame hd⟩
      · -- The client does not expect this in its session.
        obtain rfl := h.ahead hsame
        have hnone : p.server.session? = none := by
          cases hs : p.server.session? with
          | none => rfl
          | some s => exact absurd (hs.trans (hup.session_of_some hs).symm) hsame
        have hclient : p.client.isEncrypted = true := by
          rw [hnone] at hsame
          exact isEncrypted_of_ne_none (Ne.symm hsame)
        rw [List.nil_append, ← List.append_nil (stale ++ [(m, bs)])] at hcarries
        exact ⟨stale ++ [(m, bs)], [], last, h.encoded_server hserver hcarries h.expects h.alike
          (fun _ => ⟨hclient, .inl hnone⟩) fun _ => rfl⟩

/-! ## Bytes arrive -/

theorem Upward.arrive (h : p.Upward) (side : Side) (count : Nat) :
    (p.step (.arrive side count)).Upward := by
  obtain ⟨script, last, hc, hx, hin⟩ := h
  cases side with
  | client => exact ⟨script, last, hc, hx, hin⟩
  | server => exact ⟨script, last, hc.arrive count, hx, hin⟩

theorem Downward.arrive (h : p.Downward stale script last) (side : Side) (count : Nat) :
    (p.step (.arrive side count)).Downward stale script last := by
  cases side with
  | client => exact ⟨h.carries.arrive count, h.expects, h.alike, h.stale, h.clear, h.ahead⟩
  | server => exact ⟨h.carries, h.expects, h.alike, h.stale, h.clear, h.ahead⟩

/-! ## A side asks -/

theorem Upward.ask_server (h : p.Upward) (hp : Paired p.client p.server) :
    (p.step (.ask .server)).Upward := by
  obtain ⟨suite, -, hsuite⟩ := hp.suite
  have hlaw : p.server.Lawful := BuiltIn.lawful ⟨⟨suite, hsuite⟩, fun _ => h.builtIn⟩
  obtain ⟨script, last, hc, hx, hin⟩ := h
  obtain ⟨rest, hrest, hx', -⟩ := hc.ask hx hp.isRaw hlaw
  exact ⟨rest, last, hrest, hx', hin⟩

/-- A session that the server begins is the one that the client has. -/
theorem Downward.ask_server (h : p.Downward stale script last)
    (hup : (p.step (.ask .server)).Upward) :
    (p.step (.ask .server)).Downward stale script last where
  carries := h.carries
  expects := h.expects
  alike := h.alike
  stale := h.stale
  clear hs := by
    rcases next_session p.server p.up.buffer with hsame | ⟨hnone, -⟩
    · exact h.clear (hsame.symm.trans hs)
    · exact h.clear hnone
  ahead hne := by
    rcases next_session p.server p.up.buffer with hsame | ⟨hnone, -⟩
    · exact h.ahead fun heq => hne (hsame.trans heq)
    · cases hs : (p.server.next p.up.buffer).state.1.session? with
      | none => exact h.ahead fun heq => hne (hs.trans (hnone.symm.trans heq))
      | some s => exact absurd (hs.trans (hup.session_of_some hs).symm) hne

theorem Upward.ask_client (h : p.Upward)
    (hclient : p.client.Alike (p.client.next p.down.buffer).state.1) :
    (p.step (.ask .client)).Upward := by
  obtain ⟨script, last, hc, hx, hin⟩ := h
  exact ⟨script, last, hc, hx, hin.alike hclient (.refl last)⟩

theorem Downward.ask_client (h : p.Downward stale script last) (hp : Paired p.client p.server)
    (hup : p.Upward) (hno : ¬ p.Overtakes (.ask .client)) :
    p.client.Alike (p.client.next p.down.buffer).state.1 ∧
      ∃ stale script last, (p.step (.ask .client)).Downward stale script last := by
  by_cases hs : stale = []
  · rw [hs] at h
    obtain ⟨rest, hrest, hx, hsuffix⟩ := Lane.Carries.ask h.carries h.expects hp.isFramed hup.lawful
    have hclient := hx.alike_next h.alike.session
    refine ⟨hclient, [], rest, last, hrest, hx, hclient.symm.trans h.alike, fun hn => absurd rfl hn,
      h.clear, fun hne => ?_⟩
    have hnil := h.ahead fun heq => hne (heq.trans hclient.session.symm)
    rw [hnil] at hsuffix
    exact List.suffix_nil.1 hsuffix
  · -- What comes next is stale, so there is no answer.
    have hj : p.client.judge p.down.buffer = none := by
      by_contra hj
      exact hno ⟨(h.stale hs).1, (h.stale hs).2, hj⟩
    have hn : p.client.next p.down.buffer =
        { result := .ok none, state := (p.client, p.down.buffer) } := by
      rw [next_eq_judge hp.isFramed, hj]
    have hsame : (p.client.next p.down.buffer).state.1 = p.client := by rw [hn]
    have hclient : p.client.Alike (p.client.next p.down.buffer).state.1 := by
      rw [hsame]
      exact .refl p.client
    have hresult : (p.client.next p.down.buffer).result = .ok none := by rw [hn]
    have hexpects : Expects (p.client.next p.down.buffer).state.1 script last := by
      rw [hsame]
      exact h.expects
    refine ⟨hclient, stale, script, last, h.carries.ask_none hresult (by rw [hn]), hexpects,
      hclient.symm.trans h.alike, fun hs => ⟨hclient.isEncrypted.trans (h.stale hs).1, ?_⟩, h.clear,
      fun hne => h.ahead fun heq => hne (heq.trans hclient.session.symm)⟩
    show (p.down.ask p.client).received.length < p.down.clear
    rw [Lane.received_ask_none hresult]
    exact (h.stale hs).2

end Steps

/-! ## Any interleaving -/

theorem step_follows (p : Peers) (a : Action) :
    p.client.Follows (p.step a).client ∧ p.server.Follows (p.step a).server := by
  cases a with
  | encode side entropy m =>
    cases side with
    | client => exact ⟨encode_follows p.client entropy m, .refl _⟩
    | server => exact ⟨.refl _, encode_follows p.server entropy m⟩
  | arrive side count => cases side <;> exact ⟨.refl _, .refl _⟩
  | ask side =>
    cases side with
    | client => exact ⟨follows_next p.client p.down.buffer, .refl _⟩
    | server => exact ⟨.refl _, follows_next p.server p.up.buffer⟩

/-- The client never gives up a session. -/
theorem session_of_step_none (a : Action) (h : (p.step a).client.session? = none) :
    p.client.session? = none := by
  have hbefore {s? : Option Session} {q : Prop} (hs : s? = none)
      (hstep : s? = p.client.session? ∨ p.client.session? = none ∧ q) :
      p.client.session? = none :=
    hstep.elim (fun hsame => hsame.symm.trans hs) And.left
  cases a with
  | encode side entropy m =>
    cases side with
    | client => exact hbefore h (encode_session p.client entropy m)
    | server => exact h
  | arrive side count => cases side <;> exact h
  | ask side =>
    cases side with
    | client => exact hbefore h (next_session p.client p.down.buffer)
    | server => exact h

theorem not_overtakes_of_none (h : p.client.session? = none) (a : Action) : ¬ p.Overtakes a := by
  cases a with
  | ask side =>
    cases side with
    | client =>
      intro ho
      have hsome := ho.1
      rw [isEncrypted_of_none h] at hsome
      cases hsome
    | server => exact id
  | _ => exact id

theorem holds_start {client server : Framer} (hp : Paired client server)
    (hc : client.session? = none) (hs : server.session? = none) :
    Holds client.codec { client, server } True where
  dialect := rfl
  settings := rfl
  paired := hp
  upward := ⟨[], server, Lane.carries_nil, .nothing server, hp.inStep hc hs⟩
  downward _ := ⟨[], [], client, Lane.carries_nil, .nothing client, .refl client,
    fun hn => absurd rfl hn, fun _ => rfl, fun _ => rfl⟩

theorem Holds.upward_step {codec : Codec} {clean : Prop} (h : p.Holds codec clean) {a : Action}
    (ha : a.Honest codec) : (p.step a).Upward := by
  cases a with
  | encode side entropy m =>
    cases side with
    | client => exact h.upward.encode_client (Codec.restores_congr h.dialect h.settings ha)
    | server => exact h.upward.encode_server h.paired entropy ha.2
  | arrive side count => exact h.upward.arrive side count
  | ask side =>
    cases side with
    | client =>
      apply h.upward.ask_client
      rcases next_session p.client p.down.buffer with hsame | ⟨hnone, -⟩
      · exact (follows_next p.client p.down.buffer).alike hsame
      · -- Whatever is on its way now does not begin a session.
        obtain ⟨stale, script, last, hdown⟩ := h.downward (.inr hnone)
        exact (hdown.ask_client h.paired h.upward (not_overtakes_of_none hnone _)).1
    | server => exact h.upward.ask_server h.paired

theorem Holds.downward_step {codec : Codec} {clean : Prop} (h : p.Holds codec clean) {a : Action}
    (ha : a.Honest codec) (hclean : clean ∨ p.client.session? = none) (hno : ¬ p.Overtakes a) :
    ∃ stale script last, (p.step a).Downward stale script last := by
  obtain ⟨stale, script, last, hdown⟩ := h.downward hclean
  cases a with
  | encode side entropy m =>
    cases side with
    | client => exact hdown.encode_client h.paired entropy m
    | server =>
      have hm := Codec.restores_congr h.dialect h.settings ha.1
      exact hdown.encode_server h.paired h.upward entropy
        (Codec.restores_congr h.paired.dialect h.paired.settings hm) ha.2
  | arrive side count => exact ⟨stale, script, last, hdown.arrive side count⟩
  | ask side =>
    cases side with
    | client => exact (hdown.ask_client h.paired h.upward hno).2
    | server => exact ⟨stale, script, last, hdown.ask_server (h.upward.ask_server h.paired)⟩

theorem Holds.step {codec : Codec} {clean : Prop} (h : p.Holds codec clean) {a : Action}
    (ha : a.Honest codec) : (p.step a).Holds codec (clean ∧ ¬ p.Overtakes a) := by
  obtain ⟨hclient, hserver⟩ := p.step_follows a
  refine ⟨hclient.dialect.trans h.dialect, hclient.settings.trans h.settings,
    h.paired.follows hclient hserver, h.upward_step ha, ?_⟩
  rintro (⟨hclean, hno⟩ | hnone)
  · exact h.downward_step ha (.inl hclean) hno
  · have hbefore := session_of_step_none a hnone
    exact h.downward_step ha (.inr hbefore) (not_overtakes_of_none hbefore a)

theorem Holds.run {codec : Codec} {clean : Prop} (h : p.Holds codec clean) {actions : List Action}
    (ha : ∀ a ∈ actions, a.Honest codec) :
    (p.run actions).Holds codec (clean ∧ p.NeverOvertakes actions) := by
  induction actions generalizing p clean with
  | nil =>
    show p.Holds codec (clean ∧ True)
    rwa [and_true]
  | cons a actions ih =>
    have hrest := ih (h.step (ha a List.mem_cons_self)) fun b hb => ha b (List.mem_cons_of_mem a hb)
    rw [and_assoc] at hrest
    exact hrest

/-- Whatever honest peers do and however the bytes travel, what the client sends arrives in order
and no call of the server fails.  The same holds the other way, if the client never overtakes what
the server sent in plain sight. -/
theorem run_faithful {client server : Framer} (hp : Paired client server)
    (hc : client.session? = none) (hs : server.session? = none) {actions : List Action}
    (ha : ∀ a ∈ actions, a.Honest client.codec) :
    let p := run { client, server } actions
    p.up.Faithful ∧ (NeverOvertakes { client, server } actions → p.down.Faithful) := by
  have h := (holds_start hp hc hs).run ha
  constructor
  · obtain ⟨script, last, hcarries, -⟩ := h.upward
    exact hcarries.faithful
  · intro hnever
    obtain ⟨stale, script, last, hdown⟩ := h.downward (.inl ⟨trivial, hnever⟩)
    exact hdown.carries.faithful

/-! ## A packet overtaken -/

/-- A client with a public key, and a server with the private key. -/
def mersennePeers : Peers where
  client := { codec := .ofDialect .classic, keys := { encryptKey? := some Rsa.mersennePublic } }
  server := { codec := .ofDialect .classic, keys := { decryptKey? := some Rsa.mersennePrivate } }

def serverPing : Model := { dialect := .classic, packet := .serverPing }

def firstRequest : Model :=
  { dialect := .classic, packet := .encryptionRequest { rsaData := [1, 2, 3] } }

theorem paired_mersennePeers : Paired mersennePeers.client mersennePeers.server :=
  ⟨rfl, rfl, rfl, by decide, ⟨_, _, rfl, rfl, Rsa.matching_mersenne⟩, ⟨default, rfl, rfl⟩⟩

theorem honest_serverPing (entropy : Entropy) :
    (Action.encode .server entropy serverPing).Honest mersennePeers.client.codec :=
  ⟨Codec.Distinguishes.restores (.framed rfl fun u hu => by cases hu), rfl⟩

theorem honest_firstRequest (entropy : Entropy) :
    (Action.encode .client entropy firstRequest).Honest mersennePeers.client.codec :=
  Codec.Distinguishes.restores (.framed rfl fun u hu => by cases hu)

theorem run_faithful_pingFirst :
    let actions : List Action :=
      [.encode .server (fun _ => 5) serverPing, .arrive .client 8, .ask .client,
        .encode .client (fun _ => 6) firstRequest, .ask .client]
    Paired mersennePeers.client mersennePeers.server ∧
      (∀ a ∈ actions, a.Honest mersennePeers.client.codec) ∧
      mersennePeers.NeverOvertakes actions ∧ (mersennePeers.run actions).up.Faithful ∧
      (mersennePeers.run actions).down.Faithful ∧
      (mersennePeers.run actions).down.received = [serverPing] := by
  intro actions
  have ha : ∀ a ∈ actions, a.Honest mersennePeers.client.codec :=
    List.forall_mem_cons.2 ⟨honest_serverPing _, List.forall_mem_cons.2 ⟨trivial,
      List.forall_mem_cons.2 ⟨trivial, List.forall_mem_cons.2 ⟨honest_firstRequest _,
        List.forall_mem_singleton.2 trivial⟩⟩⟩⟩
  -- Before its request the client has no session, and after it nothing is left in its buffer.
  have hnever : mersennePeers.NeverOvertakes actions :=
    ⟨id, ⟨id, ⟨fun h => Bool.false_ne_true h.1, ⟨id, ⟨fun h => h.2.2 rfl, trivial⟩⟩⟩⟩⟩
  have h := run_faithful paired_mersennePeers rfl rfl ha
  exact ⟨paired_mersennePeers, ha, hnever, h.1, h.2 hnever, rfl⟩

/-- A client with a session refuses a short frame in plain sight. -/
theorem next_clear {f : Framer} (hraw : f.dialect.isRaw = false) {secret key : Bytes}
    (hs : f.session? = some { secret, cipher := XChaCha.cipher key }) {buffer : Bytes} {n : Nat}
    (hn : frameLength? buffer = some n) (hshort : n < XChaCha.overhead) :
    (f.next buffer).result = .error (.decode (.belowHeader n)) := by
  have hne : ¬ buffer.isEmpty = true := by
    intro he
    rw [List.isEmpty_iff.1 he] at hn
    cases hn
  have hd : (XChaCha.cipher key).sealedLength? buffer = some n := hn
  have hj : f.judge buffer = some (.error (.decode (.belowHeader n))) := by
    unfold judge outlook
    rw [if_neg hne]
    simp only [hs, hd]
    exact if_pos hshort
  rw [next_eq_judge hraw, hj]

theorem session_firstRequest (entropy : Entropy) :
    (mersennePeers.client.encode entropy firstRequest).state.session? =
      some { secret := [1, 2, 3], cipher := XChaCha.cipher (deriveKey [1, 2, 3]) } := by
  obtain ⟨s, hestablish, hsession⟩ := @exists_session_request mersennePeers.client default
    Rsa.mersennePublic [1, 2, 3] rfl rfl rfl rfl (by decide) (by decide +kernel)
    (by decide +kernel) (by decide) entropy
  have hrequest : firstRequest = { dialect := mersennePeers.client.dialect
                                   packet := .encryptionRequest { rsaData := [1, 2, 3] } } := rfl
  cases hestablish
  rw [hrequest]
  exact hsession

theorem answers_overtaken (p : Peers) (entropy entropy' : Entropy) (m m' : Model) (count : Nat) :
    (p.run [.encode .client entropy m, .encode .server entropy' m', .arrive .client count,
        .ask .client]).down.answers =
      (p.down.send p.server entropy' m').answers ++ [((p.client.encode entropy m).state.next
        ((p.down.send p.server entropy' m').arrive count).buffer).result] :=
  rfl

-- What the server sent before it had the request is no envelope.
theorem not_faithful_requestFirst :
    let actions : List Action :=
      [.encode .client (fun _ => 5) firstRequest, .encode .server (fun _ => 6) serverPing,
        .arrive .client 8, .ask .client]
    Paired mersennePeers.client mersennePeers.server ∧
      (∀ a ∈ actions, a.Honest mersennePeers.client.codec) ∧
      (mersennePeers.run actions).down.answers = [.error (.decode (.belowHeader 8))] ∧
      ¬ (mersennePeers.run actions).down.Faithful := by
  intro actions
  have ha : ∀ a ∈ actions, a.Honest mersennePeers.client.codec :=
    List.forall_mem_cons.2 ⟨honest_firstRequest _, List.forall_mem_cons.2 ⟨honest_serverPing _,
      List.forall_mem_cons.2 ⟨trivial, List.forall_mem_singleton.2 trivial⟩⟩⟩
  have hanswers : (mersennePeers.run actions).down.answers =
      [.error (.decode (.belowHeader 8))] := by
    have hframed : (mersennePeers.client.encode (fun _ => 5) firstRequest).state.dialect.isRaw =
        false := (encode_follows mersennePeers.client (fun _ => 5) firstRequest).isRaw rfl
    have hlength : frameLength? [8, 0, 0, 0, 3, 11, 0, 0] = some 8 := rfl
    have hrefused := next_clear hframed (session_firstRequest fun _ => 5) hlength (by decide)
    have hbuffer : ((mersennePeers.down.send mersennePeers.server (fun _ => 6)
        serverPing).arrive 8).buffer = [8, 0, 0, 0, 3, 11, 0, 0] := rfl
    rw [answers_overtaken, hbuffer, hrefused]
    rfl
  refine ⟨paired_mersennePeers, ha, hanswers, fun h => ?_⟩
  obtain ⟨m?, hm⟩ := h.answers _ (by rw [hanswers]; exact List.mem_singleton_self _)
  cases hm

end Peers

end GameWire
