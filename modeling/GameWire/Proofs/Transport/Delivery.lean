import GameWire.Proofs.Transport.Exchange

/-!
# Delivery from end to end

A sender encodes models one after the other, and a receiver asks for packets while the bytes come
in. The receiver always expects what was sent and has not been delivered yet: this is `Expects`.
So the models arrive once, in order and unchanged, however the stream is cut and whenever the
receiver asks.
-/

namespace GameWire.Framer

/-! ## Sending many models -/

/-- Models are encoded one after the other.  Gives those that could be encoded with their bytes,
and the framer afterwards. -/
def encodeAll (f : Framer) : List (Entropy × Model) → List (Model × Bytes) × Framer
  | [] => ([], f)
  | (entropy, m) :: inputs =>
    let encoded := f.encode entropy m
    let (sent, last) := encoded.state.encodeAll inputs
    match encoded.result with
    | .ok bs => ((m, bs) :: sent, last)
    | .error _ => (sent, last)

theorem encodeAll_of_error {f : Framer} {entropy : Entropy} {m : Model} {e : ProtocolError}
    (h : (f.encode entropy m).result = .error e) (inputs : List (Entropy × Model)) :
    f.encodeAll ((entropy, m) :: inputs) = (f.encode entropy m).state.encodeAll inputs := by
  rw [encodeAll]
  simp only [h]

theorem encodeAll_of_ok {f : Framer} {entropy : Entropy} {m : Model} {bs : Bytes}
    (h : (f.encode entropy m).result = .ok bs) (inputs : List (Entropy × Model)) :
    f.encodeAll ((entropy, m) :: inputs) =
      ((m, bs) :: ((f.encode entropy m).state.encodeAll inputs).1,
        ((f.encode entropy m).state.encodeAll inputs).2) := by
  rw [encodeAll]
  simp only [h]

/-- The bytes of encoded models, one behind the other. -/
def stream (sent : List (Model × Bytes)) : Bytes :=
  (sent.map (·.2)).flatten

/-- The models that arrive when all of these are sent: the empty packet is not among them. -/
def arriving (sent : List (Model × Bytes)) : List Model :=
  (sent.map (·.1)).filter fun m => m.packet ≠ .empty

/-! ## Receiving over time -/

/-- What happens at the receiving end. -/
inductive Event where
  /-- Bytes come in and are put behind those in the buffer. -/
  | bytes (chunk : Bytes)
  /-- The next packet is asked for. -/
  | ask

def incoming : List Event → Bytes
  | [] => []
  | .bytes chunk :: events => chunk ++ incoming events
  | .ask :: events => incoming events

/-- What came of some events: the answers that were given, the framer and the buffer. -/
structure Attended where
  answers : List (Except ProtocolError (Option Model))
  framer : Framer
  buffer : Bytes

/-- A receiver attends to events one after the other. -/
def attend (g : Framer) (buffer : Bytes) : List Event → Attended
  | [] => { answers := [], framer := g, buffer }
  | .bytes chunk :: events => g.attend (buffer ++ chunk) events
  | .ask :: events =>
    let next := g.next buffer
    let after := next.state.1.attend next.state.2 events
    { after with answers := next.result :: after.answers }

/-- The packets among answers. -/
def delivered (answers : List (Except ProtocolError (Option Model))) : List Model :=
  answers.filterMap fun
    | .ok m? => m?
    | .error _ => none

/-! ## What a receiver expects -/

/-- A receiver takes models off a stream one after the other, whatever stands behind. -/
inductive Expects : Framer → List (Model × Bytes) → Framer → Prop
  | nothing (g : Framer) : Expects g [] g
  | next {g g' last : Framer} {m : Model} {bs : Bytes} {sent : List (Model × Bytes)} (hbs : bs ≠ [])
      (htakes : g.Takes bs m g') (hrest : Expects g' sent last) : Expects g ((m, bs) :: sent) last

/-- A stream that is there as a whole is drained to the last byte. -/
theorem Expects.drains {g last : Framer} {sent : List (Model × Bytes)} (h : Expects g sent last) :
    g.Drains (stream sent) ⟨sent.map (·.1), none, last, []⟩ := by
  induction h with
  | nothing g =>
    have hn : (g.next []).result = .ok none := rfl
    exact .waiting hn
  | next hbs htakes _ ih =>
    obtain ⟨hm, hstate⟩ := htakes (stream _)
    have h := Drains.packet hm (by rw [hstate]; exact ih)
    exact h

theorem Takes.follows {g g' : Framer} {bs : Bytes} {m : Model} (hraw : g.dialect.isRaw = false)
    (h : g.Takes bs m g') : g.Follows g' := by
  have hf := next_follows hraw (bs ++ [])
  rwa [(h []).2] at hf

/-- As long as part of a frame is missing there is no answer, and nothing changes. -/
theorem Takes.waits {g g' : Framer} {front missing : Bytes} {m : Model}
    (hraw : g.dialect.isRaw = false) (hlaw : g.Lawful) (h : g.Takes (front ++ missing) m g')
    (hmissing : missing ≠ []) :
    (g.next front).result = .ok none ∧ (g.next front).state = (g, front) := by
  by_cases hn : (g.next front).result = .ok none
  · exact ⟨hn, (next_eq_none hraw hn).2⟩
  · -- An answer would stand, and leave the missing bytes behind.
    have hstands := (next_append hraw hlaw hn missing).2
    have hall := (h []).2
    rw [List.append_nil, hstands] at hall
    have hrest := congrArg Prod.snd hall
    exact absurd (List.append_eq_nil_iff.1 hrest).2 hmissing

/-- What is in the buffer is part of the frame that is expected next, and there is no answer yet, or
it begins with that frame. -/
theorem Expects.next_or_waits {g last : Framer} {sent : List (Model × Bytes)}
    (h : Expects g sent last) (hraw : g.dialect.isRaw = false) (hlaw : g.Lawful)
    {buffer coming : Bytes} (hb : buffer ++ coming = stream sent) :
    ((g.next buffer).result = .ok none ∧ (g.next buffer).state = (g, buffer)) ∨
      ∃ m bs rest g' more, sent = (m, bs) :: rest ∧ buffer = bs ++ more ∧
        g.Takes bs m g' ∧ Expects g' rest last := by
  cases h with
  | nothing =>
    obtain rfl : buffer = [] := (List.append_eq_nil_iff.1 hb).1
    exact .inl ⟨rfl, rfl⟩
  | @next _ g' _ m bs rest hbs htakes hrest =>
    change buffer ++ coming = bs ++ stream rest at hb
    rcases List.append_eq_append_iff.1 hb with ⟨missing, hfront, -⟩ | ⟨more, hmore, -⟩
    · by_cases hm : missing = []
      · rw [hm, List.append_nil] at hfront
        exact .inr ⟨m, bs, rest, g', [], rfl, by rw [hfront, List.append_nil], htakes, hrest⟩
      · rw [hfront] at htakes
        exact .inl (htakes.waits hraw hlaw hm)
    · exact .inr ⟨m, bs, rest, g', more, rfl, hmore, htakes, hrest⟩

/-- Whenever a receiver asks, it gets what it expects next or no answer yet. -/
theorem Expects.attend {g last : Framer} {sent : List (Model × Bytes)} (h : Expects g sent last)
    (hraw : g.dialect.isRaw = false) (hlaw : g.Lawful) {buffer : Bytes} {events : List Event}
    (hb : buffer ++ incoming events = stream sent) :
    (∀ a ∈ (g.attend buffer events).answers, ∃ m?, a = .ok m?) ∧
      ∃ d, (g.attend buffer events).framer.Drains (g.attend buffer events).buffer d ∧
        d.error? = none ∧ d.rest = [] ∧ d.framer = last ∧
        delivered (g.attend buffer events).answers ++ d.packets = sent.map (·.1) := by
  -- What is buffered and what is still to come in are always the stream that is left.
  induction events generalizing g buffer sent with
  | nil =>
    obtain rfl : buffer = stream sent := by
      rw [← hb]
      exact (List.append_nil buffer).symm
    exact ⟨fun a ha => (by cases ha), _, h.drains, rfl, rfl, rfl, rfl⟩
  | cons event events ih =>
    cases event with
    | bytes chunk => exact ih h hraw hlaw (by rw [List.append_assoc]; exact hb)
    | ask =>
      change buffer ++ incoming events = stream sent at hb
      rcases h.next_or_waits hraw hlaw hb with
        ⟨hr, hs⟩ | ⟨m, bs, rest, g', more, rfl, rfl, htakes, hrest⟩
      · obtain ⟨hall, d, hd, he, hrest, hlast, hpackets⟩ := ih h hraw hlaw hb
        unfold Framer.attend
        simp only [hr, hs]
        refine ⟨fun a ha => ?_, d, hd, he, hrest, hlast, hpackets⟩
        rcases List.mem_cons.1 ha with rfl | ha
        · exact ⟨none, rfl⟩
        · exact hall a ha
      · obtain ⟨hr, hs⟩ := htakes more
        have hfollows := htakes.follows hraw
        have hb' : more ++ incoming events = stream rest := by
          rw [List.append_assoc] at hb
          exact List.append_cancel_left hb
        obtain ⟨hall, d, hd, he, hrest, hlast, hpackets⟩ :=
          ih hrest (hfollows.isRaw hraw) (hlaw.follows hfollows) hb'
        unfold Framer.attend
        simp only [hr, hs]
        refine ⟨fun a ha => ?_, d, hd, he, hrest, hlast, ?_⟩
        · rcases List.mem_cons.1 ha with rfl | ha
          · exact ⟨some m, rfl⟩
          · exact hall a ha
        · exact congrArg (m :: ·) hpackets

/-! ## What is sent is expected -/

/-- The empty packet aside, which has no bytes, a receiver in step expects all that is sent, and
both sides are in step afterwards. -/
theorem InStep.encodeAll {f g : Framer} (h : InStep f g) {inputs : List (Entropy × Model)}
    (hm : ∀ input ∈ inputs, f.codec.Restores input.2) :
    ∃ script last, stream script = stream (f.encodeAll inputs).1 ∧
      script.map (·.1) = arriving (f.encodeAll inputs).1 ∧ Expects g script last ∧
      InStep (f.encodeAll inputs).2 last ∧
      (f.encodeAll inputs).2.session?.map (·.secret) = (f.session?.map (·.secret)).or
        ((f.encodeAll inputs).1.findSome? fun x => secretOf? x.1) := by
  induction inputs generalizing f g with
  | nil =>
    refine ⟨[], g, rfl, rfl, .nothing g, h, ?_⟩
    exact (Option.or_none).symm
  | cons input inputs ih =>
    obtain ⟨entropy, m⟩ := input
    have hf := encode_follows f entropy m
    have hm' : ∀ input ∈ inputs, (f.encode entropy m).state.codec.Restores input.2 :=
      fun input hmem =>
        Codec.restores_congr hf.dialect hf.settings (hm input (List.mem_cons_of_mem _ hmem))
    cases hr : (f.encode entropy m).result with
    | error e =>
      -- Nothing is sent for this one, and both sides are still in step.
      obtain ⟨hsame, hin⟩ := encode_failed h hr
      rw [encodeAll_of_error hr, ← hsame]
      exact ih hin hm'
    | ok bs =>
      obtain ⟨g', htaken, hin, hfirst⟩ := exists_sent h (hm _ (List.mem_cons_self ..)) hr
      obtain ⟨script, last, hstream, harriving, hexpects, hlast, hsecret⟩ := ih hin hm'
      rw [encodeAll_of_ok hr]
      have hfind : ((m, bs) :: ((f.encode entropy m).state.encodeAll inputs).1).findSome?
          (fun x => secretOf? x.1) = (secretOf? m).or
            (((f.encode entropy m).state.encodeAll inputs).1.findSome? fun x => secretOf? x.1) := by
        rw [List.findSome?_cons]
        cases secretOf? m <;> rfl
      rw [hfirst, Option.or_assoc, ← hfind] at hsecret
      rcases htaken with ⟨hempty, rfl, rfl⟩ | ⟨hne, hbs, htakes⟩
      · -- Nothing was sent for the empty packet, so the receiver expects the same as before.
        refine ⟨script, last, hstream, ?_, hexpects, hlast, hsecret⟩
        rw [harriving, arriving, arriving, List.map_cons,
          List.filter_cons_of_neg (by rw [hempty]; decide)]
      · refine ⟨(m, bs) :: script, last, congrArg (bs ++ ·) hstream, ?_,
          .next hbs htakes hexpects, hlast, hsecret⟩
        rw [List.map_cons, harriving, arriving, arriving, List.map_cons,
          List.filter_cons_of_pos (by rw [decide_eq_true_eq]; exact hne)]

/-! ## From end to end -/

/-- Everything that was sent has arrived, or does when the receiver asks for what is left in its
buffer. -/
structure Complete (sent : List (Model × Bytes)) (sender : Framer) (seen : Attended)
    (d : Delivery) : Prop where
  /-- No call has failed. -/
  answers : ∀ a ∈ seen.answers, ∃ m?, a = .ok m?
  drains : seen.framer.Drains seen.buffer d
  /-- No later call fails, and nothing is left. -/
  error : d.error? = none
  rest : d.rest = []
  /-- Each model arrives once, in order and unchanged. -/
  packets : delivered seen.answers ++ d.packets = arriving sent
  isEncrypted : sender.isEncrypted = d.framer.isEncrypted
  isEncrypted_iff : d.framer.isEncrypted = true ↔
    ∃ x ∈ sent, ∃ request, x.1.packet = .encryptionRequest request
  key : sender.key = d.framer.key
  key_ne_nil : d.framer.isEncrypted = true → d.framer.key ≠ []
  /-- The key is the secret of the first request. -/
  key_eq : d.framer.key = (sent.findSome? fun x => secretOf? x.1).getD []

/-- Whatever a sender sends arrives once, in order and unchanged, through the key exchange, however
the stream is cut and whenever the receiver asks. -/
theorem attend_encodeAll {f g : Framer} (hp : Paired f g) (hf : f.session? = none)
    (hg : g.session? = none) {inputs : List (Entropy × Model)}
    (hm : ∀ input ∈ inputs, f.codec.Restores input.2) {events : List Event}
    (hevents : incoming events = stream (f.encodeAll inputs).1) :
    ∃ d, Complete (f.encodeAll inputs).1 (f.encodeAll inputs).2 (g.attend [] events) d := by
  have hin := hp.inStep hf hg
  obtain ⟨script, last, hstream, harriving, hexpects, hlast, hsecret⟩ := hin.encodeAll hm
  rw [hf, Option.map_none, Option.none_or] at hsecret
  have hb : [] ++ incoming events = stream script := by rw [hstream, ← hevents]; rfl
  -- What is sent is what the receiver expects, and in the end both sides are in step.
  obtain ⟨hanswers, d, hd, he, hrest, rfl, hpackets⟩ :=
    hexpects.attend hin.isRaw hin.lawful_receiver hb
  have hkey : d.framer.key = ((f.encodeAll inputs).1.findSome? fun x => secretOf? x.1).getD [] := by
    rw [← hsecret, ← hlast.session]
    rfl
  have hencrypted : d.framer.isEncrypted =
      ((f.encodeAll inputs).1.findSome? fun x => secretOf? x.1).isSome := by
    rw [← hsecret, ← hlast.session, Option.isSome_map]
    rfl
  refine ⟨d, hanswers, hd, he, hrest, hpackets.trans harriving, ?_, ?_, ?_, ?_, hkey⟩
  · unfold Framer.isEncrypted
    rw [hlast.session]
  · rw [hencrypted, List.findSome?_isSome_iff]
    constructor
    · rintro ⟨x, hx, hsome⟩
      exact ⟨x, hx, isSome_secretOf?_iff.1 hsome⟩
    · rintro ⟨x, hx, hrequest⟩
      exact ⟨x, hx, isSome_secretOf?_iff.2 hrequest⟩
  · unfold Framer.key
    rw [hlast.session]
  · intro hsome
    obtain ⟨s, hs⟩ := Option.isSome_iff_exists.1 hsome
    have hk : d.framer.key = s.secret := by
      unfold Framer.key
      rw [hs]
      rfl
    rw [hk]
    exact (hlast.builtIn s (hlast.session ▸ hs)).secret_ne_nil

theorem attend_encodeAll_request :
    let f : Framer :=
      { codec := .ofDialect .classic, keys := { encryptKey? := some Rsa.mersennePublic } }
    let g : Framer :=
      { codec := .ofDialect .classic, keys := { decryptKey? := some Rsa.mersennePrivate } }
    let ping : Model := { dialect := .classic, packet := .clientPing { time := 7 } }
    let request : Model :=
      { dialect := .classic, packet := .encryptionRequest { rsaData := [1, 2, 3] } }
    let inputs : List (Entropy × Model) := [(fun _ => 5, ping), (fun _ => 6, request)]
    let bytes := stream (f.encodeAll inputs).1
    let events : List Event := [.ask, .bytes (bytes.take 9), .ask, .bytes (bytes.drop 9), .ask]
    Paired f g ∧ (∀ input ∈ inputs, f.codec.Restores input.2) ∧ incoming events = bytes ∧
      arriving (f.encodeAll inputs).1 = [ping, request] ∧
      ∃ d, Complete (f.encodeAll inputs).1 (f.encodeAll inputs).2 (g.attend [] events) d ∧
        d.framer.key = [1, 2, 3] := by
  intro f g ping request inputs bytes events
  have hp : Paired f g :=
    ⟨rfl, rfl, rfl, by decide, ⟨_, _, rfl, rfl, Rsa.matching_mersenne⟩, ⟨default, rfl, rfl⟩⟩
  have hm : ∀ input ∈ inputs, f.codec.Restores input.2 := by
    intro input hmem
    apply Codec.Distinguishes.restores
    rcases List.mem_cons.1 hmem with rfl | hmem
    · exact .framed rfl fun u hu => by cases hu
    · rw [List.mem_singleton.1 hmem]
      exact .framed rfl fun u hu => by cases hu
  have hincoming (a b : Bytes) : incoming [.ask, .bytes a, .ask, .bytes b, .ask] = a ++ b :=
    congrArg (a ++ ·) (List.append_nil b)
  have hevents : incoming events = bytes := (hincoming _ _).trans (List.take_append_drop 9 bytes)
  have hsecond : ∃ bs,
      ((f.encode (fun _ => 5) ping).state.encode (fun _ => 6) request).result = .ok bs :=
    @exists_encode_request (f.encode (fun _ => 5) ping).state default Rsa.mersennePublic [1, 2, 3]
      rfl rfl rfl rfl (by decide) (by decide +kernel) (by decide +kernel) (by decide) (fun _ => 6)
  obtain ⟨bs, hbs⟩ := hsecond
  obtain ⟨ps, hps⟩ : ∃ ps, (f.encode (fun _ => 5) ping).result = .ok ps := ⟨_, rfl⟩
  have hsent : (f.encodeAll inputs).1 = [(ping, ps), (request, bs)] := by
    rw [encodeAll_of_ok hps, encodeAll_of_ok hbs]
    rfl
  obtain ⟨d, hd⟩ := attend_encodeAll hp rfl rfl hm hevents
  refine ⟨hp, hm, hevents, by rw [hsent]; rfl, d, hd, ?_⟩
  rw [hd.key_eq, hsent]
  rfl

end GameWire.Framer
