import GameWire.Proofs.Transport.Delivery
import GameWire.Proofs.Transport.Lifetime

/-!
# Lanes

A lane is one direction between two peers: models are encoded at one end, their bytes travel and
arrive in pieces, and packets are asked for at the other end.  `Lane.Carries` says which models are
under way.  They are what the receiver expects as long as both ends frame alike.
-/

namespace GameWire

namespace Framer

/-! ## The last error of a framer -/

def withError (f : Framer) (error : ErrorSlot) : Framer :=
  { f with codec := { f.codec with error } }

theorem alike_withError (f : Framer) (error : ErrorSlot) : f.Alike (f.withError error) :=
  ⟨rfl, rfl, rfl, rfl⟩

theorem encodeSealed_state (f : Framer) (entropy : Entropy) (m : Model) :
    ∃ error, (f.encodeSealed entropy m).state = f.withError error := by
  unfold encodeSealed
  simp only
  split
  · split
    · exact ⟨_, rfl⟩
    · exact ⟨_, rfl⟩
  · exact ⟨_, rfl⟩

/-- Encoding changes nothing but the last error, unless a session begins. -/
theorem encode_state {f : Framer} {entropy : Entropy} {m : Model}
    (h : (f.encode entropy m).state.session? = f.session?) :
    ∃ error, (f.encode entropy m).state = f.withError error := by
  unfold encode at h ⊢
  split
  · rename_i request hs hp
    simp only [hs, hp] at h
    cases hk : f.keys.encryptKey? with
    | none =>
      rw [ExchangeKeys.sealRequest_of_none hk]
      exact encodeSealed_state f entropy m
    | some pub =>
      rw [ExchangeKeys.sealRequest_of_some hk] at h ⊢
      cases hc : f.keys.closeRequest pub entropy request with
      | error e => exact ⟨f.codec.error, rfl⟩
      | ok pair =>
        rw [hc] at h
        simp only [Except.map] at h ⊢
        split
        · rename_i hr
          rw [hr] at h
          cases h
        · exact ⟨_, rfl⟩
  · exact encodeSealed_state f entropy m

section WithError

variable {f g : Framer} {bs : Bytes} {m : Model}

/-- A frame that is decoded sets the last error anew. -/
theorem receive_withError (error : ErrorSlot) (h : (f.receive bs).result = .ok m) :
    (f.withError error).receive bs = f.receive bs := by
  have ho : (f.withError error).openEnvelope bs = f.openEnvelope bs := rfl
  unfold receive at h ⊢
  rw [ho]
  cases hc : f.openEnvelope bs with
  | mk opened log =>
    rw [hc] at h
    cases opened with
    | error e => cases h
    | ok frame => rfl

theorem next_withError (hraw : f.dialect.isRaw = false) (error : ErrorSlot)
    (h : (f.next bs).result = .ok (some m)) : (f.withError error).next bs = f.next bs := by
  have hj : (f.withError error).judge bs = f.judge bs := rfl
  rw [next_eq_judge hraw] at h
  rw [next_eq_judge hraw, next_eq_judge (f := f.withError error) hraw, hj]
  cases hjudge : f.judge bs with
  | none => rw [hjudge] at h; cases h
  | some judgement =>
    rw [hjudge] at h
    cases judgement with
    | error e => cases h
    | ok declared =>
      change (f.receive (bs.take declared)).result.map some = .ok (some m) at h
      cases hr : (f.receive (bs.take declared)).result with
      | error e => rw [hr] at h; cases h
      | ok received => simp only [receive_withError error hr]

theorem Takes.withError (h : f.Takes bs m g) (hraw : f.dialect.isRaw = false)
    (error : ErrorSlot) : (f.withError error).Takes bs m g := by
  intro more
  rw [next_withError hraw error (h more).1]
  exact h more

theorem Takes.session_of_some (h : f.Takes bs m g) {s : Session} (hs : f.session? = some s) :
    g.session? = some s := by
  have hn : (f.next (bs ++ [])).state.1.session? = some s :=
    perform_session_of_some hs (.next (bs ++ []))
  rwa [(h []).2] at hn

end WithError

section Expects

variable {g last : Framer} {script : List (Model × Bytes)}

theorem Expects.withError (h : Expects g script last) (hraw : g.dialect.isRaw = false)
    (error : ErrorSlot) : ∃ last', Expects (g.withError error) script last' ∧ last.Alike last' := by
  cases h with
  | nothing => exact ⟨g.withError error, .nothing _, alike_withError g error⟩
  | next hbs htakes hrest =>
    exact ⟨last, .next hbs (htakes.withError hraw error) hrest, .refl last⟩

theorem Expects.append (h : Expects g script last) {m : Model} {bs : Bytes} (hbs : bs ≠ [])
    {last' : Framer} (ht : last.Takes bs m last') : Expects g (script ++ [(m, bs)]) last' := by
  induction h with
  | nothing g => exact .next hbs ht (.nothing last')
  | next hne htakes _ ih => exact .next hne htakes (ih ht)

theorem Expects.session_of_some (h : Expects g script last) {s : Session}
    (hs : g.session? = some s) : last.session? = some s := by
  induction h with
  | nothing g => exact hs
  | next _ htakes _ ih => exact ih (htakes.session_of_some hs)

/-- If no session begins with all that is expected, none begins with the next packet. -/
theorem Expects.alike_next {buffer : Bytes}
    (h : Expects (g.next buffer).state.1 script last) (hlast : last.session? = g.session?) :
    g.Alike (g.next buffer).state.1 := by
  apply (follows_next g buffer).alike
  rcases next_session g buffer with hsame | ⟨hnone, -⟩
  · exact hsame
  · cases hs : (g.next buffer).state.1.session? with
    | none => exact hnone.symm
    | some s => rw [← hlast, h.session_of_some hs]

end Expects

end Framer

open Framer

/-! ## One direction between two peers -/

/-- What was done at both ends of a lane, and where its bytes are. -/
structure Lane where
  /-- What was encoded, with its bytes. -/
  sent : List (Model × Bytes) := []
  /-- How many of the models that arrive were encoded while the sender had no session. -/
  clear : Nat := 0
  /-- The bytes that have not arrived. -/
  transit : Bytes := []
  /-- The bytes that have arrived and were not taken. -/
  buffer : Bytes := []
  /-- What came of asking for packets. -/
  answers : List (Except ProtocolError (Option Model)) := []

namespace Lane

def send (lane : Lane) (f : Framer) (entropy : Entropy) (m : Model) : Lane :=
  match (f.encode entropy m).result with
  | .error _ => lane
  | .ok bs =>
    let sent := lane.sent ++ [(m, bs)]
    { lane with
      sent
      clear := if f.isEncrypted then lane.clear else (arriving sent).length
      transit := lane.transit ++ bs }

def arrive (lane : Lane) (count : Nat) : Lane :=
  { lane with
    transit := lane.transit.drop count
    buffer := lane.buffer ++ lane.transit.take count }

def ask (lane : Lane) (g : Framer) : Lane :=
  let next := g.next lane.buffer
  { lane with buffer := next.state.2, answers := lane.answers ++ [next.result] }

def received (lane : Lane) : List Model := delivered lane.answers

/-- No call has failed, and what was received is what was sent first. -/
structure Faithful (lane : Lane) : Prop where
  answers : ∀ a ∈ lane.answers, ∃ m?, a = .ok m?
  received : lane.received <+: arriving lane.sent

/-- The models that are under way in a lane, each with its bytes. -/
structure Carries (lane : Lane) (script : List (Model × Bytes)) : Prop where
  bytes : lane.buffer ++ lane.transit = stream script
  models : lane.received ++ script.map (·.1) = arriving lane.sent
  answers : ∀ a ∈ lane.answers, ∃ m?, a = .ok m?

section Carries

variable {lane : Lane} {script : List (Model × Bytes)} {f g : Framer} {entropy : Entropy}
  {m : Model} {bs : Bytes}

theorem carries_nil : ({} : Lane).Carries [] := ⟨rfl, rfl, fun a ha => by cases ha⟩

theorem Carries.faithful (h : lane.Carries script) : lane.Faithful :=
  ⟨h.answers, _, h.models⟩

theorem send_of_error {e : ProtocolError} (hr : (f.encode entropy m).result = .error e) :
    lane.send f entropy m = lane := by
  unfold send
  rw [hr]

theorem send_of_ok (hr : (f.encode entropy m).result = .ok bs) :
    lane.send f entropy m =
      { lane with
        sent := lane.sent ++ [(m, bs)]
        clear := if f.isEncrypted then lane.clear else
          (arriving (lane.sent ++ [(m, bs)])).length
        transit := lane.transit ++ bs } := by
  unfold send
  rw [hr]

theorem received_send (lane : Lane) (f : Framer) (entropy : Entropy) (m : Model) :
    (lane.send f entropy m).received = lane.received := by
  unfold send
  split <;> rfl

/-- As long as the sender has no session, all that it has sent was sent in plain sight. -/
theorem clear_send (hf : f.isEncrypted = false) (h : lane.clear = (arriving lane.sent).length)
    (entropy : Entropy) (m : Model) :
    (lane.send f entropy m).clear = (arriving (lane.send f entropy m).sent).length := by
  cases hr : (f.encode entropy m).result with
  | error e =>
    rw [send_of_error hr]
    exact h
  | ok bs =>
    rw [send_of_ok hr, hf]
    rfl

theorem clear_send_of_isEncrypted (hf : f.isEncrypted = true) (lane : Lane) (entropy : Entropy)
    (m : Model) : (lane.send f entropy m).clear = lane.clear := by
  unfold send
  split
  · rfl
  · exact if_pos hf

/-- If all was sent in plain sight, so was what is under way. -/
theorem Carries.received_lt (h : lane.Carries script)
    (hclear : lane.clear = (arriving lane.sent).length) (hne : script ≠ []) :
    lane.received.length < lane.clear := by
  have hlength := congrArg List.length h.models
  rw [List.length_append, List.length_map, ← hclear] at hlength
  have hpos := List.length_pos_iff.2 hne
  omega

theorem stream_append (a b : List (Model × Bytes)) : stream (a ++ b) = stream a ++ stream b := by
  unfold stream
  rw [List.map_append, List.flatten_append]

theorem arriving_append (a b : List (Model × Bytes)) :
    arriving (a ++ b) = arriving a ++ arriving b := by
  unfold arriving
  rw [List.map_append, List.filter_append]

/-- The empty packet has no bytes and does not arrive. -/
theorem Carries.send_empty (h : lane.Carries script) (hr : (f.encode entropy m).result = .ok [])
    (hm : m.packet = .empty) : (lane.send f entropy m).Carries script := by
  rw [send_of_ok hr]
  have hnone : arriving [(m, [])] = [] := by
    rw [arriving, List.map_singleton, List.filter_cons_of_neg (by rw [hm]; decide)]
    rfl
  refine ⟨?_, ?_, h.answers⟩
  · show lane.buffer ++ (lane.transit ++ []) = _
    rw [List.append_nil]
    exact h.bytes
  · show lane.received ++ _ = arriving (lane.sent ++ [(m, [])])
    rw [arriving_append, hnone, List.append_nil]
    exact h.models

theorem Carries.send (h : lane.Carries script) (hr : (f.encode entropy m).result = .ok bs)
    (hm : m.packet ≠ .empty) : (lane.send f entropy m).Carries (script ++ [(m, bs)]) := by
  rw [send_of_ok hr]
  have hone : arriving [(m, bs)] = [m] := by
    rw [arriving, List.map_singleton, List.filter_cons_of_pos (by rw [decide_eq_true_eq]; exact hm)]
    rfl
  refine ⟨?_, ?_, h.answers⟩
  · show lane.buffer ++ (lane.transit ++ bs) = _
    rw [← List.append_assoc, h.bytes, stream_append]
    exact congrArg (stream script ++ ·) (List.append_nil bs).symm
  · show lane.received ++ _ = arriving (lane.sent ++ [(m, bs)])
    rw [arriving_append, hone, ← h.models, List.map_append, List.append_assoc]
    rfl

theorem Carries.arrive (h : lane.Carries script) (count : Nat) :
    (lane.arrive count).Carries script where
  bytes := by
    show lane.buffer ++ lane.transit.take count ++ lane.transit.drop count = _
    rw [List.append_assoc, List.take_append_drop]
    exact h.bytes
  models := h.models
  answers := h.answers

theorem received_ask (lane : Lane) (g : Framer) :
    (lane.ask g).received = lane.received ++ delivered [(g.next lane.buffer).result] :=
  List.filterMap_append

theorem received_ask_none (hr : (g.next lane.buffer).result = .ok none) :
    (lane.ask g).received = lane.received := by
  rw [received_ask, hr]
  exact List.append_nil lane.received

theorem answers_ask {m? : Option Model} (h : ∀ a ∈ lane.answers, ∃ m?, a = .ok m?)
    (hr : (g.next lane.buffer).result = .ok m?) : ∀ a ∈ (lane.ask g).answers, ∃ m?, a = .ok m? := by
  intro a ha
  rcases List.mem_append.1 ha with ha | ha
  · exact h a ha
  · rw [List.mem_singleton.1 ha, hr]
    exact ⟨m?, rfl⟩

/-- Without an answer nothing changes. -/
theorem Carries.ask_none (h : lane.Carries script) (hr : (g.next lane.buffer).result = .ok none)
    (hs : (g.next lane.buffer).state = (g, lane.buffer)) : (lane.ask g).Carries script where
  bytes := by
    show (g.next lane.buffer).state.2 ++ lane.transit = _
    rw [hs]
    exact h.bytes
  models := by
    rw [received_ask_none hr]
    exact h.models
  answers := answers_ask h.answers hr

/-- A receiver that expects what a lane carries gets the next of it or no answer yet, and then
expects the rest. -/
theorem Carries.ask (h : lane.Carries script) {last : Framer} (hx : Expects g script last)
    (hraw : g.dialect.isRaw = false) (hlaw : g.Lawful) :
    ∃ rest, (lane.ask g).Carries rest ∧ Expects (g.next lane.buffer).state.1 rest last ∧
      rest <:+ script := by
  rcases hx.next_or_waits hraw hlaw h.bytes with
    ⟨hr, hs⟩ | ⟨m, bs, rest, g', more, rfl, hbuffer, htakes, hrest⟩
  · refine ⟨script, h.ask_none hr hs, ?_, List.suffix_refl script⟩
    rw [hs]
    exact hx
  · obtain ⟨hr, hs⟩ := htakes more
    rw [← hbuffer] at hr hs
    refine ⟨rest, ⟨?_, ?_, answers_ask h.answers hr⟩, by rw [hs]; exact hrest,
      List.suffix_cons _ rest⟩
    · show (g.next lane.buffer).state.2 ++ lane.transit = _
      have hb := h.bytes
      rw [hbuffer, List.append_assoc] at hb
      rw [hs]
      exact List.append_cancel_left hb
    · rw [received_ask, hr, List.append_assoc]
      exact h.models

end Carries

end Lane

end GameWire
