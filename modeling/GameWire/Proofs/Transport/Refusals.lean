import GameWire.Proofs.Transport.Calls
import GameWire.Proofs.Transport.Lane
import GameWire.Proofs.Transport.Reports

/-!
# Packets that cannot be encoded

A packet that cannot be encoded leaves a framer as it was but for the last error of its codec, also
when a session was agreed on already.  Nothing that is encoded later depends on that error, so a key
exchange can be tried again.  A connection does not turn to its socket with such a packet.
-/

namespace GameWire

namespace Framer

variable {f : Framer} {entropy : Entropy} {m : Model} {e : ProtocolError}

theorem encode_of_error (h : (f.encode entropy m).result = .error e) :
    ∃ error, (f.encode entropy m).state = f.withError error :=
  encode_state (session_encode_of_error h)

/-- A request may turn out too long for a frame when its secret has been sealed already. -/
theorem encode_sealed_of_error {request closed : EncryptionRequest} {pub : Rsa.PublicKey}
    {s : Session} (hs : f.session? = none) (hp : m.packet = .encryptionRequest request)
    (hk : f.keys.encryptKey? = some pub)
    (hc : f.keys.closeRequest pub entropy request = .ok (closed, s))
    (he : f.codec.encodeFrame { m with packet := .encryptionRequest closed } = .error e) :
    (f.encode entropy m).result = .error e := by
  have hr : (f.codec.encodeRaw { m with packet := .encryptionRequest closed }).result =
      .error e := he
  unfold encode
  rw [hs, hp]
  simp only [ExchangeKeys.sealRequest_of_some hk, hc, Except.map, hr]

/-! ## Later packets -/

/-- Encoding a frame sets the last error anew. -/
theorem encodeSealed_withError (f : Framer) (error : ErrorSlot) (entropy : Entropy) (m : Model) :
    (f.withError error).encodeSealed entropy m = f.encodeSealed entropy m := rfl

/-- A request whose secret cannot be sealed leaves the last error as it is; only there do the two
framers differ afterwards. -/
theorem encode_withError (f : Framer) (error : ErrorSlot) (entropy : Entropy) (m : Model) :
    ((f.withError error).encode entropy m).result = (f.encode entropy m).result ∧
      ((f.withError error).encode entropy m).activity = (f.encode entropy m).activity ∧
      (f.encode entropy m).state.Alike ((f.withError error).encode entropy m).state := by
  by_cases hplain : f.session? = none → secretOf? m = none
  · rw [encode_eq_encodeSealed entropy hplain,
      encode_eq_encodeSealed (f := f.withError error) entropy hplain, encodeSealed_withError]
    exact ⟨rfl, rfl, .refl _⟩
  · obtain ⟨hs, request, hp⟩ := request_of_not_plain hplain
    have hs' : (f.withError error).session? = none := hs
    have hkeys : (f.withError error).keys = f.keys := rfl
    unfold encode
    rw [hs, hs', hp, hkeys]
    simp only
    cases hseal : f.keys.sealRequest entropy request with
    | mk sealed log =>
      cases sealed with
      | error e => exact ⟨rfl, rfl, alike_withError f error⟩
      | ok pair? =>
        cases pair? with
        | none => exact ⟨rfl, rfl, .refl _⟩
        | some pair => exact ⟨rfl, rfl, .refl _⟩

end Framer

namespace Connection

open Framer

/-- A packet that cannot be encoded changes nothing about a framer but its last error, and nothing
about what is encoded afterwards.  A connection that is to write it fails and is left as it was, its
socket too, but for the last errors. -/
theorem write_refused {f : Framer} {entropy : Entropy} {m : Model} {e : ProtocolError}
    (h : (f.encode entropy m).result = .error e) :
    (∃ error, (f.encode entropy m).state = f.withError error) ∧
      (∀ entropy' m',
        ((f.encode entropy m).state.encode entropy' m').result = (f.encode entropy' m').result ∧
          ((f.encode entropy m).state.encode entropy' m').state.session? =
            (f.encode entropy' m').state.session?) ∧
      ∀ (c : Connection) (socket : Socket), c.framer = f → c.socket? = some socket →
        (c.write entropy (some m)).result = .failed ∧
          (c.write entropy (some m)).activity = (f.encode entropy m).activity ∧
          ∃ error, (c.write entropy (some m)).state =
            { c with framer := f.withError error, error := .ofError e } := by
  obtain ⟨error, hstate⟩ := encode_of_error h
  refine ⟨⟨error, hstate⟩, fun entropy' m' => ?_, fun c socket hf hs => ?_⟩
  · obtain ⟨hresult, -, halike⟩ := encode_withError f error entropy' m'
    rw [hstate]
    exact ⟨hresult, halike.session⟩
  · subst hf
    obtain ⟨hresult, hwritten⟩ := write_of_error hs h
    have hactivity := activity_write c entropy (some m)
    simp only [hs, h, List.append_nil] at hactivity
    rw [hstate] at hwritten
    exact ⟨hresult, hactivity, error, hwritten⟩

-- The secret is sealed and its session made before the frame turns out to be too long.
theorem write_refused_overLimit :
    let f := Framer.ofCodec (.ofSettings { dialect := .classic, maxFrameSize := 128 })
      { encryptKey? := some Rsa.mersennePublic }
    let request : Model :=
      { dialect := .classic, packet := .encryptionRequest { rsaData := [1, 2, 3] } }
    let c : Connection :=
      { socket? := some { flushes := [some .wouldBlock] }
        framer := f
        outbound := [7]
        readChunk := 1
        readChunk_pos := Nat.one_pos }
    let written := (c.write (fun _ => 5) (some request)).state
    (∃ e, (f.encode (fun _ => 5) request).result = .error e) ∧
      (c.write (fun _ => 5) (some request)).result = .failed ∧ written.socket? = c.socket? ∧
      written.outbound = [7] ∧ written.framer.isEncrypted = false := by
  intro f request c written
  obtain ⟨s, hestablish⟩ := @Session.exists_establish [1, 2, 3] default (by decide)
  obtain ⟨ciphertext, hconceal, -⟩ :=
    @Rsa.exists_conceal Rsa.mersennePublic [1, 2, 3] (by decide +kernel) (fun _ => 5)
  have hclose : f.keys.closeRequest Rsa.mersennePublic (fun _ => 5) { rsaData := [1, 2, 3] } =
      .ok ({ rsaData := ciphertext }, s) :=
    ExchangeKeys.closeRequest_eq_ok.2 ⟨ciphertext, hestablish, hconceal, rfl⟩
  obtain ⟨e, he⟩ := @encodeFrame_request_of_limit_lt f.codec
    { request with packet := .encryptionRequest { rsaData := ciphertext } } _ rfl (by decide)
  have hrefused : (f.encode (fun _ => 5) request).result = .error e :=
    @encode_sealed_of_error f (fun _ => 5) request e _ _ _ s rfl rfl rfl hclose he
  obtain ⟨hresult, -, error, hstate⟩ := (write_refused hrefused).2.2 c _ rfl rfl
  have hwritten : written = { c with framer := f.withError error, error := .ofError e } := hstate
  rw [hwritten]
  exact ⟨⟨e, hrefused⟩, hresult, rfl, rfl, rfl⟩

end Connection

end GameWire
