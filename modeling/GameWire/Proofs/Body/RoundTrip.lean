import GameWire.Body
import GameWire.Proofs.Body.TextField

/-!
# Bodies read back

Every body is read back whole from the bytes that are written for it.  For most kinds this is put
together from the layouts of their fields (`Layout.Built`); the two key exchange packets take all
that is left of a body, so they are read back at its end only.
-/

namespace GameWire

/-! ## The key block -/

namespace KeyBlock

/-- What a whole block with a given trailer stands for. -/
theorem decode_append_trailer {body : Bytes} (hb : body.length = capacity) {stored : Nat}
    (hs : stored < 2 ^ 32) :
    decode (body ++ Bytes.le trailerLength stored) =
      if 1 ≤ stored ∧ stored ≤ capacity then (body.take stored).reverse
      else body.reverse.dropWhile (· = 0) := by
  have hlen : (body ++ Bytes.le trailerLength stored).length - trailerLength = body.length := by
    rw [List.length_append, Bytes.length_le]; omega
  have hat : Bytes.u32At? body.length (body ++ Bytes.le trailerLength stored) = some stored := by
    rw [← List.append_nil (Bytes.le trailerLength stored)]
    exact Bytes.u32At?_append body [] hs
  simp only [decode, hlen, hat, List.take_left]
  rw [hb]

/-- Data of any length that fits is read back from its block, zeros at its front included. -/
theorem decode_encode {data block : Bytes} (h : encode data = .ok block) : decode block = data := by
  unfold encode at h
  by_cases hc : data.length ≤ capacity
  · rw [if_pos hc] at h
    cases h
    have hb : (data.reverse ++ Bytes.zeros (capacity - data.length)).length = capacity := by
      rw [List.length_append, List.length_reverse, Bytes.length_zeros]; omega
    have hs : data.length < 2 ^ 32 := by simp only [capacity] at hc; omega
    rw [decode_append_trailer hb hs]
    by_cases hz : 1 ≤ data.length
    · rw [if_pos ⟨hz, hc⟩, ← List.length_reverse, List.take_left, List.reverse_reverse]
    · -- No data: the block is all zeros, and they are all taken for filling.
      have he : data = [] := List.length_eq_zero_iff.1 (by omega)
      subst he
      rw [if_neg (by omega)]
      decide
  · rw [if_neg hc] at h; cases h

theorem length_encode {data body : Bytes} (h : encode data = .ok body) :
    body.length = blockLength := by
  unfold encode at h
  by_cases hc : data.length ≤ capacity
  · rw [if_pos hc] at h
    cases h
    rw [List.length_append, List.length_append, List.length_reverse, Bytes.length_zeros,
      Bytes.length_le, blockLength]
    omega
  · rw [if_neg hc] at h
    cases h

/-- Data that fits is encoded, into a whole block. -/
theorem exists_encode {data : Bytes} (h : data.length ≤ capacity) :
    ∃ body, encode data = .ok body ∧ body.length = blockLength := by
  have he : encode data = .ok (data.reverse ++ Bytes.zeros (capacity - data.length) ++
      Bytes.le trailerLength data.length) := by
    unfold encode
    rw [if_pos h]
  exact ⟨_, he, length_encode he⟩

end KeyBlock

namespace Layout

/-! ## The layouts of the bodies -/

/-- A text is read back, whatever its mask. -/
theorem roundTrip_text (mask : LengthMask) : (text mask).RoundTrip := by
  intro s out hw context consumed rest
  obtain ⟨f, rfl, hs⟩ := MaskedText.exists_field_of_write hw
  exact hs.read ⟨rfl, rfl, rfl⟩

/-- A layout that is put together from the layouts of single fields. -/
inductive Built : {α : Type} → Layout α → Prop
  | u8 : Built u8
  | u16 : Built u16
  | u32 : Built u32
  | u64 : Built u64
  | fixed (n : Nat) : Built (fixed n)
  | gap (n : Nat) : Built (gap n)
  | text (mask : LengthMask) : Built (text mask)
  | both {α β : Type} {a : Layout α} {b : Layout β} (ha : Built a) (hb : Built b) :
      Built (a.both b)
  | as {α β : Type} {a : Layout α} {decode : α → β} {encode : β → α} (ha : Built a)
      (h : ∀ y, decode (encode y) = y) : Built (a.as decode encode)

theorem Built.after {α : Type} {a : Layout α} (ha : a.Built) (n : Nat) : (a.after n).Built :=
  ((Built.gap n).both ha).as fun _ => rfl

theorem Built.roundTrip {α : Type} {l : Layout α} (h : l.Built) : l.RoundTrip := by
  induction h with
  | u8 => exact roundTrip_u8
  | u16 => exact roundTrip_u16
  | u32 => exact roundTrip_u32
  | u64 => exact roundTrip_u64
  | fixed n => exact roundTrip_fixed n
  | gap n => exact roundTrip_gap n
  | text mask => exact roundTrip_text mask
  | both _ _ iha ihb => exact iha.both ihb
  | as _ h iha => exact iha.as h

theorem built_entityType : entityType.Built := .as .u16 EntityType.ofCode_code

theorem built_chatArea : chatArea.Built := .as .u8 ChatArea.ofCode_code

theorem built_messageType : messageType.Built := .as .u32 MessageType.ofCode_code

theorem built_objectHeader : objectHeader.Built :=
  .as (.both .u32 <| .both .u32 <| .both built_entityType .u16) fun _ => rfl

theorem built_serverHello : serverHello.Built :=
  .as (.both .u16 <| .both .u16 <| Built.u32.after 4) fun _ => rfl

theorem built_serverHelloNgs : serverHelloNgs.Built :=
  .as (.both .u16 <| .both .u16 <| (Built.u32.both .u32).after 4) fun _ => rfl

theorem built_mapLoaded : mapLoaded.Built :=
  .as (.both built_objectHeader (.fixed 0x20)) fun _ => rfl

theorem built_setPlayerId : setPlayerId.Built :=
  .as (.both .u32 <| .both .u32 .u32) fun _ => rfl

theorem built_chatMessage : chatMessage.Built :=
  .as (.both built_objectHeader <| .both built_chatArea <| .both .u8 <| .both .u16 <|
    .both (.text .chat) (.text .chat)) fun _ => rfl

theorem built_chatMessageNgs : chatMessageNgs.Built :=
  .as (.both built_objectHeader <| .both built_chatArea <| .both .u8 <| .both .u16 <| .both .u16 <|
    .both .u16 <| .both (.text .chat) (.text .chat)) fun _ => rfl

theorem built_clientPing : clientPing.Built := .as .u64 fun _ => rfl

theorem built_clientPong : clientPong.Built :=
  .as (.both .u64 <| .both .u64 .u32) fun _ => rfl

theorem built_systemMessage : systemMessage.Built :=
  .as (.both (.text .system) <| .both (.text .system) <| .both built_messageType .u32) fun _ => rfl

theorem built_lobbyMonitor : lobbyMonitor.Built := .as .u32 fun _ => rfl

end Layout

/-! ## Whole bodies -/

/-- A body is accepted if and only if its reading stops at the end of it. -/
theorem BodyReader.run_of_read {α : Type} {context : String} {read : Reading α} {body : Bytes}
    {x : α} {r : BodyReader} (h : read { context, rest := body } = .ok x r) (hr : r.rest = []) :
    run context read body = .ok x := by
  have hfinish : finish r = .ok () r := by
    unfold finish
    rw [hr]
    rfl
  unfold run
  rw [Reading.bind_ok h, Reading.bind_ok hfinish]
  rfl

theorem BodyReader.run_eq_ok {α : Type} {context : String} {read : Reading α} {body : Bytes}
    {x : α} (h : run context read body = .ok x) :
    ∃ r, read { context, rest := body } = .ok x r ∧ r.rest = [] := by
  unfold run at h
  split at h
  · rename_i y r hy
    cases h
    obtain ⟨z, s, hz, hs⟩ := Reading.bind_eq_ok hy
    obtain ⟨_, t, ht, hpure⟩ := Reading.bind_eq_ok hs
    cases hpure
    refine ⟨s, hz, ?_⟩
    unfold finish at ht
    by_cases hempty : s.rest.isEmpty = true
    · exact List.isEmpty_iff.1 hempty
    · rw [if_neg hempty] at ht
      cases ht
  · cases h

namespace Layout

/-- Whatever a layout writes, it reads back when nothing follows. -/
def ReadsWhole {α : Type} (l : Layout α) : Prop :=
  ∀ (x : α) (out : Bytes), l.write x = .ok out → ∀ context : String,
    l.read ⟨context, 0, out⟩ = .ok x ⟨context, out.length, []⟩

theorem RoundTrip.readsWhole {α : Type} {l : Layout α} (h : l.RoundTrip) : l.ReadsWhole := by
  intro x out hw context
  have hr := h x out hw context 0 []
  rwa [List.append_nil, Nat.zero_add] at hr

theorem readsWhole_encryptionRequest : encryptionRequest.ReadsWhole := by
  intro p out hw context
  have hd : KeyBlock.decode out = p.rsaData := KeyBlock.decode_encode hw
  show EStateM.Result.ok (EncryptionRequest.mk (KeyBlock.decode out))
    (BodyReader.mk context (0 + out.length) []) = _
  rw [hd, Nat.zero_add]

theorem readsWhole_encryptionResponse : encryptionResponse.ReadsWhole := by
  intro p out hw context
  cases hw
  show EStateM.Result.ok (EncryptionResponse.mk p.data)
    (BodyReader.mk context (0 + p.data.length) []) = _
  rw [Nat.zero_add]

/-- A reading that stops at the end of a body accepts the body. -/
theorem ReadsWhole.run {α β : Type} {l : Layout α} (h : l.ReadsWhole) {x : α} {out : Bytes}
    (hw : l.write x = .ok out) (context : String) (f : α → β) :
    BodyReader.run context (f <$> l.read) out = .ok (f x) := by
  exact BodyReader.run_of_read (Reading.map_ok (h x out hw context) f) rfl

end Layout

namespace Packet

/-- A packet is read back from its body under its own kind. -/
theorem decodeBody_encodeBody {p : Packet} {kind : Kind} {body : Bytes} (hk : p.kind? = some kind)
    (hb : p.encodeBody = .ok body) : decodeBody kind body = .ok p := by
  cases p <;> cases hk
  case serverHello => exact Layout.built_serverHello.roundTrip.readsWhole.run hb _ _
  case serverHelloNgs => exact Layout.built_serverHelloNgs.roundTrip.readsWhole.run hb _ _
  case mapLoaded => exact Layout.built_mapLoaded.roundTrip.readsWhole.run hb _ _
  case setPlayerId => exact Layout.built_setPlayerId.roundTrip.readsWhole.run hb _ _
  case chatMessage => exact Layout.built_chatMessage.roundTrip.readsWhole.run hb _ _
  case chatMessageNgs => exact Layout.built_chatMessageNgs.roundTrip.readsWhole.run hb _ _
  case encryptionRequest => exact Layout.readsWhole_encryptionRequest.run hb _ _
  case encryptionResponse => exact Layout.readsWhole_encryptionResponse.run hb _ _
  case clientPing => exact Layout.built_clientPing.roundTrip.readsWhole.run hb _ _
  case clientPong => exact Layout.built_clientPong.roundTrip.readsWhole.run hb _ _
  case systemMessage => exact Layout.built_systemMessage.roundTrip.readsWhole.run hb _ _
  case lobbyMonitor => exact Layout.built_lobbyMonitor.roundTrip.readsWhole.run hb _ _
  -- The bodies of the other kinds are empty.
  all_goals
    cases hb
    rfl

end Packet

end GameWire
