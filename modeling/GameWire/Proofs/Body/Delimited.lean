import GameWire.Proofs.Body.Writing

/-!
# Bodies that end where their fields do

Most layouts take from a body what belongs to them and nothing else: bytes that come behind it are
left over.  A whole body leaves nothing over, so a body of such a kind is neither the front of
another one nor has another one at its front.
-/

namespace GameWire

/-! ## Readings -/

/-- A reading that leaves alone what comes behind the bytes that it takes. -/
def Reading.Delimited {α : Type} (read : Reading α) : Prop :=
  ∀ r x r', read r = .ok x r' → ∀ more : Bytes,
    read { r with rest := r.rest ++ more } = .ok x { r' with rest := r'.rest ++ more }

namespace Reading

variable {α β : Type}

theorem delimited_pure (x : α) : Delimited (pure x) := by
  intro r y r' h more
  cases h
  rfl

theorem Delimited.bind {read : Reading α} {next : α → Reading β} (h : read.Delimited)
    (hnext : ∀ x, (next x).Delimited) : Delimited (read >>= next) := by
  intro r y r' hy more
  obtain ⟨x, s, hread, hy⟩ := bind_eq_ok hy
  rw [bind_ok (h r x s hread more)]
  exact hnext x s y r' hy more

theorem Delimited.map {read : Reading α} (h : read.Delimited) (f : α → β) :
    Delimited (f <$> read) := by
  intro r y r' hy more
  obtain ⟨x, hread, rfl⟩ := map_eq_ok hy
  exact map_ok (h r x r' hread more) f

end Reading

open Reading

namespace BodyReader

theorem delimited_bytes (n : Nat) : (bytes n).Delimited := by
  intro r bs r' h more
  obtain ⟨hlength, hfront⟩ := bytes_eq_ok_iff.1 h
  exact bytes_eq_ok_iff.2 ⟨hlength, hfront.behind more⟩

theorem delimited_skip (n : Nat) : (skip n).Delimited :=
  (delimited_bytes n).bind fun _ => delimited_pure ()

theorem delimited_number (width : Nat) : (number width).Delimited :=
  (delimited_bytes width).bind fun bs => delimited_pure (Bytes.ofLE bs)

end BodyReader

/-! ## Texts -/

namespace MaskedText

theorem delimited_read (mask : LengthMask) : (read mask).Delimited := by
  intro r s r' h more
  obtain ⟨f, hs, hfront⟩ := exists_field_of_read h
  exact hs.read (hfront.behind more)

/-- Under every mask a text without NULs, short enough to be counted, is written, and it is read
back from the front of whatever follows.  Any reading of a text takes one field: the four bytes of
the count, and two for each unit that is counted and for the one that fills up an odd count.  It
yields the text that the units before the first NUL spell. -/
theorem selfDelimiting (mask : LengthMask) :
    (∀ s, Writable s → ∃ out, write mask s = .ok out ∧
      ∀ (context : String) (consumed : Nat) (tail : Bytes),
        read mask ⟨context, consumed, out ++ tail⟩ =
          .ok s ⟨context, consumed + out.length, tail⟩) ∧
      ∀ r s r', read mask r = .ok s r' ↔
        ∃ f : Field mask, r.Advances f.bytes r' ∧
          f.bytes.length = 4 + 2 * (f.count + f.count % 2) ∧ f.Spells s := by
  constructor
  · intro s hs
    obtain ⟨out, hout⟩ := (written_write mask s).exists_ok hs
    exact ⟨out, hout, Layout.roundTrip_text mask s out hout⟩
  · intro r s r'
    rw [read_eq_ok_iff]
    constructor
    · rintro ⟨f, hs, hfront⟩
      exact ⟨f, hfront, f.length_bytes, hs⟩
    · rintro ⟨f, hfront, -, hs⟩
      exact ⟨f, hs, hfront⟩

-- The count wraps around under this mask.  A field that was not written has more units behind a NUL
-- and a padding that is not zero.
theorem selfDelimiting_wrapped :
    let mask : LengthMask := ⟨0xFFFFFFFF, 0x80000001⟩
    let out : Bytes := [3, 0, 0, 0x80, 0x3D, 0xD8, 0, 0xDE, 0, 0, 0, 0]
    let found : Bytes := [3, 0, 0, 0x80, 0x68, 0, 0, 0, 0x78, 0, 0xFF, 0xFE]
    Writable "😀" ∧ write mask "😀" = .ok out ∧
      read mask ⟨"text", 5, out ++ [7]⟩ = .ok "😀" ⟨"text", 17, [7]⟩ ∧
      read mask ⟨"text", 5, found ++ [7]⟩ = .ok "h" ⟨"text", 17, [7]⟩ := by
  intro mask out found
  have hs : Writable "😀" := ⟨by decide, by decide⟩
  have hout : write ⟨0xFFFFFFFF, 0x80000001⟩ "😀" = .ok out := rfl
  obtain ⟨written, hwritten, hread⟩ := (selfDelimiting mask).1 "😀" hs
  cases hout.symm.trans hwritten
  obtain ⟨f, hf, hspells⟩ :
      ∃ f : Field ⟨0xFFFFFFFF, 0x80000001⟩, f.bytes = found ∧ f.Spells "h" :=
    ⟨⟨0x80000003, [0x68, 0, 0x78], [0xFF, 0xFE], by decide, by decide⟩, rfl, rfl⟩
  have hadvances : BodyReader.Advances ⟨"text", 5, found ++ [7]⟩ f.bytes ⟨"text", 17, [7]⟩ := by
    rw [hf]
    exact ⟨rfl, rfl, rfl⟩
  exact ⟨hs, hout, hread "text" 5 [7],
    ((selfDelimiting mask).2 _ _ _).2 ⟨f, hadvances, f.length_bytes, hspells⟩⟩

end MaskedText

/-! ## Layouts -/

theorem Layout.Built.delimited {α : Type} {l : Layout α} (h : l.Built) : l.read.Delimited := by
  induction h with
  | u8 => exact (BodyReader.delimited_number 1).map _
  | u16 => exact (BodyReader.delimited_number 2).map _
  | u32 => exact (BodyReader.delimited_number 4).map _
  | u64 => exact (BodyReader.delimited_number 8).map _
  | fixed n => exact (BodyReader.delimited_bytes n).bind fun _ => delimited_pure _
  | gap n => exact BodyReader.delimited_skip n
  | text mask => exact MaskedText.delimited_read mask
  | both _ _ iha ihb => exact iha.bind fun _ => ihb.bind fun _ => delimited_pure _
  | as _ _ iha => exact iha.map _

/-! ## Whole bodies -/

/-- Nothing was left over of the shorter body, so the longer one has no more than it. -/
theorem BodyReader.eq_of_run_of_isPrefix {α : Type} {read : Reading α} (h : read.Delimited)
    {context : String} {a b : Bytes} {x y : α} (ha : run context read a = .ok x)
    (hb : run context read b = .ok y) (hab : a <+: b) : a = b := by
  obtain ⟨more, rfl⟩ := hab
  obtain ⟨r, hr, hend⟩ := run_eq_ok ha
  obtain ⟨s, hs, hrest⟩ := run_eq_ok hb
  have hmore := h _ x r hr more
  change read { context, rest := a ++ more } = _ at hmore
  rw [hs] at hmore
  cases hmore
  change r.rest ++ more = [] at hrest
  rw [hend, List.nil_append] at hrest
  rw [hrest, List.append_nil]

namespace Packet

/-- A kind whose bodies are made of fields.  The other two take all the bytes that are left. -/
structure Kind.HasFields (kind : Kind) : Prop where
  ne_request : kind ≠ .encryptionRequest
  ne_response : kind ≠ .encryptionResponse

theorem Kind.HasFields.delimited {kind : Kind} (h : kind.HasFields) :
    (readBody kind).Delimited := by
  cases kind with
  | initialLoad | loadingScreenTransition | serverPing | serverPong | finishLoading
  | unlockControls | questCounterRequest | clientGoodbye | settingsRequest =>
    exact delimited_pure _
  | serverHello => exact Layout.built_serverHello.delimited.map _
  | serverHelloNgs => exact Layout.built_serverHelloNgs.delimited.map _
  | mapLoaded => exact Layout.built_mapLoaded.delimited.map _
  | setPlayerId => exact Layout.built_setPlayerId.delimited.map _
  | chatMessage => exact Layout.built_chatMessage.delimited.map _
  | chatMessageNgs => exact Layout.built_chatMessageNgs.delimited.map _
  | clientPing => exact Layout.built_clientPing.delimited.map _
  | clientPong => exact Layout.built_clientPong.delimited.map _
  | systemMessage => exact Layout.built_systemMessage.delimited.map _
  | lobbyMonitor => exact Layout.built_lobbyMonitor.delimited.map _
  | encryptionRequest => exact absurd rfl h.ne_request
  | encryptionResponse => exact absurd rfl h.ne_response

theorem eq_of_decodeBody_of_isPrefix {kind : Kind} (h : kind.HasFields) {a b : Bytes}
    {p q : Packet} (ha : decodeBody kind a = .ok p) (hb : decodeBody kind b = .ok q)
    (hab : a <+: b) : a = b :=
  BodyReader.eq_of_run_of_isPrefix h.delimited ha hb hab

end Packet

end GameWire
