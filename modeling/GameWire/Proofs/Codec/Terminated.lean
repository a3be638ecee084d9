import GameWire.Proofs.Bytes
import GameWire.Proofs.Codec.Serialized

/-!
# Streams of terminated documents

JSON that is written for a packet holds no control character, since the texts in it are escaped.  So
the NUL bytes of a stream of terminated documents are exactly their ends, and the stream falls apart
into the documents again.
-/

namespace GameWire

namespace Json

/-! ## Control characters -/

/-- Whether a byte string is free of control characters. -/
def Printable (bs : Bytes) : Prop := ∀ b ∈ bs, 0x20 ≤ b

theorem printable_nil : Printable [] := fun _ hb => absurd hb List.not_mem_nil

theorem Printable.cons {b : UInt8} {bs : Bytes} (hb : 0x20 ≤ b) (hbs : Printable bs) :
    Printable (b :: bs) :=
  List.forall_mem_cons.2 ⟨hb, hbs⟩

theorem Printable.append {front back : Bytes} (hfront : Printable front) (hback : Printable back) :
    Printable (front ++ back) :=
  List.forall_mem_append.2 ⟨hfront, hback⟩

theorem Printable.zero_notMem {bs : Bytes} (h : Printable bs) : 0 ∉ bs :=
  fun hb => absurd (h 0 hb) (by decide)

/-! ## What is written -/

theorem le_of_hexValue? {b : UInt8} (h : (hexValue? b).isSome) : 0x20 ≤ b :=
  Bytes.forall_byte (P := fun b => (hexValue? b).isSome → 0x20 ≤ b) (by decide +kernel) b h

theorem le_of_unescapeLetter? {b : UInt8} (h : (unescapeLetter? b).isSome) : 0x20 ≤ b :=
  Bytes.forall_byte (P := fun b => (unescapeLetter? b).isSome → 0x20 ≤ b) (by decide +kernel) b h

/-- The four digits of an escape are digits each. -/
theorem isSome_of_hexUnit? {h₁ h₂ h₃ h₄ : UInt8} (h : (hexUnit? h₁ h₂ h₃ h₄).isSome) :
    (hexValue? h₁).isSome ∧ (hexValue? h₂).isSome ∧ (hexValue? h₃).isSome ∧
      (hexValue? h₄).isSome := by
  unfold hexUnit? at h
  cases hv₁ : hexValue? h₁ <;> cases hv₂ : hexValue? h₂ <;> cases hv₃ : hexValue? h₃ <;>
    cases hv₄ : hexValue? h₄ <;> simp [hv₁, hv₂, hv₃, hv₄] at h ⊢

/-- What stands between quotation marks holds no control character, escaped or not. -/
theorem Literal.printable {bs : Bytes} (h : Literal bs) : Printable bs := by
  induction h with
  | nil => exact printable_nil
  | plain _ _ hcontrol _ ih => exact ih.cons (UInt8.not_lt.1 hcontrol)
  | letter hletter _ ih => exact (ih.cons (le_of_unescapeLetter? hletter)).cons (by decide)
  | unit hunit _ ih =>
    obtain ⟨h₁, h₂, h₃, h₄⟩ := isSome_of_hexUnit? hunit
    have hdigits := (((ih.cons (le_of_hexValue? h₄)).cons (le_of_hexValue? h₃)).cons
      (le_of_hexValue? h₂)).cons (le_of_hexValue? h₁)
    exact (hdigits.cons (by decide)).cons (by decide)

theorem printable_quote (s : String) : Printable (quote s) := by
  have hliteral := (literal_flatMap_escape (Utf8.encode s)).printable
  exact (hliteral.append (printable_nil.cons (by decide))).cons (by decide)

theorem printable_digits (n : Nat) : Printable (digits n) := by
  intro d hd
  have h := isDigit_of_mem_digits n d hd
  unfold isDigit at h
  rw [Bool.and_eq_true, decide_eq_true_iff] at h
  exact UInt8.le_trans (by decide) h.1

/-- A comma stands before every part but the first. -/
theorem printable_comma (first : Bool) : Printable (if first then [] else [0x2C]) := by
  cases first with
  | true => exact printable_nil
  | false => exact printable_nil.cons (by decide)

mutual

theorem printable_write : ∀ o : Outline, Printable (write o)
  | .number n => printable_digits n
  | .text s => printable_quote s
  | .list items => (printable_writeItems true items).cons (by decide)
  | .record fields => (printable_writeFields true fields).cons (by decide)
  | .tagged tag payload =>
    (((printable_quote tag).append ((printable_write payload).cons (by decide))).append
      (printable_nil.cons (by decide))).cons (by decide)

theorem printable_writeItems (first : Bool) : ∀ items, Printable (writeItems first items)
  | [] => printable_nil.cons (by decide)
  | item :: items =>
    ((printable_comma first).append (printable_write item)).append
      (printable_writeItems false items)

theorem printable_writeFields (first : Bool) : ∀ fields, Printable (writeFields first fields)
  | [] => printable_nil.cons (by decide)
  | (name, value) :: fields =>
    (((printable_comma first).append (printable_quote name)).append
      ((printable_write value).cons (by decide))).append (printable_writeFields false fields)

end

end Json

/-! ## Documents and their ends -/

/-- Where no document holds the byte that ends each of them, the ends are where they are cut. -/
theorem splitOn_flatten_terminated {docs : List Bytes} (h : ∀ doc ∈ docs, 0 ∉ doc) :
    (docs.map (· ++ [0])).flatten.splitOn 0 = docs ++ [[]] := by
  have hjoin : (docs.map (· ++ [0])).flatten = [0].intercalate (docs ++ [[]]) := by
    induction docs with
    | nil => rfl
    | cons doc docs ih =>
      obtain ⟨next, more, hmore⟩ := List.exists_cons_of_ne_nil (show docs ++ [[]] ≠ [] by simp)
      rw [List.map_cons, List.flatten_cons, ih fun d hd => h d (List.mem_cons_of_mem _ hd),
        List.cons_append, hmore, List.intercalate_cons_cons]
  rw [hjoin]
  apply List.splitOn_intercalate
  · intro doc hdoc
    rcases List.mem_append.1 hdoc with hdoc | hdoc
    · exact h doc hdoc
    · rw [List.mem_singleton.1 hdoc]
      exact List.not_mem_nil
  · simp

namespace Codec

def encodeSerializedAll (c : Codec) : List Model → List (Except ProtocolError Bytes)
  | [] => []
  | m :: ms => (c.encodeSerialized m).result :: (c.encodeSerialized m).state.encodeSerializedAll ms

/-- The error slot, all that a call changes, has no part in what is written. -/
theorem encodeSerializedAll_eq_map (c : Codec) (ms : List Model) :
    c.encodeSerializedAll ms = ms.map c.serialize := by
  induction ms generalizing c with
  | nil => rfl
  | cons m ms ih =>
    rw [encodeSerializedAll, ih, List.map_cons]
    rfl

theorem serialize_terminated {c : Codec} {m : Model} (hdialect : m.dialect = c.dialect)
    (hformat : c.format = .json) (hterminator : c.settings.jsonNulTerminator = true) :
    c.serialize m = .ok (m.packet.serialize .json ++ [0]) := by
  unfold serialize Model.ensureDialect
  rw [if_pos hdialect]
  simp only [hformat, hterminator, and_self, if_true]
  rfl

/-- A document is read back with its terminator and without it. -/
theorem deserialize_document {reader : Codec} {m : Model} (hdialect : m.dialect = reader.dialect)
    (hformat : reader.format = .json) (hvalid : m.packet.isValidFor reader.dialect = true)
    (terminated : Bool) :
    reader.deserialize
        (if terminated then m.packet.serialize .json ++ [0] else m.packet.serialize .json) =
      .ok m := by
  have hdrop := dropTerminator_serialize (f := .json) (g := .json) Iff.rfl m.packet terminated
  simp only [true_and] at hdrop
  unfold deserialize
  rw [hformat, hdrop, Packet.deserialize_serialize_json]
  show (if m.packet.isValidFor reader.dialect then Except.ok (Model.mk reader.dialect m.packet)
    else _) = _
  rw [if_pos hvalid, ← hdialect]

/-- JSON holds no control character, whatever the packet.  So the terminated documents of any models
fall apart again when they are cut at the NUL bytes, and each is read back as its model with its
terminator or without it. -/
theorem splitOn_encodeSerializedAll {c : Codec} {ms : List Model} (hformat : c.format = .json)
    (hterminator : c.settings.jsonNulTerminator = true)
    (hms : ∀ m ∈ ms, m.dialect = c.dialect ∧ m.packet.isValidFor c.dialect = true) :
    let document (m : Model) : Bytes := m.packet.serialize .json
    (∀ p : Packet, ∀ b ∈ p.serialize .json, 0x20 ≤ b) ∧
      c.encodeSerializedAll ms = ms.map (fun m => .ok (document m ++ [0])) ∧
      (ms.flatMap fun m => document m ++ [0]).splitOn 0 = ms.map document ++ [[]] ∧
      ∀ m ∈ ms, ∀ reader : Codec, reader.dialect = c.dialect → reader.format = .json →
        (reader.decodeSerialized (document m)).result = .ok m ∧
          (reader.decodeSerialized (document m ++ [0])).result = .ok m := by
  intro document
  have hprintable : ∀ p : Packet, Json.Printable (p.serialize .json) := fun p =>
    Json.printable_write p.outline
  refine ⟨hprintable, ?_, ?_, ?_⟩
  · rw [encodeSerializedAll_eq_map]
    exact List.map_congr_left fun m hm => serialize_terminated (hms m hm).1 hformat hterminator
  · have hdocs : ∀ doc ∈ ms.map document, 0 ∉ doc :=
      List.forall_mem_map.2 fun m _ => (hprintable m.packet).zero_notMem
    rw [← splitOn_flatten_terminated hdocs, List.map_map]
    rfl
  · intro m hm reader hdialect hreader
    obtain ⟨hm, hvalid⟩ := hms m hm
    rw [← hdialect] at hm hvalid
    exact ⟨deserialize_document hm hreader hvalid false,
      deserialize_document hm hreader hvalid true⟩

theorem splitOn_encodeSerializedAll_controls :
    let c : Codec :=
      { ofDialect .classic with settings := { ({} : CodecSettings) with jsonNulTerminator := true } }
    let first : Model :=
      { dialect := .classic, packet := .systemMessage { message := "\x00\n\\", unk := "\x7F" } }
    let second : Model := { dialect := .classic, packet := .empty }
    (∀ m ∈ [first, second], m.dialect = c.dialect ∧ m.packet.isValidFor c.dialect = true) ∧
      c.encodeSerializedAll [first, second] =
        [first, second].map (fun m => .ok (m.packet.serialize .json ++ [0])) ∧
      ([first, second].flatMap fun m => m.packet.serialize .json ++ [0]).splitOn 0 =
        [first.packet.serialize .json, second.packet.serialize .json, []] := by
  intro c first second
  have hms : ∀ m ∈ [first, second],
      m.dialect = c.dialect ∧ m.packet.isValidFor c.dialect = true := by decide
  obtain ⟨-, houts, hsplit, -⟩ := splitOn_encodeSerializedAll (c := c) rfl rfl hms
  exact ⟨hms, houts, hsplit⟩

end Codec

end GameWire
