import GameWire.Proofs.Capture.Reading

/-!
# Cut captures

A capture of any version that is cut short still yields every record that is whole.
-/

namespace GameWire

def CaptureHeader.bytes (version id : UInt8) : Bytes :=
  magic ++ version :: ((if version < 3 then [] else [id]) ++ if version < 4 then [] else [0])

/-- The records that are whole in the first bytes of a file's records. -/
def LaidRecord.wholeWithin (version : UInt8) : (kept : Nat) → List LaidRecord → List LaidRecord
  | _, [] => []
  | kept, r :: records =>
    if (r.bytes version).length ≤ kept then
      r :: wholeWithin version (kept - (r.bytes version).length) records
    else []

theorem CaptureHeader.read_bytes {version id : UInt8} (hv : version ≤ currentVersion)
    {dialect : Dialect} (hid : dialect.captureId? = some id) (rest : Bytes) :
    read { bytes := bytes version id ++ rest } =
      .ok ({ version, dialect := if version < 3 then .ngs else dialect, compressed := false },
        { bytes := rest }) := by
  have hmagic := ByteSource.readExactly_append truncated magic
    (version :: ((if version < 3 then [] else [id]) ++ ((if version < 4 then [] else [0]) ++ rest)))
    none
  have hversion : ¬ currentVersion < version := UInt8.not_lt.2 hv
  have hdialect : ∀ rest, readDialect version
      { bytes := (if version < 3 then [] else [id]) ++ rest } =
        .ok (if version < 3 then .ngs else dialect, { bytes := rest }) := by
    intro rest
    unfold readDialect
    by_cases h : version < 3
    · simp only [if_pos h, List.nil_append]
    · simp only [if_neg h, List.singleton_append, readByte_cons, bind, Except.bind,
        Dialect.ofCaptureId?_eq_some_iff.2 hid]
      rfl
  have hcompressed : readCompressed version
      { bytes := (if version < 4 then [] else [0]) ++ rest } = .ok (false, { bytes := rest }) := by
    unfold readCompressed
    by_cases h : version < 4
    · simp only [if_pos h, List.nil_append]
    · simp only [if_neg h, List.singleton_append, readByte_cons]
      rfl
  unfold read bytes
  rw [List.append_assoc, List.cons_append]
  simp only [hmagic, readByte_cons, hversion, List.append_assoc, hdialect, hcompressed, ne_eq,
    not_true_eq_false, if_false, bind, Except.bind, pure, Except.pure]

namespace LaidRecord

variable {version : UInt8} {records : List LaidRecord}

theorem mem_of_mem_wholeWithin {kept : Nat} {laid : LaidRecord}
    (h : laid ∈ wholeWithin version kept records) : laid ∈ records := by
  induction records generalizing kept with
  | nil => exact h
  | cons r records ih =>
    unfold wholeWithin at h
    by_cases hr : (r.bytes version).length ≤ kept
    · rw [if_pos hr] at h
      cases List.mem_cons.1 h with
      | inl h => exact h ▸ List.mem_cons_self
      | inr h => exact List.mem_cons_of_mem _ (ih h)
    · rw [if_neg hr] at h
      cases h

theorem wholeWithin_length (version : UInt8) (records : List LaidRecord) :
    wholeWithin version (records.flatMap (bytes version)).length records = records := by
  induction records with
  | nil => rfl
  | cons r records ih =>
    unfold wholeWithin
    rw [List.flatMap_cons, List.length_append, if_pos (Nat.le_add_right _ _),
      Nat.add_sub_cancel_left, ih]

/-- Behind the whole records there is nothing, or a part of a record. -/
theorem exists_take_eq (version : UInt8) (kept : Nat) (records : List LaidRecord) :
    ∃ rest, (records.flatMap (bytes version)).take kept =
        (wholeWithin version kept records).flatMap (bytes version) ++ rest ∧
      (rest = [] ∨ ∃ laid ∈ records, ∃ part, 0 < part ∧ part < (laid.bytes version).length ∧
        rest = (laid.bytes version).take part) := by
  induction records generalizing kept with
  | nil => exact ⟨[], List.take_nil, .inl rfl⟩
  | cons r records ih =>
    unfold wholeWithin
    rw [List.flatMap_cons, List.take_append]
    by_cases hr : (r.bytes version).length ≤ kept
    · obtain ⟨rest, htake, hrest⟩ := ih (kept - (r.bytes version).length)
      refine ⟨rest, ?_, ?_⟩
      · rw [if_pos hr, List.take_of_length_le hr, htake, List.flatMap_cons, List.append_assoc]
      · cases hrest with
        | inl hrest => exact .inl hrest
        | inr hrest =>
          obtain ⟨laid, hlaid, hpart⟩ := hrest
          exact .inr ⟨laid, List.mem_cons_of_mem _ hlaid, hpart⟩
    · have hlt : kept < (r.bytes version).length := Nat.lt_of_not_le hr
      refine ⟨(r.bytes version).take kept, ?_, ?_⟩
      · rw [if_neg hr, Nat.sub_eq_zero_of_le (Nat.le_of_lt hlt), List.take_zero, List.append_nil]
        rfl
      · by_cases hk : kept = 0
        · left
          rw [hk, List.take_zero]
        · exact .inr ⟨r, List.mem_cons_self, kept, Nat.pos_of_ne_zero hk, hlt, rfl⟩

end LaidRecord

namespace CaptureReader

/-- However many bytes of a capture's records are left, a reader yields the results of the records
that are whole, and then finds the end if nothing of another record is left, and fails otherwise.
Once it has failed it reads nothing more. -/
theorem ofSource_cut {version id : UInt8} (hv : version ≤ CaptureHeader.currentVersion)
    {dialect : Dialect} (hid : dialect.captureId? = some id) {records : List LaidRecord}
    (hf : ∀ laid ∈ records, laid.Fits version) (kept : Nat) (output : CaptureOutput)
    (settings : CodecSettings) :
    let cut := (records.flatMap (LaidRecord.bytes version)).take kept
    let whole := LaidRecord.wholeWithin version kept records
    let codec := (Codec.ofSettings settings).setDialect (if version < 3 then .ngs else dialect)
    ∃ r, ofSource { bytes := CaptureHeader.bytes version id ++ cut } output settings = .ok r ∧
      r.header.dialect = (if version < 3 then .ngs else dialect) ∧
      r.Yields (whole.flatMap fun laid => output.resultsOf codec (laid.stored version))
        (if cut = whole.flatMap (LaidRecord.bytes version) then (.endOfFile, none)
          else (.formatError, none)) ∧
      ∀ i j, i < j → (r.after i).next.result = .formatError →
        (r.after j).yielded = (.formatError, none) ∧
          (r.after j).source = (r.after (i + 1)).source := by
  intro cut whole codec
  have hopen := CaptureHeader.read_bytes hv hid cut
  have hwhole : ∀ laid ∈ whole, laid.Fits version :=
    fun laid h => hf laid (LaidRecord.mem_of_mem_wholeWithin h)
  let r : CaptureReader :=
    { header := { version, dialect := if version < 3 then .ngs else dialect, compressed := false }
      source := { bytes := cut }, codec, output }
  have hr : ofSource { bytes := CaptureHeader.bytes version id ++ cut } output settings =
      .ok r := by
    unfold ofSource
    rw [hopen]
    rfl
  have hk : r.Knows version output codec := ⟨rfl, rfl, rfl, rfl, rfl⟩
  refine ⟨r, hr, rfl, ?_, fun i j hij h => after_failure hij h⟩
  obtain ⟨rest, htake, hrest⟩ := LaidRecord.exists_take_eq version kept records
  have hp : r.StandsAt
      ⟨whole.flatMap (LaidRecord.bytes version) ++ rest, [], .ofSeconds 0, default⟩ :=
    ⟨congrArg (fun bytes => ({ bytes } : ByteSource)) htake, rfl, rfl, rfl, rfl⟩
  -- The whole records are yielded either way; what is left of the cut decides what comes then.
  rw [← List.append_nil (whole.flatMap _)]
  refine yields_of_records hwhole hk hp ?_
  intro r timestamp direction hk hp
  cases hrest with
  | inl hrest =>
    have hclean : cut = whole.flatMap (LaidRecord.bytes version) := by
      rw [hrest, List.append_nil] at htake
      exact htake
    subst hrest
    rw [if_pos hclean]
    exact yields_of_end hk hp
  | inr hrest =>
    obtain ⟨laid, hlaid, part, hpos, hpart, rfl⟩ := hrest
    -- A part of a record is not empty, so the cut is more than the whole records.
    have hdirty : cut ≠ whole.flatMap (LaidRecord.bytes version) := by
      intro hclean
      have hnil := List.append_right_eq_self.1 (htake.symm.trans hclean)
      have hlength := congrArg List.length hnil
      rw [List.length_take, List.length_nil] at hlength
      omega
    rw [if_neg hdirty]
    exact yields_of_cut (hf laid hlaid) hpos hpart hk hp

theorem ofSource_cut_secondRecord :
    let records : List LaidRecord := [⟨5, 7, []⟩, ⟨6, 0, [1, 2, 3]⟩]
    let cut := (records.flatMap (LaidRecord.bytes 1)).take 30
    (∀ laid ∈ records, laid.Fits 1) ∧
      ∃ r, ofSource { bytes := CaptureHeader.bytes 1 0 ++ cut } .raw {} = .ok r ∧
        r.header.dialect = .ngs ∧
        r.Yields
          [(.rawOnly, some
            { timestamp := { seconds := 5 }, direction := .toClient, dialect := .ngs
              data := some [] })]
          (.formatError, none) := by
  intro records cut
  have hf : ∀ laid ∈ records, laid.Fits 1 := by
    intro laid h
    simp only [records, List.mem_cons, List.not_mem_nil, or_false] at h
    cases h with
    | inl h => rw [h]; exact ⟨by decide, by decide⟩
    | inr h => rw [h]; exact ⟨by decide, by decide⟩
  obtain ⟨r, hopen, hdialect, hyields, -⟩ := ofSource_cut
    (show 1 ≤ CaptureHeader.currentVersion by decide)
    (show Dialect.classic.captureId? = some 0 from rfl) hf 30 .raw {}
  refine ⟨hf, r, hopen, hdialect, ?_⟩
  have hwhole : LaidRecord.wholeWithin 1 30 records = [⟨5, 7, []⟩] := rfl
  have hcut : cut ≠ [(⟨5, 7, []⟩ : LaidRecord)].flatMap (LaidRecord.bytes 1) := by decide
  rw [hwhole, if_pos (by decide), if_neg hcut] at hyields
  exact hyields

end CaptureReader

end GameWire
