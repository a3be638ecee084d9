import GameWire.Proofs.Settings.Shape
import GameWire.Settings.File

/-!
# Settings read back from their document

The document that settings are saved as holds all of them, as long as their whole numbers are ones
that a document can hold.  Where they are not there is no document, and nothing is stored.
-/

namespace GameWire

/-! ## Sections -/

namespace SettingShape

theorem isTotal_text : text.IsTotal := fun _ => nofun

theorem keeps_codec : codec.Keeps (·.maxFrameSize < 2 ^ 63) Any 1 :=
  have hformat {depth : Nat} :
      (choice SerialFormat.key SerialFormat.ofKey?).Keeps Any Any depth :=
    keeps_choice SerialFormat.ofKey?_key
  have hflag (name : String) : (Fields.optional name truth false).Keeps Any Any 1 :=
    .optional keeps_truth trivial fun _ => nofun
  Fields.Keeps.congr (.as (.both (.required (keeps_choice Dialect.ofKey?_key) fun _ => nofun)
    (.both (.required hformat fun _ => nofun)
    (.both (.required (hformat.list fun _ => nofun) fun _ => nofun)
    (.both (hflag _) (.both (hflag _)
    (.required keeps_size fun _ => nofun)))))) fun _ => rfl)
    (fun _ => by simp) fun _ _ => by simp [Any]

theorem keeps_connection :
    connection.Keeps (fun s => s.connectTimeout.toMillis < 2 ^ 63 ∧ s.readChunkSize < 2 ^ 63)
      (·.connectTimeout.IsWhole) 1 :=
  have hpath (name : String) : (Fields.optional name (maybe text) none).Keeps Any Any 1 :=
    .optional keeps_text.maybe trivial fun _ => isTotal_text.eq_none
  Fields.Keeps.congr (.as (.both (.required keeps_text fun _ => nofun)
    (.both (.required keeps_duration fun _ => nofun)
    (.both (.required keeps_size fun _ => nofun)
    (.both (.required keeps_truth fun _ => nofun)
    (.both (hpath _) (.both (hpath _)
    (.optional (keeps_choice CipherSuite.ofKey?_key) trivial fun _ => nofun))))))) fun _ => rfl)
    (fun _ => by simp) fun _ _ => by simpa

theorem keeps_capture : capture.Keeps Any Any 1 :=
  Fields.Keeps.congr (.as (.both (.required keeps_truth fun _ => nofun)
    (.both (.required keeps_level fun _ => nofun)
    (.required (keeps_choice CaptureOutput.ofKey?_key) fun _ => nofun))) fun _ => rfl)
    (fun _ => by simp) fun _ _ => by simp [Any]

theorem keeps_logging : logging.Keeps Any Any 1 :=
  Fields.Keeps.congr (.as (.both (.required keeps_text fun _ => nofun)
    (.both (.required keeps_logLevel fun _ => nofun)
    (.both (.required keeps_truth fun _ => nofun)
    (.both (.required keeps_truth fun _ => nofun)
    (.both (.optional keeps_text.maybe trivial fun _ => isTotal_text.eq_none)
    (.required keeps_truth fun _ => nofun)))))) fun _ => rfl)
    (fun _ => by simp) fun _ _ => by simp [Any]

end SettingShape

/-! ## Documents -/

namespace Settings

open SettingShape

/-- The whole numbers that settings are saved as. -/
def integers (s : Settings) : List Int :=
  [s.codec.maxFrameSize, s.connection.connectTimeout.toMillis, s.connection.readChunkSize,
    s.capture.compressionLevel.toInt]

theorem integers_le_iff (s : Settings) : (∀ n ∈ s.integers, n ≤ 2 ^ 63 - 1) ↔
    s.codec.maxFrameSize < 2 ^ 63 ∧ s.connection.connectTimeout.toMillis < 2 ^ 63 ∧
      s.connection.readChunkSize < 2 ^ 63 := by
  have hlevel : s.capture.compressionLevel.toInt < 2 ^ 31 := Int32.toInt_lt _
  simp only [integers, List.forall_mem_cons, List.not_mem_nil, false_implies, implies_true,
    and_true]
  omega

theorem legible_sections (s : Settings) : Toml.Legible s.sections where
  bare := by
    have hnames : ∀ name ∈ ["codec", "connection", "capture", "logging"], Toml.IsBareName name :=
      Toml.areBareNames rfl
    intro p hp
    have hmem : p.1 ∈ s.sections.map Prod.fst := List.mem_map_of_mem hp
    exact hnames p.1 hmem
  legible := by
    simp only [sections, List.forall_mem_cons]
    exact ⟨legibleSection_entries keeps_codec (Toml.areBareNames rfl) (by decide) (by decide) _,
      legibleSection_entries keeps_connection (Toml.areBareNames rfl) (by decide) (by decide) _,
      legibleSection_entries keeps_capture (Toml.areBareNames rfl) (by decide) (by decide) _,
      legibleSection_entries keeps_logging (Toml.areBareNames rfl) (by decide) (by decide) _,
      fun _ h => absurd h List.not_mem_nil⟩
  nodup := by
    show ["codec", "connection", "capture", "logging"].Nodup
    decide

theorem isSome_render?_sections_iff (s : Settings) :
    (Toml.render? s.sections).isSome = true ↔ ∀ n ∈ s.integers, n ≤ 2 ^ 63 - 1 := by
  rw [Toml.isSome_render?_iff, integers_le_iff]
  simp only [sections, List.forall_mem_cons, List.not_mem_nil, false_implies, implies_true]
  rw [isSome_write_entries keeps_codec, isSome_write_entries keeps_connection,
    isSome_write_entries keeps_capture, isSome_write_entries keeps_logging]
  simp

theorem ofTable?_sections {s : Settings} (hfits : ∀ n ∈ s.integers, n ≤ 2 ^ 63 - 1)
    (hwhole : s.connection.connectTimeout.IsWhole) :
    ofTable? (.table (s.sections.map fun p => (p.1, .table p.2))) = some s := by
  obtain ⟨hframe, hconnection⟩ := (integers_le_iff s).mp hfits
  have hfind : (Toml.Value.table (s.sections.map fun p => (p.1, .table p.2))).fields?
      SettingShape.settings.names = some (s.sections.map fun p => some (.table p.2)) := rfl
  refine (congrArg (Option.bind · SettingShape.settings.read?) hfind).trans ?_
  show SettingShape.settings.read? [some (.table (entries SettingShape.codec s.codec)),
    some (.table (entries SettingShape.connection s.connection)),
    some (.table (entries SettingShape.capture s.capture)),
    some (.table (entries SettingShape.logging s.logging))] = some s
  unfold SettingShape.settings
  simp only [Fields.as, Fields.both, Fields.optional, List.length_cons, List.length_nil,
    List.take_succ_cons, List.drop_succ_cons, List.take_zero, List.drop_zero]
  rw [read?_table keeps_codec (by decide) hframe trivial,
    read?_table keeps_connection (by decide) hconnection hwhole,
    read?_table keeps_capture (by decide) trivial trivial,
    read?_table keeps_logging (by decide) trivial trivial]
  rfl

/-- Settings whose numbers all fit are stored as a document that holds just them. -/
theorem exists_toToml {s : Settings} (hfits : ∀ n ∈ s.integers, n ≤ 2 ^ 63 - 1)
    (hwhole : s.connection.connectTimeout.IsWhole) :
    ∃ text, s.toToml = .ok text ∧ ofToml text = .ok s := by
  obtain ⟨text, htext⟩ := Option.isSome_iff_exists.mp ((isSome_render?_sections_iff s).mpr hfits)
  refine ⟨text, ?_, ?_⟩
  · unfold toToml
    rw [htext]
  · unfold ofToml
    rw [Toml.read?_render (legible_sections s) htext, Option.bind_some,
      ofTable?_sections hfits hwhole]

/-- There is no document of a number that does not fit. -/
theorem toToml_of_not_fits {s : Settings} (hfits : ¬ ∀ n ∈ s.integers, n ≤ 2 ^ 63 - 1) :
    s.toToml = .error (.config .cannotRender) := by
  have hnone : Toml.render? s.sections = none :=
    Option.not_isSome_iff_eq_none.mp fun h => hfits ((isSome_render?_sections_iff s).mp h)
  unfold toToml
  rw [hnone]

theorem save_eq {α : Type} (s : Settings) (store : String → Option α) :
    s.save store = s.saveBy (m := Id) fun text => pure (store text) := rfl

/-- Settings with a timeout of whole milliseconds are read back unchanged from the document that is
stored for them.  If one of their numbers is too large for a document, saving them fails without
doing anything at all. -/
theorem saveBy_reads_back (s : Settings) (hwhole : s.connection.connectTimeout.IsWhole) :
    ((∀ n ∈ s.integers, n ≤ 2 ^ 63 - 1) →
      ∃ text, ofToml text = .ok s ∧ ∀ (m : Type → Type) [Monad m] (α : Type)
        (store : String → m (Option α)), s.saveBy store = stored <$> store text) ∧
    ((¬ ∀ n ∈ s.integers, n ≤ 2 ^ 63 - 1) →
      ∀ (m : Type → Type) [Monad m] (α : Type) (store : String → m (Option α)),
        s.saveBy store = pure (.error (.config .cannotRender))) := by
  constructor
  · intro hfits
    obtain ⟨text, htext, hread⟩ := exists_toToml hfits hwhole
    refine ⟨text, hread, fun m _ α store => ?_⟩
    unfold saveBy
    rw [htext]
  · intro hfits m _ α store
    unfold saveBy
    rw [toToml_of_not_fits hfits]

/-- A name over two lines with marks of both kinds in it is kept, and a frame of 2⁶³ bytes is too
large to be. -/
theorem saveBy_reads_back_quoted :
    let kept : Settings :=
      { connection := { connectTimeout := .ofMillis 1500, decryptKey := some "keys\\private.pem" }
        logging := { appName := "it's a \"lobby\"\nmonitor\x7F" } }
    let refused : Settings := { codec := { maxFrameSize := 2 ^ 63 } }
    (∃ text, ofToml text = .ok kept ∧ kept.save some = .ok text) ∧
      refused.save some = .error (.config .cannotRender) := by
  intro kept refused
  have hkept : ∀ n ∈ kept.integers, n ≤ 2 ^ 63 - 1 :=
    (integers_le_iff kept).mpr ⟨by decide, by decide, by decide⟩
  have hrefused : ¬ ∀ n ∈ refused.integers, n ≤ 2 ^ 63 - 1 :=
    fun h => Nat.lt_irrefl _ ((integers_le_iff refused).mp h).1
  obtain ⟨text, hread, hsave⟩ := (saveBy_reads_back kept (Duration.isWhole_ofMillis 1500)).1 hkept
  have hfails := (saveBy_reads_back refused (Duration.isWhole_ofMillis 5000)).2 hrefused
  exact ⟨⟨text, hread, (save_eq kept some).trans (hsave Id String fun text => pure (some text))⟩,
    (save_eq refused some).trans (hfails Id String fun text => pure (some text))⟩

end Settings

end GameWire
