import GameWire.Settings.Problems

/-!
# Settings within their bounds

Each section is without problems exactly if it is within its bounds.  Two bounds are not those that
the messages state: of the timeout only whole seconds are compared with the largest number of them,
so a timeout below 301 seconds passes, and the length of a name is that of its UTF-8 form.
-/

namespace GameWire

/-! ## Bounds -/

structure CodecSettings.WithinBounds (s : CodecSettings) : Prop where
  enabledFormats : s.enabledFormats ≠ []
  format : s.format ∈ s.enabledFormats
  maxFrameSize : 8 ≤ s.maxFrameSize ∧ s.maxFrameSize ≤ 2 ^ 32 - 1

/-- What makes the settings of connections usable, if the timeout may have up to `longest`
nanoseconds. -/
structure ConnectionSettings.WithinBounds (files : FileSystem) (longest : Nat)
    (s : ConnectionSettings) : Prop where
  address : Address.isSocketAddress s.address = true
  connectTimeout : (Duration.ofMillis 100).nanos ≤ s.connectTimeout.nanos ∧
    s.connectTimeout.nanos ≤ longest
  readChunkSize : 64 ≤ s.readChunkSize ∧ s.readChunkSize ≤ 1024 * 1024
  decryptKey : ∀ path, s.decryptKey = some path → files.exists? path = true
  encryptKey : ∀ path, s.encryptKey = some path → files.exists? path = true

def CaptureSettings.WithinBounds (s : CaptureSettings) : Prop :=
  s.compress = true → 1 ≤ s.compressionLevel ∧ s.compressionLevel ≤ 22

/-- What makes the settings of the log usable, if names have the length that `measure` gives. -/
structure LoggingSettings.WithinBounds (files : FileSystem) (measure : String → Nat)
    (s : LoggingSettings) : Prop where
  appName : 1 ≤ measure s.appName ∧ measure s.appName ≤ 64
  output : s.logToConsole = true ∨ s.logToFile = true
  logFile : s.logToFile = true → ∃ path, s.logFilePath = some path ∧
    (Path.directoryPart path = "" ∨ files.isDirectory (Path.directoryPart path) = true)

structure Settings.WithinBounds (files : FileSystem) (longest : Nat) (measure : String → Nat)
    (s : Settings) : Prop where
  codec : s.codec.WithinBounds
  connection : s.connection.WithinBounds files longest
  capture : s.capture.WithinBounds
  logging : s.logging.WithinBounds files measure

/-! ## Each section -/

section Tests

variable {p : Prop} [Decidable p] {problem : SettingsProblem} {others : List SettingsProblem}

-- A test that finds a problem, and one that finds none.
theorem ite_problem_eq_nil_iff : (if p then [problem] else others) = [] ↔ ¬ p ∧ others = [] := by
  by_cases hp : p
  · simp [hp]
  · simp [hp]

theorem ite_passed_eq_nil_iff : (if p then [] else [problem]) = [] ↔ p := by
  by_cases hp : p
  · simp [hp]
  · simp [hp]

end Tests

namespace CodecSettings

theorem problems_eq_nil_iff {s : CodecSettings} : s.problems = [] ↔ s.WithinBounds := by
  have hformats : s.formatProblems = [] ↔ s.enabledFormats ≠ [] ∧ s.format ∈ s.enabledFormats := by
    unfold formatProblems
    rw [ite_problem_eq_nil_iff, ite_passed_eq_nil_iff, List.isEmpty_iff, List.contains_iff_mem]
  have hsize : s.frameSizeProblems = [] ↔ 8 ≤ s.maxFrameSize ∧ s.maxFrameSize ≤ 2 ^ 32 - 1 := by
    unfold frameSizeProblems headerLength
    rw [ite_problem_eq_nil_iff, ite_problem_eq_nil_iff, and_iff_left rfl]
    omega
  unfold problems
  rw [List.append_eq_nil_iff, hformats, hsize]
  exact ⟨fun h => ⟨h.1.1, h.1.2, h.2⟩, fun h => ⟨⟨h.enabledFormats, h.format⟩, h.maxFrameSize⟩⟩

end CodecSettings

namespace ConnectionSettings

variable {files : FileSystem} {s : ConnectionSettings}

theorem addressProblems_eq_nil_iff :
    s.addressProblems = [] ↔ Address.isSocketAddress s.address = true := by
  have hempty : s.address.isEmpty = true → ¬ Address.isSocketAddress s.address = true := by
    intro h
    rw [String.isEmpty_iff.1 h]
    decide
  unfold addressProblems
  rw [ite_problem_eq_nil_iff, ite_passed_eq_nil_iff]
  exact ⟨fun h => h.2, fun h => ⟨fun he => hempty he h, h⟩⟩

/-- Less than one second is lost when only whole seconds are compared. -/
theorem timeoutProblems_eq_nil_iff :
    s.timeoutProblems = [] ↔ (Duration.ofMillis 100).nanos ≤ s.connectTimeout.nanos ∧
      s.connectTimeout.nanos ≤ 301 * nanosPerSecond - 1 := by
  unfold timeoutProblems
  rw [ite_problem_eq_nil_iff, ite_problem_eq_nil_iff, and_iff_left rfl]
  show ¬ s.connectTimeout.nanos / 1000000 < 100 ∧ ¬ s.connectTimeout.nanos / 1000000000 > 300 ↔
    100 * 1000000 ≤ s.connectTimeout.nanos ∧ s.connectTimeout.nanos ≤ 301 * 1000000000 - 1
  omega

theorem chunkProblems_eq_nil_iff :
    s.chunkProblems = [] ↔ 64 ≤ s.readChunkSize ∧ s.readChunkSize ≤ 1024 * 1024 := by
  unfold chunkProblems
  rw [ite_problem_eq_nil_iff, ite_problem_eq_nil_iff, and_iff_left rfl]
  omega

theorem keyFileProblems_eq_nil_iff {setting : String} {path? : Option String} :
    keyFileProblems files setting path? = [] ↔
      ∀ path, path? = some path → files.exists? path = true := by
  unfold keyFileProblems
  cases path? with
  | none => simp
  | some path => simp

theorem problems_eq_nil_iff :
    s.problems files = [] ↔ s.WithinBounds files (301 * nanosPerSecond - 1) := by
  unfold problems
  simp only [List.append_eq_nil_iff, addressProblems_eq_nil_iff, timeoutProblems_eq_nil_iff,
    chunkProblems_eq_nil_iff, keyFileProblems_eq_nil_iff]
  exact ⟨fun ⟨⟨⟨⟨h₁, h₂⟩, h₃⟩, h₄⟩, h₅⟩ => ⟨h₁, h₂, h₃, h₄, h₅⟩,
    fun h => ⟨⟨⟨⟨h.address, h.connectTimeout⟩, h.readChunkSize⟩, h.decryptKey⟩, h.encryptKey⟩⟩

end ConnectionSettings

theorem CaptureSettings.problems_eq_nil_iff {s : CaptureSettings} :
    s.problems = [] ↔ s.WithinBounds := by
  unfold problems WithinBounds
  rw [ite_problem_eq_nil_iff, not_and, not_or, Int32.not_lt, Int32.not_lt, and_iff_left rfl]

namespace LoggingSettings

variable {files : FileSystem} {s : LoggingSettings}

theorem appNameProblems_eq_nil_iff :
    s.appNameProblems = [] ↔
      1 ≤ (Utf8.encode s.appName).length ∧ (Utf8.encode s.appName).length ≤ 64 := by
  unfold appNameProblems
  rw [ite_problem_eq_nil_iff, ite_problem_eq_nil_iff, and_iff_left rfl]
  omega

theorem logFileProblems_eq_nil_iff :
    s.logFileProblems files = [] ↔ (s.logToFile = true → ∃ path, s.logFilePath = some path ∧
      (Path.directoryPart path = "" ∨ files.isDirectory (Path.directoryPart path) = true)) := by
  unfold logFileProblems
  by_cases hfile : s.logToFile = true
  · rw [if_pos hfile]
    cases s.logFilePath with
    | none => simp [hfile]
    | some path =>
      simp only [ite_passed_eq_nil_iff, Bool.or_eq_true, String.isEmpty_iff]
      simp [hfile]
  · simp [hfile]

theorem problems_eq_nil_iff :
    s.problems files = [] ↔ s.WithinBounds files fun name => (Utf8.encode name).length := by
  unfold problems
  simp only [List.append_eq_nil_iff, appNameProblems_eq_nil_iff, ite_passed_eq_nil_iff,
    logFileProblems_eq_nil_iff]
  exact ⟨fun ⟨⟨h₁, h₂⟩, h₃⟩ => ⟨h₁, h₂, h₃⟩, fun h => ⟨⟨h.appName, h.output⟩, h.logFile⟩⟩

end LoggingSettings

/-! ## All settings -/

/-- Every character takes a byte at least. -/
theorem Utf8.length_le_length_encode (s : String) : s.length ≤ (Utf8.encode s).length := by
  have hone (c : Char) : 1 ≤ (String.utf8EncodeChar c).length := by
    rw [String.length_utf8EncodeChar]
    exact c.utf8Size_pos
  have hall : ∀ cs : List Char, cs.length ≤ (cs.flatMap String.utf8EncodeChar).length := by
    intro cs
    induction cs with
    | nil => exact Nat.le_refl 0
    | cons c cs ih =>
      rw [List.flatMap_cons, List.length_append, List.length_cons]
      have := hone c
      omega
  exact hall s.toList

theorem Utf8.length_pos_of_encode {s : String} (h : 1 ≤ (encode s).length) : 1 ≤ s.length := by
  apply Nat.pos_of_ne_zero
  intro hs
  have hnil : s.toList = [] := List.length_eq_zero_iff.1 hs
  unfold encode at h
  rw [hnil] at h
  exact absurd h (by decide)

namespace Settings

variable {files : FileSystem} {s : Settings}

theorem problems_eq_nil_iff_withinBounds :
    s.problems files = [] ↔
      s.WithinBounds files (301 * nanosPerSecond - 1) fun name => (Utf8.encode name).length := by
  unfold problems
  simp only [List.append_eq_nil_iff, CodecSettings.problems_eq_nil_iff,
    ConnectionSettings.problems_eq_nil_iff, CaptureSettings.problems_eq_nil_iff,
    LoggingSettings.problems_eq_nil_iff]
  exact ⟨fun ⟨⟨⟨h₁, h₂⟩, h₃⟩, h₄⟩ => ⟨h₁, h₂, h₃, h₄⟩,
    fun h => ⟨⟨⟨h.codec, h.connection⟩, h.capture⟩, h.logging⟩⟩

theorem check_eq_ok_iff : s.check files = .ok () ↔ s.problems files = [] := by
  unfold check
  cases s.problems files with
  | nil => simp
  | cons problem problems => simp

/-- Two bounds on the timeout, and two measures of the name, come to the same within the smaller
one. -/
theorem withinBounds_iff {longest longest' : Nat} {measure measure' : String → Nat}
    (hl : longest ≤ longest') (hm : measure s.logging.appName ≤ measure' s.logging.appName)
    (hpos : 1 ≤ measure' s.logging.appName → 1 ≤ measure s.logging.appName) :
    s.WithinBounds files longest' measure' ∧ s.connection.connectTimeout.nanos ≤ longest ↔
      s.WithinBounds files longest measure ∧ measure' s.logging.appName ≤ 64 := by
  constructor
  · intro ⟨⟨hcodec, hconnection, hcapture, hlogging⟩, htimeout⟩
    have hname := hlogging.appName
    exact ⟨⟨hcodec, { hconnection with connectTimeout := ⟨hconnection.connectTimeout.1, htimeout⟩ },
      hcapture, { hlogging with appName := ⟨hpos hname.1, by omega⟩ }⟩, hname.2⟩
  · intro ⟨⟨hcodec, hconnection, hcapture, hlogging⟩, hname⟩
    have htimeout := hconnection.connectTimeout
    have hlength := hlogging.appName
    exact ⟨⟨hcodec, { hconnection with connectTimeout := ⟨htimeout.1, by omega⟩ }, hcapture,
      { hlogging with appName := ⟨by omega, hname⟩ }⟩, htimeout.2⟩

/-- Settings have no problem exactly if they are within their bounds, where the timeout is below 301
seconds and the name has up to 64 bytes in UTF-8; and this is when they pass the check.  For a
timeout of up to 300 seconds and a name of up to 64 bytes these are the bounds that the messages
state, with the name measured in characters. -/
theorem passes_iff_withinBounds (files : FileSystem) (s : Settings) :
    (s.problems files = [] ↔
        s.WithinBounds files (301 * nanosPerSecond - 1) fun name => (Utf8.encode name).length) ∧
      (s.check files = .ok () ↔ s.problems files = []) ∧
      (s.problems files = [] ∧ s.connection.connectTimeout.nanos ≤ 300 * nanosPerSecond ↔
        s.WithinBounds files (300 * nanosPerSecond) String.length ∧
          (Utf8.encode s.logging.appName).length ≤ 64) := by
  refine ⟨problems_eq_nil_iff_withinBounds, check_eq_ok_iff, ?_⟩
  rw [problems_eq_nil_iff_withinBounds]
  exact withinBounds_iff (by decide) (Utf8.length_le_length_encode _) Utf8.length_pos_of_encode

/-- The bounds on the timeout and on the name are not the ones that the messages state: a timeout of
300.999 seconds passes, and a name of 33 characters does not. -/
theorem bounds_not_as_stated :
    let files : FileSystem := ⟨fun _ => false, fun _ => false⟩
    let slow : Settings := { connection := { connectTimeout := .ofMillis 300999 } }
    let named : Settings := { logging := { appName := String.ofList (List.replicate 33 'é') } }
    slow.problems files = [] ∧ ¬ slow.WithinBounds files (300 * nanosPerSecond) String.length ∧
      named.problems files = [.longAppName 66] ∧
      named.WithinBounds files (300 * nanosPerSecond) String.length := by
  intro files slow named
  have hslow : slow.problems files = [] := by decide
  have hnamed : named.problems files = [.longAppName 66] := by decide
  refine ⟨hslow, fun h => absurd h.connection.connectTimeout.2 (by decide), hnamed, ?_, ?_, ?_, ?_⟩
  · exact ⟨by decide, by decide, by decide⟩
  · exact ⟨by decide, by decide, by decide, (fun path h => by cases h), (fun path h => by cases h)⟩
  · exact fun h => by cases h
  · exact ⟨by decide, by decide, fun h => by cases h⟩

end Settings

end GameWire
