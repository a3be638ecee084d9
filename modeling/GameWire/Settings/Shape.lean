import GameWire.Naming
import GameWire.Settings
import GameWire.Shape
import GameWire.Toml.Value

/-!
# Settings in documents

How each setting stands in a document: under which name, as which kind of value, and whether it may
be left out. A setting that is outlined as `none` is left out in writing.
-/

namespace GameWire

/-- How a setting is outlined for writing and recognised in a document. -/
abbrev SettingShape (α : Type) := Shape (Option Toml.Value) Toml.Value α

namespace SettingShape

/-! ## Single settings -/

def truth : SettingShape Bool := ⟨fun b => some (.truth b), Toml.Value.truth?⟩

def text : SettingShape String := ⟨fun s => some (.text s), Toml.Value.text?⟩

/-- A size: below 2⁶⁴. -/
def size : SettingShape Nat where
  outline n := some (.integer n)
  read? v := do
    let n ← v.integer?
    if 0 ≤ n ∧ n < 2 ^ 64 then some n.toNat else none

/-- A time in whole milliseconds, of which there are fewer than 2⁶⁴. -/
def duration : SettingShape Duration where
  outline d := some (.integer (min d.toMillis (2 ^ 64 - 1)))
  read? v := (size.read? v).map .ofMillis

def level : SettingShape Int32 where
  outline n := some (.integer n.toInt)
  read? v := do
    let n ← v.integer?
    if -2 ^ 31 ≤ n ∧ n < 2 ^ 31 then some (Int32.ofInt n) else none

def choice {α : Type} (key : α → String) (ofKey? : String → Option α) : SettingShape α where
  outline x := some (.text (key x))
  read? v := v.name?.bind ofKey?

/-- The level of a number between one and five, in decimal, or of a name in any case. -/
def logLevelOfText? (s : String) : Option LogLevel :=
  match unsigned? s with
  | some n => if n = 0 then none else LogLevel.all[n - 1]?
  | none => LogLevel.all.find? fun l => l.key == s.map Char.toLower

def logLevel : SettingShape LogLevel where
  outline l := some (.text l.key)
  read? v := v.text?.bind logLevelOfText?

def list {α : Type} (item : SettingShape α) : SettingShape (List α) where
  outline xs := some (.array (xs.filterMap item.outline))
  read? v := v.array?.bind (·.mapM item.read?)

/-- A setting that need not be set. -/
def maybe {α : Type} (item : SettingShape α) : SettingShape (Option α) where
  outline x := x.bind item.outline
  read? v := (item.read? v).map some

/-! ## Sections -/

/-- Names with the settings under them, without those that are left out. -/
abbrev Section (α : Type) := Fields (Option Toml.Value) Toml.Value α

def entries {α : Type} (fields : Section α) (x : α) : List (String × Toml.Value) :=
  (fields.names.zip (fields.outlines x)).filterMap fun (name, value?) =>
    value?.map fun value => (name, value)

def table {α : Type} (fields : Section α) : SettingShape α where
  outline x := some (.table (entries fields x))
  read? v := (v.fields? fields.names).bind fields.read?

def codec : Section CodecSettings :=
  ((Fields.required "dialect" (choice Dialect.key Dialect.ofKey?)).both
    ((Fields.required "format" (choice SerialFormat.key SerialFormat.ofKey?)).both
    ((Fields.required "enabled_formats" (list (choice SerialFormat.key SerialFormat.ofKey?))).both
    ((Fields.optional "allow_unknown_packets" truth false).both
    ((Fields.optional "json_nul_terminator" truth false).both
    (Fields.required "max_frame_size" size)))))).as
    (fun (dialect, format, enabledFormats, allowUnknownPackets, jsonNulTerminator,
        maxFrameSize) =>
      { dialect, format, enabledFormats, allowUnknownPackets, jsonNulTerminator, maxFrameSize })
    fun s => (s.dialect, s.format, s.enabledFormats, s.allowUnknownPackets, s.jsonNulTerminator,
      s.maxFrameSize)

def connection : Section ConnectionSettings :=
  ((Fields.required "address" text).both
    ((Fields.required "connect_timeout" duration).both
    ((Fields.required "read_chunk_size" size).both
    ((Fields.required "nonblocking" truth).both
    ((Fields.optional "decrypt_key" (maybe text) none).both
    ((Fields.optional "encrypt_key" (maybe text) none).both
    (Fields.optional "cipher" (choice CipherSuite.key CipherSuite.ofKey?) default))))))).as
    (fun (address, connectTimeout, readChunkSize, nonblocking, decryptKey, encryptKey, cipher) =>
      { address, connectTimeout, readChunkSize, nonblocking, decryptKey, encryptKey, cipher })
    fun s => (s.address, s.connectTimeout, s.readChunkSize, s.nonblocking, s.decryptKey,
      s.encryptKey, s.cipher)

def capture : Section CaptureSettings :=
  ((Fields.required "compress" truth).both
    ((Fields.required "compression_level" level).both
    (Fields.required "output" (choice CaptureOutput.key CaptureOutput.ofKey?)))).as
    (fun (compress, compressionLevel, output) => { compress, compressionLevel, output })
    fun s => (s.compress, s.compressionLevel, s.output)

def logging : Section LoggingSettings :=
  ((Fields.required "app_name" text).both
    ((Fields.required "log_level" logLevel).both
    ((Fields.required "log_to_console" truth).both
    ((Fields.required "log_to_file" truth).both
    ((Fields.optional "log_file_path" (maybe text) none).both
    (Fields.required "json_format" truth)))))).as
    (fun (appName, logLevel, logToConsole, logToFile, logFilePath, jsonFormat) =>
      { appName, logLevel, logToConsole, logToFile, logFilePath, jsonFormat })
    fun s => (s.appName, s.logLevel, s.logToConsole, s.logToFile, s.logFilePath, s.jsonFormat)

/-- Every section may be left out. -/
def settings : Section Settings :=
  ((Fields.optional "codec" (table codec) {}).both
    ((Fields.optional "connection" (table connection) {}).both
    ((Fields.optional "capture" (table capture) {}).both
    (Fields.optional "logging" (table logging) {})))).as
    (fun (codec, connection, capture, logging) => { codec, connection, capture, logging })
    fun s => (s.codec, s.connection, s.capture, s.logging)

end SettingShape

end GameWire
