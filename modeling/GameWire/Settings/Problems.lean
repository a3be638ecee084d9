import GameWire.Error
import GameWire.Frame
import GameWire.Settings
import GameWire.Settings.Address
import GameWire.Settings.Path
import GameWire.Text.Utf8

/-!
# Problems with settings

Each section is checked by itself; of two bounds on one number at most one is broken. What depends
on files is asked of a file system.
-/

namespace GameWire

inductive SettingsProblem where
  | noFormats
  | formatNotEnabled (format : SerialFormat)
  | frameSizeTooSmall (size : Nat)
  | frameSizeTooLarge (size : Nat)
  | emptyAddress
  | badAddress (address : String)
  | timeoutTooShort
  | timeoutTooLong
  | chunkTooSmall
  | chunkTooLarge
  | missingKeyFile (setting path : String)
  | badCompressionLevel (level : Int32)
  | emptyAppName
  | longAppName (length : Nat)
  | noLogOutput
  | noLogFile
  | missingLogDirectory (path : String)
  deriving DecidableEq

def SettingsProblem.message : SettingsProblem → String
  | noFormats => "At least one serialized format must be enabled"
  | formatNotEnabled format => "Default format " ++ format.name ++ " is not in enabled_formats"
  | frameSizeTooSmall size => s!"Max frame size too small: {size} (minimum: {headerLength})"
  | frameSizeTooLarge size => s!"Max frame size too large: {size} bytes (frame lengths are 32-bit)"
  | emptyAddress => "Connection address cannot be empty"
  | badAddress address =>
    s!"Invalid connection address format: '{address}' (expected format: '127.0.0.1:12200')"
  | timeoutTooShort => "Connect timeout too short (minimum: 100ms)"
  | timeoutTooLong => "Connect timeout too long (maximum: 300s)"
  | chunkTooSmall => "Read chunk size too small (minimum: 64 bytes)"
  | chunkTooLarge => "Read chunk size too large (maximum: 1 MB)"
  | missingKeyFile setting path => s!"{setting} file does not exist: {path}"
  | badCompressionLevel level => s!"Invalid compression level: {level} (valid range: 1-22)"
  | emptyAppName => "app_name cannot be empty"
  | longAppName length => s!"app_name is {length} characters (maximum: 64)"
  | noLogOutput => "At least one logging output must be enabled"
  | noLogFile => "log_file_path must be specified with log_to_file"
  | missingLogDirectory path => s!"Log directory {path} does not exist"

namespace CodecSettings

def formatProblems (s : CodecSettings) : List SettingsProblem :=
  if s.enabledFormats.isEmpty then [.noFormats]
  else if s.enabledFormats.contains s.format then []
  else [.formatNotEnabled s.format]

def frameSizeProblems (s : CodecSettings) : List SettingsProblem :=
  if s.maxFrameSize < headerLength then [.frameSizeTooSmall s.maxFrameSize]
  else if s.maxFrameSize ≥ 2 ^ 32 then [.frameSizeTooLarge s.maxFrameSize]
  else []

def problems (s : CodecSettings) : List SettingsProblem :=
  s.formatProblems ++ s.frameSizeProblems

end CodecSettings

namespace ConnectionSettings

def addressProblems (s : ConnectionSettings) : List SettingsProblem :=
  if s.address.isEmpty then [.emptyAddress]
  else if Address.isSocketAddress s.address then []
  else [.badAddress s.address]

/-- What is wrong with the timeout. Only its whole seconds are compared with the upper bound. -/
def timeoutProblems (s : ConnectionSettings) : List SettingsProblem :=
  if s.connectTimeout.toMillis < 100 then [.timeoutTooShort]
  else if s.connectTimeout.toSeconds > 300 then [.timeoutTooLong]
  else []

def chunkProblems (s : ConnectionSettings) : List SettingsProblem :=
  if s.readChunkSize < 64 then [.chunkTooSmall]
  else if s.readChunkSize > 1024 * 1024 then [.chunkTooLarge]
  else []

def keyFileProblems (files : FileSystem) (setting : String) (path? : Option String) :
    List SettingsProblem :=
  match path? with
  | none => []
  | some path => if files.exists? path then [] else [.missingKeyFile setting path]

def problems (files : FileSystem) (s : ConnectionSettings) : List SettingsProblem :=
  s.addressProblems ++ s.timeoutProblems ++ s.chunkProblems ++
    keyFileProblems files "decrypt_key" s.decryptKey ++
    keyFileProblems files "encrypt_key" s.encryptKey

end ConnectionSettings

/-- What is wrong with the settings of captures. The level counts only when there is compression. -/
def CaptureSettings.problems (s : CaptureSettings) : List SettingsProblem :=
  if s.compress ∧ (s.compressionLevel < 1 ∨ 22 < s.compressionLevel) then
    [.badCompressionLevel s.compressionLevel]
  else []

namespace LoggingSettings

/-- What is wrong with the name, whose length is that of its UTF-8 form. -/
def appNameProblems (s : LoggingSettings) : List SettingsProblem :=
  let length := (Utf8.encode s.appName).length
  if length = 0 then [.emptyAppName]
  else if length > 64 then [.longAppName length]
  else []

/-- What is wrong with the log file. Its directory must exist if the path names one. -/
def logFileProblems (files : FileSystem) (s : LoggingSettings) : List SettingsProblem :=
  if s.logToFile then
    match s.logFilePath with
    | none => [.noLogFile]
    | some path =>
      let directory := Path.directoryPart path
      if directory.isEmpty || files.isDirectory directory then []
      else [.missingLogDirectory directory]
  else []

def problems (files : FileSystem) (s : LoggingSettings) : List SettingsProblem :=
  s.appNameProblems ++ (if s.logToConsole ∨ s.logToFile then [] else [.noLogOutput]) ++
    s.logFileProblems files

end LoggingSettings

namespace Settings

def problems (files : FileSystem) (s : Settings) : List SettingsProblem :=
  s.codec.problems ++ s.connection.problems files ++ s.capture.problems ++ s.logging.problems files

def check (files : FileSystem) (s : Settings) : Except ProtocolError Unit :=
  match s.problems files with
  | [] => .ok ()
  | found => .error (.config (.problems (found.map (·.message))))

end Settings

end GameWire
