import GameWire.Error
import GameWire.Settings.Shape
import GameWire.Toml.Reader
import GameWire.Toml.Writer

/-!
# Settings files

Settings are kept in TOML documents, one section for each concern.
-/

namespace GameWire.Settings

def ofTable? (v : Toml.Value) : Option Settings :=
  (SettingShape.table SettingShape.settings).read? v

def ofToml (text : String) : Except ProtocolError Settings :=
  match (Toml.read? text).bind ofTable? with
  | some s => .ok s
  | none => .error (.config .invalidToml)

/-- The settings in a file, given its text if it can be read. -/
def ofFile (text? : Option String) : Except ProtocolError Settings :=
  match text? with
  | some text => ofToml text
  | none => .error (.config .cannotRead)

def sections (s : Settings) : List (String × List (String × Toml.Value)) :=
  [("codec", SettingShape.entries SettingShape.codec s.codec),
    ("connection", SettingShape.entries SettingShape.connection s.connection),
    ("capture", SettingShape.entries SettingShape.capture s.capture),
    ("logging", SettingShape.entries SettingShape.logging s.logging)]

/-- The document of the settings. It cannot be made if a number is too large for one. -/
def toToml (s : Settings) : Except ProtocolError String :=
  match Toml.render? s.sections with
  | some text => .ok text
  | none => .error (.config .cannotRender)

def example? : Option String :=
  Toml.render? (sections {})

/-- What there is once a document has been stored, if it could be. -/
def stored {α : Type} : Option α → Except ProtocolError α
  | some x => .ok x
  | none => .error (.config .cannotWrite)

/-- Makes the document and has it stored by `store`, which gives what there is then, if it can. What
`store` does besides is up to it, but without a document it does nothing. -/
def saveBy {m : Type → Type} [Monad m] {α : Type} (s : Settings)
    (store : String → m (Option α)) : m (Except ProtocolError α) :=
  match s.toToml with
  | .ok text => stored <$> store text
  | .error e => pure (.error e)

/-- The same where nothing besides is done. -/
def save {α : Type} (s : Settings) (store : String → Option α) : Except ProtocolError α :=
  Id.run (s.saveBy fun text => pure (store text))

end GameWire.Settings

namespace GameWire.LoggingSettings

/-- Has the log file opened by `openFile`, which gives it if it can. There is none to open unless
the log goes to a file and one is named. -/
def openLog {α : Type} (s : LoggingSettings) (openFile : String → Option α) :
    Except ProtocolError (Option α) :=
  match s.logToFile, s.logFilePath with
  | true, some path =>
    match openFile path with
    | some file => .ok (some file)
    | none => .error (.config .cannotOpenLog)
  | _, _ => .ok none

end GameWire.LoggingSettings
