import GameWire.Settings
import GameWire.Transport.Connection

/-!
# The connection manager

A manager holds at most one listener and one stream, and makes connections of streams. What the
system answers when a socket is to be made is given to the call. A listener is modelled, as sockets
are, by the answers it is going to give.
-/

namespace GameWire

/-- A socket that is going to accept certain connections, and then no more. -/
structure Listener where
  accepts : List (Except IoError Socket) := []

structure Manager where
  listener? : Option Listener := none
  stream? : Option Socket := none
  settings : ConnectionSettings := {}
  codecSettings : CodecSettings := {}
  /-- The message of the last call, if it failed. -/
  error : ErrorSlot := {}

namespace Manager

def ofSettings (settings : Settings) : Manager :=
  { settings := settings.connection, codecSettings := settings.codec }

def noListenerMessage : String := "No listener is attached"

/-- Takes a new listener in the place of the one held so far. -/
def createListener (m : Manager) (answer : Except IoError Listener) : Call Manager Poll :=
  match answer with
  | .ok listener =>
    { result := .ready, state := { m with listener? := some listener, error := .empty } }
  | .error e => { result := .failed, state := { m with error := .ofError (.io e) } }

/-- Takes a new stream in the place of the one held so far. -/
def createStream (m : Manager) (answer : Except IoError Socket) : Call Manager Poll :=
  match answer with
  | .ok stream =>
    { result := .ready, state := { m with stream? := some stream, error := .empty } }
  | .error e =>
    { result := .failed
      state := { m with error := .ofError (.io e) }
      activity := [.connectionFailed] }

/-- Takes the next connection that the listener accepts in the place of the stream held so far. -/
def accept (m : Manager) : Call Manager Poll :=
  match m.listener? with
  | none => { result := .noSocket, state := { m with error := .ofMessage noListenerMessage } }
  | some listener =>
    let (answer, accepts) : Except IoError Socket × List (Except IoError Socket) :=
      match listener.accepts with
      | [] => (.error .wouldBlock, [])
      | answer :: accepts => (answer, accepts)
    let m := { m with listener? := some { accepts }, error := .empty }
    match answer with
    | .ok stream => { result := .ready, state := { m with stream? := some stream } }
    | .error e =>
      if e.kind = .wouldBlock then { result := .blocked, state := m }
      else
        { result := .failed
          state := { m with error := .ofError (.io e) }
          activity := [.connectionFailed] }

/-- The outcome of switching the mode of a socket that may be there. -/
def switchMode {α : Type} (m : Manager) (socket? : Option α) (missing : String)
    (answer : Except IoError Unit) : Call Manager Poll :=
  match socket?, answer with
  | none, _ => { result := .noSocket, state := { m with error := .ofMessage missing } }
  | some _, .ok () => { result := .ready, state := { m with error := .empty } }
  | some _, .error e => { result := .failed, state := { m with error := .ofError (.io e) } }

def setListenerNonblocking (m : Manager) (answer : Except IoError Unit) : Call Manager Poll :=
  m.switchMode m.listener? noListenerMessage answer

def setStreamNonblocking (m : Manager) (answer : Except IoError Unit) : Call Manager Poll :=
  m.switchMode m.stream? Connection.noSocketMessage answer

def takeListener (m : Manager) : Call Manager (Option Listener) where
  result := m.listener?
  state := { m with listener? := none }

def takeStream (m : Manager) : Call Manager (Option Socket) where
  result := m.stream?
  state := { m with stream? := none }

/-- The keys of a connection under a dialect; the raw dialect has none. -/
def keysFor (m : Manager) (dialect : Dialect) (decryptFile encryptFile : Option (Option Bytes)) :
    Except ProtocolError ExchangeKeys :=
  if dialect.isRaw then .ok {}
  else (ExchangeKeys.load decryptFile encryptFile).map fun keys =>
    { keys with factory := m.settings.cipher.establish }

/-- A connection over a stream, with the keys in the files that are given. -/
def finalize (m : Manager) (stream : Socket) (dialect : Dialect)
    (decryptFile encryptFile : Option (Option Bytes)) : Call Manager (Option Connection) :=
  match m.keysFor dialect decryptFile encryptFile with
  | .error e => { result := none, state := { m with error := .ofError e } }
  | .ok keys =>
    let codec := (Codec.ofSettings m.codecSettings).setDialect dialect
    let made := Connection.ofSocket stream codec keys m.settings.readChunkSize
    { result := some made.state, state := { m with error := .empty }, activity := made.activity }

def finalizeStream (m : Manager) (dialect : Dialect)
    (decryptFile encryptFile : Option (Option Bytes)) : Call Manager (Option Connection) :=
  match m.stream? with
  | none =>
    { result := none, state := { m with error := .ofMessage Connection.noSocketMessage } }
  | some stream => { m with stream? := none }.finalize stream dialect decryptFile encryptFile

end Manager

end GameWire
