import GameWire.Capture.Record
import GameWire.Cipher.SessionCipher
import GameWire.Codec

/-!
# Settings

All settings, grouped by concern. Nothing is checked when they are made; `Settings.problems` lists
what is wrong with them.
-/

namespace GameWire

inductive LogLevel where
  | error
  | warn
  | info
  | debug
  | trace
  deriving DecidableEq, Repr

namespace LogLevel

instance : Inhabited LogLevel := ⟨info⟩

/-- Every level, the quietest first. -/
def all : List LogLevel := [error, warn, info, debug, trace]

def key : LogLevel → String
  | error => "error"
  | warn => "warn"
  | info => "info"
  | debug => "debug"
  | trace => "trace"

end LogLevel

structure Duration where
  nanos : Nat
  deriving DecidableEq, Repr, Inhabited

namespace Duration

def nanosPerMilli : Nat := 1000000

def toMillis (d : Duration) : Nat := d.nanos / nanosPerMilli

def toSeconds (d : Duration) : Nat := d.nanos / nanosPerSecond

def ofMillis (n : Nat) : Duration := ⟨n * nanosPerMilli⟩

@[simp] theorem toMillis_ofMillis (n : Nat) : (ofMillis n).toMillis = n :=
  Nat.mul_div_cancel n (by decide)

end Duration

structure ConnectionSettings where
  address : String := "127.0.0.1:12200"
  /-- The longest time a connection may take to be made. -/
  connectTimeout : Duration := .ofMillis 5000
  /-- How many bytes are asked of a socket at a time. -/
  readChunkSize : Nat := 4096
  /-- Whether new sockets are switched to nonblocking mode. -/
  nonblocking : Bool := true
  /-- The file with the private key that opens key exchanges. -/
  decryptKey : Option String := none
  /-- The file with the public key that seals key exchanges. -/
  encryptKey : Option String := none
  cipher : CipherSuite := default
  deriving DecidableEq, Repr, Inhabited

structure CaptureSettings where
  compress : Bool := false
  compressionLevel : Int32 := 3
  output : CaptureOutput := default
  deriving DecidableEq, Inhabited

structure LoggingSettings where
  appName : String := "packet-protocol"
  logLevel : LogLevel := default
  logToConsole : Bool := true
  logToFile : Bool := false
  logFilePath : Option String := none
  /-- Whether every event is one JSON object. -/
  jsonFormat : Bool := false
  deriving DecidableEq, Repr, Inhabited

structure Settings where
  codec : CodecSettings := {}
  connection : ConnectionSettings := {}
  capture : CaptureSettings := {}
  logging : LoggingSettings := {}
  deriving DecidableEq, Inhabited

end GameWire
