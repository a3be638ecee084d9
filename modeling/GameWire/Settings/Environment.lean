import GameWire.Naming
import GameWire.Settings

/-!
# Settings from the environment

Variables override the default settings. Names that mean nothing are mistakes; a timeout that is no
number is passed over.
-/

namespace GameWire

namespace Settings

/-- What the names of all variables begin with. -/
def environmentPrefix : String := "PACKET_PROTOCOL_"

/-- Whether a text switches something on. -/
def isYes (s : String) : Bool :=
  s == "1" || s == "true" || s == "yes"

/-- The default settings with the changes that an environment makes. `lookup?` gives the value of
a variable by the part of its name behind `environmentPrefix`. -/
def ofEnvironment (lookup? : String → Option String) : Except ProtocolError Settings := do
  let base : Settings := {}
  let dialect ← match lookup? "DIALECT" with
    | some name => Dialect.ofName name
    | none => pure base.codec.dialect
  let format ← match lookup? "FORMAT" with
    | some name => SerialFormat.ofName name
    | none => pure base.codec.format
  let cipher ← match lookup? "CIPHER" with
    | some name => CipherSuite.ofName name
    | none => pure base.connection.cipher
  pure { base with
    codec := { base.codec with dialect, format }
    connection := { base.connection with
      address := (lookup? "ADDRESS").getD base.connection.address
      connectTimeout :=
        (((lookup? "CONNECT_TIMEOUT_MS").bind unsigned?).map .ofMillis).getD
          base.connection.connectTimeout
      decryptKey := lookup? "DECRYPT_KEY"
      encryptKey := lookup? "ENCRYPT_KEY"
      cipher }
    capture := { base.capture with
      compress := ((lookup? "CAPTURE_COMPRESS").map isYes).getD base.capture.compress } }

end Settings

end GameWire
