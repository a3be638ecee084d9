import GameWire.Dialect

/-!
# Errors

Every fallible operation fails with a `ProtocolError`, which names the cause; its wording is
`ProtocolError.message` and its coarse class `ProtocolError.kind`. Components that are polled keep
the message of their last failure in an `ErrorSlot`.
-/

namespace GameWire

/-! ## Causes -/

/-- How a failed read or write is to be taken by its caller. -/
inductive IoErrorKind where
  /-- Nothing can be done now; try again later. -/
  | wouldBlock
  /-- Nothing was done; try again at once. -/
  | interrupted
  /-- The operation failed for good. -/
  | permanent
  deriving DecidableEq, Repr

structure IoError where
  kind : IoErrorKind
  text : String
  deriving DecidableEq, Repr

inductive DecodeFault where
  | frameOverLimit (length limit : Nat)
  | belowHeader (declared : Nat)
  | trailingBytes (context : String) (count : Nat)
  | loneSurrogate
  | foreignPacket (packet : String) (dialect : Dialect)
  | shortEnvelope
  | described (text : String)
  deriving DecidableEq, Repr

inductive EncodeFault where
  | frameOverLimit (length limit : Nat)
  | frameTooLong (length : Nat)
  | envelopeTooLong (length : Nat)
  | untaggedInRaw
  | nulInText
  | textTooLong
  | keyBlockOverflow (length capacity : Nat)
  | described (text : String)
  deriving DecidableEq, Repr

inductive HandshakeFault where
  | emptySecret
  | ciphertextTooLong (length modulus : Nat)
  | rsaDecryption
  | rsaEncryption
  | described (text : String)
  deriving DecidableEq, Repr

inductive FormatFault where
  | badMagic
  | truncatedRecord (needed found : Nat)
  | writerFinished
  | rawNotStorable
  | described (text : String)
  deriving DecidableEq, Repr

inductive ConfigFault where
  | unknownDialect (name : String)
  | unknownFormat (name : String)
  | unknownCipher (name : String)
  | formatNotEnabled (format : String)
  | invalidToml
  | cannotRender
  | cannotRead
  | cannotWrite
  | cannotOpenLog
  | problems (found : List String)
  | described (text : String)
  deriving DecidableEq, Repr

inductive ProtocolError where
  | io (cause : IoError)
  | decode (fault : DecodeFault)
  | encode (fault : EncodeFault)
  /-- The header declares another length than the buffer has. -/
  | lengthMismatch (declared actual : Nat)
  /-- Something needs more bytes than there are. -/
  | insufficientData (context : String) (needed available : Nat)
  | unknownPacket (category subtype : UInt8) (dialect : Dialect)
  | invalidForDialect (tag : String) (dialect : Dialect)
  | dialectMismatch (packet expected : Dialect)
  /-- A serialized packet carries a tag that does not exist. -/
  | unknownVariant (tag : String)
  | serialize (text : String)
  | deserialize (text : String)
  | connectionClosed
  | format (fault : FormatFault)
  | unsupportedVersion (version : UInt8)
  | invalidDialect (id : UInt8)
  | corruptedPacket
  | decryptionFailure
  | encryptionFailure
  | handshake (fault : HandshakeFault)
  | key (text : String)
  | config (fault : ConfigFault)
  deriving DecidableEq, Repr

/-! ## Wording -/

def upperHexDigit (n : Nat) : Char :=
  let d := n % 16
  if d < 10 then Char.ofNat (0x30 + d) else Char.ofNat (0x37 + d)

def upperHex (b : UInt8) : String :=
  String.ofList [upperHexDigit (b.toNat / 16), upperHexDigit b.toNat]

def DecodeFault.message : DecodeFault → String
  | frameOverLimit length limit => s!"frame of {length} bytes exceeds limit of {limit}"
  | belowHeader declared => s!"Frame is shorter than its header: declared length {declared}"
  | trailingBytes context count => s!"{context}: Trailing bytes after packet body ({count} bytes)"
  | loneSurrogate => "invalid utf-16: lone surrogate found"
  | foreignPacket packet dialect => packet ++ " is not a " ++ dialect.name ++ " packet"
  | shortEnvelope => "Encrypted frame is shorter than its nonce and tag"
  | described text => text

def EncodeFault.message : EncodeFault → String
  | frameOverLimit length limit => s!"frame of {length} bytes exceeds limit of {limit}"
  | frameTooLong length => s!"frame of {length} bytes"
  | envelopeTooLong length => s!"envelope of {length} bytes"
  | untaggedInRaw => "Raw dialect packets carry no tag"
  | nulInText => "strings may not contain NUL characters"
  | textTooLong => "String exceeds the encodable length"
  | keyBlockOverflow length capacity =>
    s!"key exchange blob of {length} bytes exceeds {capacity} bytes"
  | described text => text

def HandshakeFault.message : HandshakeFault → String
  | emptySecret => "Key exchange carried an empty secret"
  | ciphertextTooLong length modulus =>
    s!"ciphertext of {length} bytes exceeds the {modulus}-byte modulus"
  | rsaDecryption => "RSA decryption failed: decryption error"
  | rsaEncryption => "RSA encryption failed: message too long"
  | described text => text

def FormatFault.message : FormatFault → String
  | badMagic => "Not a capture file (bad magic)"
  | truncatedRecord needed found =>
    s!"Capture record is truncated (needed {needed} bytes, found {found})"
  | writerFinished => "Capture writer is already finished"
  | rawNotStorable => "raw dialect cannot be stored in a capture file"
  | described text => text

def ConfigFault.message : ConfigFault → String
  | unknownDialect name => s!"Unknown dialect: '{name}'"
  | unknownFormat name => s!"Unsupported serialized format: '{name}'"
  | unknownCipher name => s!"Unsupported cipher suite: '{name}'"
  | formatNotEnabled format => s!"Serialized format {format} is not enabled"
  | invalidToml => "Invalid TOML: not a configuration"
  | cannotRender => "Cannot render config: number out of range"
  | cannotRead => "Cannot read the file"
  | cannotWrite => "Cannot write the file"
  | cannotOpenLog => "Failed to open log file: no such file"
  | problems found => "Configuration validation failed:\n  - " ++ "\n  - ".intercalate found
  | described text => text

def ProtocolError.message : ProtocolError → String
  | io cause => "I/O error: " ++ cause.text
  | decode fault => "Decode error: " ++ fault.message
  | encode fault => "Encode error: " ++ fault.message
  | lengthMismatch declared actual =>
    s!"Frame length mismatch: header declares {declared} bytes, buffer holds {actual}"
  | insufficientData context needed available =>
    s!"Insufficient data for {context}: need {needed} bytes, have {available}"
  | unknownPacket category subtype dialect =>
    "Unknown packet 0x" ++ upperHex category ++ "/0x" ++ upperHex subtype ++
      " for dialect " ++ dialect.name
  | invalidForDialect tag dialect =>
    "Packet " ++ tag ++ " is not defined for dialect " ++ dialect.name
  | dialectMismatch packet expected =>
    "Packet was parsed as " ++ packet.name ++ " but the codec expects " ++ expected.name
  | unknownVariant tag => "Unknown variant: " ++ tag
  | serialize text => "Serialize error: " ++ text
  | deserialize text => "Deserialize error: " ++ text
  | connectionClosed => "Connection closed"
  | format fault => "Capture format error: " ++ fault.message
  | unsupportedVersion version => s!"Unsupported capture version: {version.toNat}"
  | invalidDialect id => s!"Invalid dialect id: {id.toNat}"
  | corruptedPacket => "Attempted to write a corrupted packet"
  | decryptionFailure => "Decryption failed"
  | encryptionFailure => "Encryption failed"
  | handshake fault => "Handshake failed: " ++ fault.message
  | key text => "Key error: " ++ text
  | config fault => "Configuration error: " ++ fault.message

/-! ## Classes -/

inductive ErrorKind where
  | decode
  | encode
  | unknownVariant
  /-- A status rather than a failure. -/
  | wouldBlock
  | io
  | format
  | config
  | crypto
  deriving DecidableEq, Repr

def ErrorKind.name : ErrorKind → String
  | decode => "Decode"
  | encode => "Encode"
  | unknownVariant => "UnknownVariant"
  | wouldBlock => "WouldBlock"
  | io => "Io"
  | format => "Format"
  | config => "Config"
  | crypto => "Crypto"

def ProtocolError.kind : ProtocolError → ErrorKind
  | io cause => if cause.kind = .wouldBlock then .wouldBlock else .io
  | connectionClosed => .io
  | decode _ | lengthMismatch .. | insufficientData .. | unknownPacket .. | deserialize _ => .decode
  | encode _ | invalidForDialect .. | dialectMismatch .. | serialize _ => .encode
  | unknownVariant _ => .unknownVariant
  | format _ | unsupportedVersion _ | invalidDialect _ | corruptedPacket => .format
  | decryptionFailure | encryptionFailure | handshake _ | key _ => .crypto
  | config _ => .config

/-- Whether an error only says that a nonblocking call has to be tried again. -/
def ProtocolError.isWouldBlock (e : ProtocolError) : Bool :=
  e.kind == .wouldBlock

/-! ## The last error of a component -/

/-- The message of a component's most recent failed call, empty after a success. -/
structure ErrorSlot where
  message? : Option String := none
  deriving DecidableEq, Repr, Inhabited

namespace ErrorSlot

/-- The slot after a call that succeeded. -/
def empty : ErrorSlot := {}

def ofMessage (text : String) : ErrorSlot := { message? := some text }

def ofError (e : ProtocolError) : ErrorSlot := ofMessage e.message

def ofResult {α : Type} : Except ProtocolError α → ErrorSlot
  | .ok _ => empty
  | .error e => ofError e

end ErrorSlot

end GameWire
