import GameWire.Activity
import GameWire.Packet
import GameWire.Rsa.Pem

/-!
# Key exchange

One side owns a private key and the other the public key that goes with it. The side with the public
key chooses a secret and sends it encrypted in an encryption request; the other side recovers it.
Both then have a session, whose cipher is keyed from the secret and seals every later frame.
-/

namespace GameWire

/-! ## Sessions -/

/-- What both sides share after a key exchange. -/
structure Session where
  secret : Bytes
  cipher : SessionCipher

/-- The session of a secret, which must not be empty. -/
def Session.establish (factory : CipherFactory) (secret : Bytes) :
    Except ProtocolError Session := do
  requireSecret secret
  let cipher ← factory secret
  pure { secret, cipher }

def secretLength : Nat := 16

def freshSecret (entropy : Entropy) : Bytes := entropy.take secretLength

/-! ## Secrets on the wire -/

namespace Rsa

/-- The secret that a request carries. Zeros in front of the ciphertext may have been lost on the
way and are put back. -/
def PrivateKey.recover (k : PrivateKey) (ciphertext : Bytes) : Except ProtocolError Bytes :=
  if ciphertext.length > k.size then
    .error (.handshake (.ciphertextTooLong ciphertext.length k.size))
  else
    match k.decrypt? (Bytes.zeros (k.size - ciphertext.length) ++ ciphertext) with
    | some secret => .ok secret
    | none => .error (.handshake .rsaDecryption)

/-- What a request carries for a secret. -/
def PublicKey.conceal (k : PublicKey) (entropy : Entropy) (secret : Bytes) :
    Except ProtocolError Bytes :=
  match k.encrypt? entropy secret with
  | some ciphertext => .ok ciphertext
  | none => .error (.handshake .rsaEncryption)

end Rsa

/-! ## The keys of one side -/

/-- What one side takes part in a key exchange with. -/
structure ExchangeKeys where
  /-- Opens requests that come in. -/
  decryptKey? : Option Rsa.PrivateKey := none
  /-- Seals requests that go out. -/
  encryptKey? : Option Rsa.PublicKey := none
  factory : CipherFactory := CipherSuite.establish default

namespace ExchangeKeys

instance : Inhabited ExchangeKeys := ⟨{}⟩

def isEmpty (k : ExchangeKeys) : Bool := k.decryptKey?.isNone && k.encryptKey?.isNone

def canDecrypt (k : ExchangeKeys) : Bool := k.decryptKey?.isSome

def canEncrypt (k : ExchangeKeys) : Bool := k.encryptKey?.isSome

/-- The key in a file, of which `content?` is the content, if it can be read. -/
def loadFile {α : Type} (parse : Bytes → Option α) (content? : Option Bytes) :
    Except ProtocolError α :=
  match content?.bind parse with
  | some key => .ok key
  | none => .error (.key "the file holds no such key")

def load (decryptFile encryptFile : Option (Option Bytes)) : Except ProtocolError ExchangeKeys := do
  let decryptKey? ← decryptFile.mapM (loadFile Rsa.Pem.privateKey?)
  let encryptKey? ← encryptFile.mapM (loadFile Rsa.Pem.publicKey?)
  pure { decryptKey?, encryptKey? }

def report {α : Type} (result : Except ProtocolError α) : List Activity :=
  match result with
  | .ok _ => [.keyExchangeAttempted, .keyExchangeEstablished]
  | .error _ => [.keyExchangeAttempted, .keyExchangeRejected]

/-- The request with its secret in plain text, and the session, of a request that came in. -/
def openRequest (k : ExchangeKeys) (key : Rsa.PrivateKey) (request : EncryptionRequest) :
    Except ProtocolError (EncryptionRequest × Session) := do
  let secret ← key.recover request.rsaData
  let session ← Session.establish k.factory secret
  pure ({ rsaData := secret }, session)

/-- Handles a request that came in. Without a private key it is left alone and there is no
session. -/
def acceptRequest (k : ExchangeKeys) (request : EncryptionRequest) :
    Except ProtocolError (Option (EncryptionRequest × Session)) × List Activity :=
  match k.decryptKey? with
  | none => (.ok none, [])
  | some key =>
    let result := k.openRequest key request
    (result.map some, report result)

/-- The request with its secret encrypted, and the session, of a request that is to go out. -/
def closeRequest (k : ExchangeKeys) (key : Rsa.PublicKey) (entropy : Entropy)
    (request : EncryptionRequest) : Except ProtocolError (EncryptionRequest × Session) := do
  let session ← Session.establish k.factory request.rsaData
  let rsaData ← key.conceal entropy request.rsaData
  pure ({ rsaData }, session)

/-- Prepares a request for sending. Without a public key it goes out as it is and there is no
session. -/
def sealRequest (k : ExchangeKeys) (entropy : Entropy) (request : EncryptionRequest) :
    Except ProtocolError (Option (EncryptionRequest × Session)) × List Activity :=
  match k.encryptKey? with
  | none => (.ok none, [])
  | some key =>
    let result := k.closeRequest key entropy request
    (result.map some, report result)

end ExchangeKeys

/-! ## Texts for logs -/

/-- A record's name with some of its fields, on one line or on several; `more` tells whether there
are fields that are not shown. -/
def summarize (pretty : Bool) (name : String) (fields : List (String × String)) (more : Bool) :
    String :=
  let shown := fields.map fun (field, value) => field ++ ": " ++ value
  let rest := if more then [".."] else []
  if pretty then
    name ++ " \x7B\n" ++ String.join (shown.map fun s => "    " ++ s ++ ",\n") ++
      String.join (rest.map fun s => "    " ++ s ++ "\n") ++ "\x7D"
  else name ++ " \x7B " ++ ", ".intercalate (shown ++ rest) ++ " \x7D"

/-- Which keys there are; the keys themselves are not shown. -/
def ExchangeKeys.summary (k : ExchangeKeys) (pretty : Bool) : String :=
  summarize pretty "HandshakeKeys"
    [("decrypt", toString k.canDecrypt), ("encrypt", toString k.canEncrypt)] true

/-- The length of the secret; the secret itself is not shown. -/
def Session.summary (s : Session) (pretty : Bool) : String :=
  summarize pretty "Session" [("secret_len", toString s.secret.length)] false

/-- The name of a suite's cipher; its key is not shown. -/
def CipherSuite.summary : CipherSuite → String
  | xchacha => "Crypto \x7B .. \x7D"
  | aes => "AesCbcCipher \x7B .. \x7D"

end GameWire
