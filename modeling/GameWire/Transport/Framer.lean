import GameWire.Codec
import GameWire.KeyExchange

/-!
# Framing

A framer cuts frames out of a stream of bytes and makes the bytes for frames that go out. The key
exchange runs when its request passes through; from then on every frame travels in an envelope of
the session. The request itself always travels in plain sight.
-/

namespace GameWire

structure Framer where
  codec : Codec := {}
  keys : ExchangeKeys := {}
  session? : Option Session := none

namespace Framer

/-- A framer around a codec. Under the raw dialect there is no key exchange. -/
def ofCodec (codec : Codec) (keys : ExchangeKeys) : Framer :=
  { codec, keys := if codec.dialect.isRaw then {} else keys }

def dialect (f : Framer) : Dialect := f.codec.dialect

/-- Switches the dialect. The raw dialect ends the session and gives up the keys for good. -/
def setDialect (f : Framer) (dialect : Dialect) : Framer :=
  let codec := f.codec.setDialect dialect
  if dialect.isRaw then { codec, keys := {}, session? := none } else { f with codec }

/-- The secret of the session, empty before a key exchange. -/
def key (f : Framer) : Bytes := (f.session?.map (·.secret)).getD []

def isEncrypted (f : Framer) : Bool := f.session?.isSome

/-! ## Frames that come in -/

/-- What a framer knows about the next frame of a stream before all of it is there. -/
structure Outlook where
  /-- The length that the frame declares, if it is there. -/
  declared? : Option Nat
  minimum : Nat
  /-- The longest length that is accepted. -/
  limit : Nat

def outlook (f : Framer) (inbound : Bytes) : Outlook :=
  let limit := f.codec.settings.maxFrameSize
  match f.session? with
  | some session =>
    { declared? := session.cipher.sealedLength? inbound
      minimum := session.cipher.minSealedLength
      -- Both are machine words, and their sum wraps.
      limit := (limit + session.cipher.maxOverhead) % 2 ^ 64 }
  | none => { declared? := frameLength? inbound, minimum := headerLength, limit }

/-- The frame in what was cut out of the stream, and what opening it reports. -/
def openEnvelope (f : Framer) (cut : Bytes) : Except ProtocolError Bytes × List Activity :=
  match f.session? with
  | none => (.ok cut, [])
  | some session =>
    match session.cipher.openFrame cut with
    | .ok frame => (.ok frame, [.frameOpened])
    | .error e => (.error e, [])

/-- Runs the key exchange if a model is its request and there is no session yet. -/
def join (f : Framer) (m : Model) : Call Framer (Except ProtocolError Model) :=
  match f.session?, m.packet with
  | none, .encryptionRequest request =>
    match f.keys.acceptRequest request with
    | (.error e, log) => { result := .error e, state := f, activity := log }
    | (.ok none, log) => { result := .ok m, state := f, activity := log }
    | (.ok (some (opened, session)), log) =>
      { result := .ok { m with packet := .encryptionRequest opened }
        state := { f with session? := some session }
        activity := log }
  | _, _ => { result := .ok m, state := f }

def receive (f : Framer) (cut : Bytes) : Call Framer (Except ProtocolError Model) :=
  match f.openEnvelope cut with
  | (.error e, log) => { result := .error e, state := f, activity := log }
  | (.ok frame, log) =>
    let decoded := f.codec.decodeRaw frame
    let f := { f with codec := decoded.state }
    match decoded.result with
    | .error e => { result := .error e, state := f, activity := log ++ decoded.activity }
    | .ok m =>
      let joined := f.join m
      { joined with
        activity := log ++ decoded.activity ++ joined.activity ++
          match joined.result with
          | .ok _ => [.frameReceived]
          | .error _ => [] }

/-- Takes the next frame off the front of `inbound` and decodes it. There is none while it is not
complete, and then nothing is taken. The state is the framer together with what is left. -/
def next (f : Framer) (inbound : Bytes) :
    Call (Framer × Bytes) (Except ProtocolError (Option Model)) :=
  if inbound.isEmpty then { result := .ok none, state := (f, inbound) }
  -- Without frames, whatever is there is one packet.
  else if f.dialect.isRaw then
    let decoded := f.codec.decodeRaw inbound
    { result := decoded.result.map some
      state := ({ f with codec := decoded.state }, [])
      activity := decoded.activity }
  else
    let outlook := f.outlook inbound
    match outlook.declared? with
    | none => { result := .ok none, state := (f, inbound) }
    | some declared =>
      if declared < outlook.minimum then
        { result := .error (.decode (.belowHeader declared)), state := (f, inbound) }
      else if declared > outlook.limit then
        { result := .error (.decode (.frameOverLimit declared outlook.limit))
          state := (f, inbound) }
      else if inbound.length < declared then { result := .ok none, state := (f, inbound) }
      else
        -- The bytes of the frame are gone even if it cannot be opened or decoded.
        let received := f.receive (inbound.take declared)
        { result := received.result.map some
          state := (received.state, inbound.drop declared)
          activity := received.activity }

/-! ## Frames that go out -/

/-- The bytes for a model, in an envelope if there is a session. The empty packet has no bytes and
needs no envelope. -/
def encodeSealed (f : Framer) (entropy : Entropy) (m : Model) :
    Call Framer (Except ProtocolError Bytes) :=
  let encoded := f.codec.encodeRaw m
  let f := { f with codec := encoded.state }
  match encoded.result, f.session? with
  | .ok frame, some session =>
    if frame.isEmpty then { result := .ok frame, state := f, activity := encoded.activity }
    else
      { result := session.cipher.sealFrame entropy frame
        state := f
        activity := encoded.activity ++ [.frameSealed] }
  | result, _ => { result, state := f, activity := encoded.activity }

/-- The bytes for a model. An encryption request starts a session if there is none yet and a public
key to send the secret with; a request that cannot be encoded starts none. -/
def encode (f : Framer) (entropy : Entropy) (m : Model) :
    Call Framer (Except ProtocolError Bytes) :=
  match f.session?, m.packet with
  | none, .encryptionRequest request =>
    match f.keys.sealRequest entropy request with
    | (.error e, log) => { result := .error e, state := f, activity := log }
    | (.ok none, _) => f.encodeSealed entropy m
    | (.ok (some (closed, session)), log) =>
      let encoded := f.codec.encodeRaw { m with packet := .encryptionRequest closed }
      let f := { f with codec := encoded.state }
      { result := encoded.result
        state := match encoded.result with
          | .ok _ => { f with session? := some session }
          | .error _ => f
        activity := log ++ encoded.activity }
  | _, _ => f.encodeSealed entropy m

end Framer

end GameWire
