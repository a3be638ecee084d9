import GameWire.Activity

/-!
# Metrics

Counters over activities. Counters wrap at 2⁶⁴; the number of open connections, which is the only
one to go down, stops at zero.
-/

namespace GameWire

structure Metrics where
  connectionsOpened : UInt64 := 0
  /-- Connections that still hold their socket. -/
  connectionsOpen : UInt64 := 0
  connectionFailures : UInt64 := 0
  framesOut : UInt64 := 0
  framesIn : UInt64 := 0
  bytesOut : UInt64 := 0
  bytesIn : UInt64 := 0
  framesSealed : UInt64 := 0
  framesOpened : UInt64 := 0
  keyExchanges : UInt64 := 0
  keyExchangesEstablished : UInt64 := 0
  keyExchangesRejected : UInt64 := 0
  decodeErrors : UInt64 := 0
  encodeErrors : UInt64 := 0
  captureRecordsRead : UInt64 := 0
  captureRecordsWritten : UInt64 := 0
  deriving DecidableEq, Repr, Inhabited

namespace Metrics

/-- One less, stopping at zero. -/
def decrement (n : UInt64) : UInt64 :=
  if n = 0 then 0 else n - 1

def record (m : Metrics) : Activity → Metrics
  | .connectionEstablished =>
    { m with
      connectionsOpened := m.connectionsOpened + 1
      connectionsOpen := m.connectionsOpen + 1 }
  | .connectionClosed => { m with connectionsOpen := decrement m.connectionsOpen }
  | .connectionFailed => { m with connectionFailures := m.connectionFailures + 1 }
  | .keyExchangeAttempted => { m with keyExchanges := m.keyExchanges + 1 }
  | .keyExchangeEstablished => { m with keyExchangesEstablished := m.keyExchangesEstablished + 1 }
  | .keyExchangeRejected => { m with keyExchangesRejected := m.keyExchangesRejected + 1 }
  | .frameSent => { m with framesOut := m.framesOut + 1 }
  | .frameReceived => { m with framesIn := m.framesIn + 1 }
  | .bytesWritten count => { m with bytesOut := m.bytesOut + UInt64.ofNat count }
  | .bytesRead count => { m with bytesIn := m.bytesIn + UInt64.ofNat count }
  | .frameSealed => { m with framesSealed := m.framesSealed + 1 }
  | .frameOpened => { m with framesOpened := m.framesOpened + 1 }
  | .decodeFailed => { m with decodeErrors := m.decodeErrors + 1 }
  | .encodeFailed => { m with encodeErrors := m.encodeErrors + 1 }
  | .captureRecordRead => { m with captureRecordsRead := m.captureRecordsRead + 1 }
  | .captureRecordWritten => { m with captureRecordsWritten := m.captureRecordsWritten + 1 }

def recordAll (m : Metrics) (activity : List Activity) : Metrics :=
  activity.foldl record m

theorem recordAll_append (m : Metrics) (a b : List Activity) :
    m.recordAll (a ++ b) = (m.recordAll a).recordAll b := by
  simp [recordAll]

def entries (m : Metrics) : List (String × UInt64) :=
  [("connections_opened", m.connectionsOpened),
    ("connections_open", m.connectionsOpen),
    ("connection_failures", m.connectionFailures),
    ("frames_out", m.framesOut),
    ("frames_in", m.framesIn),
    ("bytes_out", m.bytesOut),
    ("bytes_in", m.bytesIn),
    ("frames_sealed", m.framesSealed),
    ("frames_opened", m.framesOpened),
    ("key_exchanges", m.keyExchanges),
    ("key_exchanges_established", m.keyExchangesEstablished),
    ("key_exchanges_rejected", m.keyExchangesRejected),
    ("decode_errors", m.decodeErrors),
    ("encode_errors", m.encodeErrors),
    ("capture_records_read", m.captureRecordsRead),
    ("capture_records_written", m.captureRecordsWritten)]

end Metrics

end GameWire
