import GameWire.Capture.Reader
import GameWire.Capture.Writer
import GameWire.Metrics
import GameWire.Naming
import GameWire.Proofs.Body.Bounds
import GameWire.Proofs.Capture.Cut
import GameWire.Proofs.Capture.Faults
import GameWire.Proofs.Capture.RoundTrip
import GameWire.Proofs.Capture.Selection
import GameWire.Proofs.Codec.Accepted
import GameWire.Proofs.Codec.Serialized
import GameWire.Proofs.Codec.Terminated
import GameWire.Proofs.Codec.Transcoding
import GameWire.Proofs.ErrorSlots
import GameWire.Proofs.Metrics
import GameWire.Proofs.Packet.OuterTag
import GameWire.Proofs.Rsa.Trailers
import GameWire.Proofs.Settings.Bounds
import GameWire.Proofs.Settings.Saved
import GameWire.Proofs.Transport.Buffers
import GameWire.Proofs.Transport.Delivery
import GameWire.Proofs.Transport.Envelopes
import GameWire.Proofs.Transport.Failure
import GameWire.Proofs.Transport.Fleet
import GameWire.Proofs.Transport.Fragmentation
import GameWire.Proofs.Transport.Inbound
import GameWire.Proofs.Transport.Lane
import GameWire.Proofs.Transport.Lifetime
import GameWire.Proofs.Transport.Outbound
import GameWire.Proofs.Transport.Peers
import GameWire.Proofs.Transport.Refusals
import GameWire.Proofs.Transport.Reports
import GameWire.Proofs.Transport.Traffic
import GameWire.Proofs.Transport.Waiting
import GameWire.Settings.Environment
import GameWire.Settings.File
import GameWire.Settings.Problems
import GameWire.Transport.Manager
