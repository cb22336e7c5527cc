import ConstructVeil.Util.StreamDecoder
import ConstructVeil.Util.StreamLoop
import ConstructVeil.Util.ByteSeq
import ConstructVeil.Util.Leb128
import ConstructVeil.Util.Checked
import ConstructVeil.Util.Str
import ConstructVeil.Util.Machine
import ConstructVeil.Util.Prog
import ConstructVeil.Util.Loop
import ConstructVeil.Util.Lockstep
import ConstructVeil.Util.Pipe
import ConstructVeil.Util.Join
import ConstructVeil.Util.Pool
import ConstructVeil.Util.Lock
import ConstructVeil.Util.Counters
import ConstructVeil.Util.Atomic
import ConstructVeil.Util.Table
import ConstructVeil.Util.Smallest
import ConstructVeil.Protocol.Basic
import ConstructVeil.Protocol.Impl.Varint
import ConstructVeil.Protocol.Impl.Framing
import ConstructVeil.Protocol.Impl.Capability
import ConstructVeil.Protocol.Impl.Checked
import ConstructVeil.Protocol.Lemmas.Varint
import ConstructVeil.Protocol.Lemmas.Framing
import ConstructVeil.Protocol.Lemmas.Buckets
import ConstructVeil.Protocol.Lemmas.Stream
import ConstructVeil.Protocol.Lemmas.Capability
import ConstructVeil.Protocol.Lemmas.Checked
import ConstructVeil.Protocol.Lemmas.RoundTrip
import ConstructVeil.Relay.Impl.Admission
import ConstructVeil.Relay.Impl.Gate
import ConstructVeil.Relay.Impl.WarnLimiter
import ConstructVeil.Relay.Impl.Tunnel
import ConstructVeil.Relay.Impl.Chain
import ConstructVeil.Relay.Impl.ConfigLink
import ConstructVeil.Relay.Lemmas.Admission
import ConstructVeil.Relay.Lemmas.Gate
import ConstructVeil.Relay.Lemmas.WarnLimiter
import ConstructVeil.Relay.Impl.Stats
import ConstructVeil.Relay.Lemmas.Stats
import ConstructVeil.Relay.Lemmas.Tunnel
import ConstructVeil.Relay.Lemmas.Chain
import ConstructVeil.Relay.Lemmas.Binding
import ConstructVeil.Relay.Lemmas.Signing
import ConstructVeil.Relay.Lemmas.Replay
import ConstructVeil.Client.Impl.Padding
import ConstructVeil.Client.Impl.Session
import ConstructVeil.Client.Impl.Adapter
import ConstructVeil.Client.Impl.Probe
import ConstructVeil.Client.Lemmas.Padding
import ConstructVeil.Client.Lemmas.Session
import ConstructVeil.Client.Lemmas.Ferry
import ConstructVeil.Client.Lemmas.Auth
import ConstructVeil.Client.Lemmas.Probe
import ConstructVeil.Transparency
import ConstructVeil.Conn.Basic
import ConstructVeil.Conn.Impl.Relay
import ConstructVeil.Conn.Impl.Client
import ConstructVeil.Conn.Impl.Setup
import ConstructVeil.Conn.Lemmas.Basic
import ConstructVeil.Conn.Lemmas.Runs
import ConstructVeil.Conn.Lemmas.Frames
import ConstructVeil.Conn.Lemmas.Relay
import ConstructVeil.Conn.Lemmas.Client
import ConstructVeil.Buffer
import ConstructVeil.Conn.Lemmas.Setup
import ConstructVeil.Conn.Trace
import ConstructVeil.Conn.Lemmas.Trace
import ConstructVeil.Conn.Opening
import ConstructVeil.Conn.Return
import ConstructVeil.Conn.Delivery
import ConstructVeil.Conn.Ferry
import ConstructVeil.Conn.Site
import ConstructVeil.Conn.Guard
import ConstructVeil.Conn.Setup
import ConstructVeil.Coordinator.Basic
import ConstructVeil.Coordinator.Impl.Scoring
import ConstructVeil.Coordinator.Impl.Store
import ConstructVeil.Coordinator.Impl.Reducer
import ConstructVeil.Coordinator.Impl.Start
import ConstructVeil.Coordinator.Impl.Slot
import ConstructVeil.Coordinator.Lemmas.Scoring
import ConstructVeil.Coordinator.Lemmas.Start
import ConstructVeil.Coordinator.Lemmas.Slot
import ConstructVeil.Coordinator.Lemmas.Stop
import ConstructVeil.Coordinator.Lemmas.Reducer
import ConstructVeil.Coordinator.Lemmas.Probing
import ConstructVeil.Coordinator.Lemmas.Lifetime
import ConstructVeil.Coordinator.Lemmas.Store
import ConstructVeil.Coordinator.Lemmas.Block
import ConstructVeil.Coordinator.Lemmas.Prune
import ConstructVeil.Coordinator.Lemmas.Record
import ConstructVeil.Coordinator.Lemmas.Rounding
import ConstructVeil.Ffi.Impl.Start
import ConstructVeil.Ffi.Impl.Calls
import ConstructVeil.Ffi.Lemmas.Start
import ConstructVeil.Ffi.Lemmas.Calls
import ConstructVeil.Hex
