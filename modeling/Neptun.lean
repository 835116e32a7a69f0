import Neptun.Lib.Imperative
import Neptun.Lib.Triple
import Neptun.Lib.Run
import Neptun.Lib.Bits
import Neptun.Lib.Window
import Neptun.Noise.Types
import Neptun.Noise.Network
import Neptun.Noise.Session
import Neptun.Noise.Replay
import Neptun.Lib.Slice
import Neptun.Noise.Crypto
import Neptun.Noise.Handshake
import Neptun.Noise.RateLimiter
import Neptun.Noise.Tunn
import Neptun.Noise.Timers
import Neptun.Noise.Basic
import Neptun.Noise.Expiry
import Neptun.Noise.IK
import Neptun.Noise.Wire
import Neptun.Noise.Formats
import Neptun.Noise.Agreement
import Neptun.Noise.Cookie
import Neptun.Noise.Transport
import Neptun.Noise.Responder
import Neptun.Noise.Decapsulated
import Neptun.Noise.Counters
import Neptun.Noise.Atomicity
import Neptun.Noise.Calls
import Neptun.Noise.Routing
import Neptun.Noise.Timestamps
import Neptun.Noise.Anonymous
import Neptun.Device.Mtu
import Neptun.Serialization
import Neptun.Lib.Gf2
import Neptun.Lib.Period
import Neptun.Lib.Map
import Neptun.Device.Lfsr
import Neptun.Device.Table
import Neptun.Device.Peers
import Neptun.Device.Indices
import Neptun.Device.Cryptokey
import Neptun.Noise.Slots
import Neptun.Noise.Queue
import Neptun.Noise.Retransmit
import Neptun.Noise.Admission
import Neptun.Noise.Methods
import Neptun.Noise.Accounting
import Neptun.Noise.Moves
import Neptun.Noise.Panics
import Neptun.Device.Api
import Neptun.Device.Commands
import Neptun.Lib.Text
import Neptun.Device.Display
import Neptun.Device.Config
import Neptun.Device.Sessions
import Neptun.Device.Routes
import Neptun.Device.Traffic
import Neptun.Device.Drive
import Neptun.Device.Host
import Neptun.Device.Dispatch
import Neptun.Device.Outbound
