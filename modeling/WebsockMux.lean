import WebsockMux.Proto.VarInt
import WebsockMux.Proto.Frame
import WebsockMux.Proto.RoundTrip
import WebsockMux.Proto.WordSize
import WebsockMux.Native.Limits
import WebsockMux.Native.Memory
import WebsockMux.Native.Task
import WebsockMux.Native.Session
import WebsockMux.Lib.Run
import WebsockMux.Lib.Pool
import WebsockMux.Native.SendDirection
import WebsockMux.Native.Moves
import WebsockMux.Native.SendRefine
import WebsockMux.Native.SendInvariant
import WebsockMux.Native.SendOrder
import WebsockMux.Native.OpenStreams
import WebsockMux.Native.OpenOrder
import WebsockMux.Native.Doomed
import WebsockMux.Native.Borrow
import WebsockMux.Native.Reading
import WebsockMux.Native.RecvDirection
import WebsockMux.Native.RecvOwner
import WebsockMux.Native.Control
import WebsockMux.Native.RecvRefine
import WebsockMux.Native.RecvInvariant
import WebsockMux.Native.Tables
import WebsockMux.Native.Handles
import WebsockMux.Native.EventSender
import WebsockMux.Native.Closing
import WebsockMux.Lib.ParkingChannel
import WebsockMux.Wasm.Memory
import WebsockMux.Wasm.Streams
import WebsockMux.Wasm.Session
import WebsockMux.Wasm.Calm
import WebsockMux.Wasm.Duty
import WebsockMux.Wasm.Steps
import WebsockMux.Wasm.Guarantees
import WebsockMux.Proto.Messages
import WebsockMux.Native.Outbox
import WebsockMux.Batching
import WebsockMux.Native.LastClone
import WebsockMux.Native.Window
import WebsockMux.Native.Delivery
import WebsockMux.Native.Credit
import WebsockMux.Native.BatchLimits
import WebsockMux.Proto.Grammar
import WebsockMux.Native.Emission
import WebsockMux.Native.Barrier
import WebsockMux.Native.StillOpen
import WebsockMux.Native.Draining
import WebsockMux.Lib.Link
import WebsockMux.Native.Handling
import WebsockMux.Native.Inbox
import WebsockMux.Native.Announced
import WebsockMux.Native.Connection
import WebsockMux.Native.EndToEnd
import WebsockMux.Lib.Precedes
import WebsockMux.Native.Opened
import WebsockMux.Native.PeerOpened
import WebsockMux.Native.Crossing
import WebsockMux.Native.Waiting
import WebsockMux.Encoding
import WebsockMux.Lib.AsyncBytes
import WebsockMux.Native.Alone
import WebsockMux.Native.Server
import WebsockMux.Native.Writing
import WebsockMux.Proto.VarIntStream
import WebsockMux.Wasm.Slots
import WebsockMux.Native.CloseCodes
import WebsockMux.Native.Ownership
import WebsockMux.Native.ReadApis
import WebsockMux.Native.ReadCount
import WebsockMux.Native.Stopped
import WebsockMux.Lib.WakerSlot
import WebsockMux.Native.Wakers
import WebsockMux.Native.Unhindered
import WebsockMux.Parity.Calls
import WebsockMux.Parity.SameProtocol
import WebsockMux.Native.Arrived
