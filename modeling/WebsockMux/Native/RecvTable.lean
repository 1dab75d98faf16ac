import Mathlib.Data.Finset.Card
import WebsockMux.Native.Limits

/-!
# Receive directions

The `streams` and `pending_credit` tables of `SessionInner`, the event channel of each receive
direction and the `RecvStream` that reads it. `RecvStream.poll` is one call of `read`, `read_buf`,
`read_chunk` or `poll_read` up to the point where new credit has to be published.

The two tables are the finite sets of their keys; the values lie in the cell of the identifier,
which registration makes afresh.
-/

set_option autoImplicit false

namespace WebsockMux.Native

open WebsockMux.Proto

/-- A receive event. -/
structure RecvEvent where
  data : List UInt8
  fin : Bool
  deriving DecidableEq

/-- The reader's side. `receiverOpen` says that the receiver of the event channel is not dropped,
`held` that the application owns the `RecvStream`. The last two fields are a history: the bytes
returned to the application, and whether the FIN event was taken from the channel. -/
structure RecvStream where
  finished : Bool := false
  pending : List UInt8 := []
  consumed : Nat := 0
  granted : Nat := 0
  stopSent : Bool := false
  receiverOpen : Bool := false
  held : Bool := false
  returned : List UInt8 := []
  finRead : Bool := false

/-- One receive direction: the `RecvState` of the table with the `max_data` it shares with the
reader, the entry of `pending_credit`, the event channel and the reader. `txHeld` says that the
inbound task holds a clone of the event sender. Two fields are a history: `delivered`, the events
that were put into the channel, and `credits`, the entries that were taken from `pending_credit`. -/
structure RecvCell where
  stopped : Bool := false
  received : Nat := 0
  maxData : Nat := 0
  credit : Nat := 0
  txHeld : Bool := false
  events : List RecvEvent := []
  delivered : List RecvEvent := []
  credits : List Nat := []
  reader : RecvStream := {}

/-- The receive tables and the cells. `registered` is a history: the identifiers that were
registered, in order. -/
structure RecvTable where
  streams : Finset StreamId := ∅
  pendingCredit : Finset StreamId := ∅
  cell : StreamId → RecvCell := fun _ => {}
  registered : List StreamId := []

/-! ## Reading -/

/-- The four read functions of `RecvStream`. -/
inductive ReadApi where
  | read
  | readBuf
  | readChunk
  | pollRead
  deriving DecidableEq

/-- Where one call of a read function gets to: it waits for an event, it returns, or it publishes
the limit `target` before it returns. -/
inductive ReadResult where
  | wait
  | ret (r : RecvStream) (events : List RecvEvent)
  | again (r : RecvStream) (events : List RecvEvent)
  | grant (r : RecvStream) (events : List RecvEvent) (target : Nat)

namespace RecvStream

/-- `on_bytes_consumed` up to the store of `max_data`: the new limit, when one is due. -/
def onBytesConsumed (l : Limits) (r : RecvStream) (n : Nat) : RecvStream × Option Nat :=
  if n = 0 then (r, none)
  else
    let r := { r with consumed := Limits.saturatingAdd r.consumed n }
    let target := min (Limits.saturatingAdd r.consumed l.initialStreamWindow) VarInt.max
    if target ≤ r.granted then (r, none)
    else if target - r.granted < l.streamWindowUpdateThreshold then (r, none)
    else if r.finished || r.stopSent then (r, none)
    else ({ r with granted := target }, some target)

/-- Return the first `n` bytes of `chunk` to the application and keep the rest. -/
def give (l : Limits) (r : RecvStream) (events : List RecvEvent) (chunk : List UInt8) (n : Nat) :
    ReadResult :=
  let r := { r with pending := chunk.drop n, returned := r.returned ++ chunk.take n }
  match r.onBytesConsumed l (chunk.take n).length with
  | (r, none) => .ret r events
  | (r, some target) => .grant r events target

/-- An event is taken from the channel. An empty event without FIN is an empty chunk, except that
`poll_read` takes the next event. -/
def take (l : Limits) (api : ReadApi) (n : Nat) (r : RecvStream) (e : RecvEvent)
    (events : List RecvEvent) : ReadResult :=
  let r := { r with finished := r.finished || e.fin, finRead := r.finRead || e.fin }
  if e.data = [] ∧ e.fin then .ret r events
  else if e.data = [] ∧ api = .pollRead then .again r events
  else r.give l events e.data n

/-- One call of a read function with a buffer of `n` bytes. `open_` says that the event channel
still has a sender. `poll_read` returns `Pending` where the others wait. -/
def poll (l : Limits) (open_ : Bool) (api : ReadApi) (n : Nat) (r : RecvStream) :
    List RecvEvent → ReadResult
  | events =>
      if n = 0 then .ret r events
      else if r.pending ≠ [] then r.give l events r.pending n
      else if r.finished then .ret r events
      else match events with
        | e :: events => r.take l api n e events
        | [] =>
            if open_ then
              if api = .pollRead then .ret r [] else .wait
            else .ret { r with finished := true } []

end RecvStream

/-! ## Accesses -/

/-- A write access to the receive tables or to a receive direction. -/
inductive RecvAccess where
  /-- `register_recv_stream` and `try_register_inbound_recv_stream` insert a fresh state. -/
  | register (id : StreamId) (window : Nat)
  /-- `remove_recv_stream`. -/
  | remove (id : StreamId)
  /-- `close_all` clears `streams`. -/
  | clear
  /-- `close_all` clears `pending_credit`. -/
  | clearCredit
  /-- `stop_recv_stream` on an entry of the table. -/
  | stop (id : StreamId)
  /-- `stop_sent` is swapped to `true`. -/
  | swapStop (id : StreamId)
  /-- A read changes the reader and takes events. -/
  | read (id : StreamId) (r : RecvStream) (events : List RecvEvent)
  /-- The store of `max_data` in `on_bytes_consumed`. -/
  | storeMax (id : StreamId) (target : Nat)
  /-- `queue_credit` prunes the table when it has `bound` entries. -/
  | prune (bound : Nat)
  /-- `queue_credit` prunes and writes an entry. -/
  | queueCredit (bound : Nat) (id : StreamId) (target : Nat)
  /-- `next_credit` removes an entry. -/
  | takeCredit (id : StreamId)
  /-- `handle_frame` accounts for `n` received bytes and clones the event sender. -/
  | receive (id : StreamId) (n : Nat)
  /-- `try_send` puts an event into the channel. -/
  | deliver (id : StreamId) (e : RecvEvent)
  /-- The inbound task drops its clone of the event sender. -/
  | dropTx (id : StreamId)
  /-- The receiver of the event channel is dropped. -/
  | closeReceiver (id : StreamId)
  /-- The application gets the `RecvStream`, or gives it up. -/
  | hold (id : StreamId) (on : Bool)

namespace RecvTable

/-- Change the cell of a receive direction. -/
def modify (s : RecvTable) (id : StreamId) (g : RecvCell → RecvCell) : RecvTable :=
  { s with cell := Function.update s.cell id (g (s.cell id)) }

/-- A fresh `RecvState`, event channel and `RecvStream`, with `window` as receive limit. -/
def register (s : RecvTable) (id : StreamId) (window : Nat) : RecvTable :=
  { s with
    streams := insert id s.streams
    cell := Function.update s.cell id
      { maxData := window, reader := { granted := window, receiverOpen := true } }
    registered := s.registered ++ [id] }

/-- `stop_recv_stream`. -/
def stopRecvStream (s : RecvTable) (id : StreamId) : RecvTable :=
  { s.modify id fun c => { c with stopped := true } with
    pendingCredit := s.pendingCredit.erase id }

/-- Whether the event channel still has a sender: in the table, or held by the inbound task. -/
def hasSender (s : RecvTable) (id : StreamId) : Bool :=
  decide (id ∈ s.streams) || (s.cell id).txHeld

/-- The keys of `pending_credit` after the pruning at the start of `queue_credit`. -/
def pruned (s : RecvTable) (bound : Nat) : Finset StreamId :=
  if bound ≤ s.pendingCredit.card then s.pendingCredit.filter (· ∈ s.streams)
  else s.pendingCredit

/-- `queue_credit` refuses: the pruned table is full and has no entry for the stream. -/
def creditOverflows (s : RecvTable) (bound : Nat) (id : StreamId) : Bool :=
  decide (bound ≤ (s.pruned bound).card) && decide (id ∉ s.pruned bound)

/-- The entry that `queue_credit` writes: the larger of the old and the new limit. -/
def queueCredit (s : RecvTable) (bound : Nat) (id : StreamId) (target : Nat) : RecvTable :=
  { s.modify id fun c =>
      { c with credit := if id ∈ s.pruned bound then max c.credit target else target } with
    pendingCredit := insert id (s.pruned bound) }

/-- One access. -/
def apply (s : RecvTable) : RecvAccess → RecvTable
  | .register id window => s.register id window
  | .remove id => { s with streams := s.streams.erase id }
  | .clear => { s with streams := ∅ }
  | .clearCredit => { s with pendingCredit := ∅ }
  | .stop id => s.stopRecvStream id
  | .swapStop id => s.modify id fun c => { c with reader := { c.reader with stopSent := true } }
  | .read id r events => s.modify id fun c => { c with reader := r, events := events }
  | .storeMax id target => s.modify id fun c => { c with maxData := target }
  | .prune bound => { s with pendingCredit := s.pruned bound }
  | .queueCredit bound id target => s.queueCredit bound id target
  | .takeCredit id =>
      { s.modify id fun c => { c with credits := c.credits ++ [c.credit] } with
        pendingCredit := s.pendingCredit.erase id }
  | .receive id n => s.modify id fun c => { c with received := c.received + n, txHeld := true }
  | .deliver id e => s.modify id fun c =>
      { c with events := c.events ++ [e], delivered := c.delivered ++ [e] }
  | .dropTx id => s.modify id fun c => { c with txHeld := false }
  | .closeReceiver id => s.modify id fun c =>
      { c with reader := { c.reader with receiverOpen := false } }
  | .hold id on => s.modify id fun c => { c with reader := { c.reader with held := on } }

end RecvTable

end WebsockMux.Native
