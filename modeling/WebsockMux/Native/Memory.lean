import WebsockMux.Native.SendTable
import WebsockMux.Native.RecvTable

/-!
# Shared memory of a native session

`SessionInner` of `websock-tungstenite-mux/src/session.rs` together with what its tasks share
beside it: the outbound channel, the accept queues and the `SendStream` handles. An `Access` is one
write access of a task, and `Memory.apply` performs it.
-/

set_option autoImplicit false

namespace WebsockMux.Native

open WebsockMux.Proto

/-- A session's role and limits. -/
structure Config where
  isServer : Bool
  limits : Limits

/-! ## The outbound channel -/

/-- A WebSocket message. -/
inductive Message where
  | binary (data : List UInt8)
  | text
  | ping (payload : List UInt8)
  | pong (payload : List UInt8)
  | close
  deriving DecidableEq

/-- A command of the outbound queue; `ack` is the index of its oneshot channel. -/
inductive OutboundCmd where
  | frame (f : Frame)
  | ws (m : Message)
  | flush (ack : Nat)
  | shutdown (ack : Nat)
  deriving DecidableEq

/-- A oneshot channel: nothing sent, a result sent, or its sender dropped. -/
inductive Ack where
  | pending
  | ok
  | err
  | dropped
  deriving DecidableEq

/-- The bounded channel from the tasks to the outbound task. `permits` counts the reserved slots;
`admitted` is a history, the frames that were put into the queue. -/
structure Channel where
  queue : List OutboundCmd := []
  permits : Nat := 0
  rxDropped : Bool := false
  acks : List Ack := []
  admitted : List Frame := []

/-- An access to the outbound channel. -/
inductive ChanAccess where
  /-- A slot is reserved. -/
  | takeSlot
  /-- A reserved slot is given back. -/
  | freeSlot
  /-- `permit.send` of a frame. -/
  | publish (f : Frame)
  /-- `try_send` of a frame. -/
  | trySend (f : Frame)
  /-- `try_send` of a WebSocket message. -/
  | tryWs (m : Message)
  /-- The `Shutdown` command is sent through a reserved slot. -/
  | shutdown
  /-- The outbound task takes the first command. -/
  | pop
  /-- The outbound task resolves or drops a oneshot sender. -/
  | ack (n : Nat) (a : Ack)
  /-- The outbound task drops the receiver, and with it what is queued. -/
  | dropRx

/-- The oneshot channel of a command. -/
def OutboundCmd.ack? : OutboundCmd → Option Nat
  | .flush n => some n
  | .shutdown n => some n
  | _ => none

namespace Channel

/-- A slot of the bounded channel is free: it is neither filled nor reserved. -/
def hasSlot (cfg : Config) (c : Channel) : Bool :=
  c.queue.length + c.permits < cfg.limits.outboundQueueLen

/-- Put a frame into the queue. -/
def enqueue (c : Channel) (f : Frame) : Channel :=
  { c with queue := c.queue ++ [.frame f], admitted := c.admitted ++ [f] }

/-- One access. -/
def apply (c : Channel) : ChanAccess → Channel
  | .takeSlot => { c with permits := c.permits + 1 }
  | .freeSlot => { c with permits := c.permits - 1 }
  | .publish f => { c.enqueue f with permits := c.permits - 1 }
  | .trySend f => c.enqueue f
  | .tryWs m => { c with queue := c.queue ++ [.ws m] }
  | .shutdown =>
      { c with
        queue := c.queue ++ [.shutdown c.acks.length]
        acks := c.acks ++ [.pending]
        permits := c.permits - 1 }
  | .pop => { c with queue := c.queue.tail }
  | .ack n a => { c with acks := c.acks.set n a }
  | .dropRx =>
      { c with
        queue := []
        rxDropped := true
        acks := (c.queue.filterMap OutboundCmd.ack?).foldl (fun as n => as.set n .dropped) c.acks }

end Channel

/-! ## Send handles -/

/-- One clone of a `SendStream`. `held` says that the application owns it, `alive` that its `Arc`s
are not released. Its `PollSender` has a reserved slot (`permit`) or waits for one (`waiting`). -/
structure SendHandle where
  id : StreamId
  held : Bool
  alive : Bool := true
  permit : Bool := false
  waiting : Bool := false
  flushWaiter : Option Nat := none
  finQueued : Bool := false

/-- An access to a send handle and, through its `PollSender`, to the channel. -/
inductive HandleAccess where
  /-- `SendStream::new` and `clone`. -/
  | new (id : StreamId) (held : Bool)
  /-- The application gets the handle, or gives it up. -/
  | hold (h : Nat) (on : Bool)
  /-- `poll_reserve` gets a slot. -/
  | reserve (h : Nat)
  /-- `poll_reserve` is pending. -/
  | wait (h : Nat)
  /-- `send_item` of a data frame; a pending flush no longer covers what was written. -/
  | sendData (h : Nat) (f : Frame)
  /-- `send_item` of the FIN; `fin_queued` is set. -/
  | sendFin (h : Nat) (f : Frame)
  /-- `send_item` of a flush command. -/
  | sendFlush (h : Nat)
  /-- `abort_send`. -/
  | abort (h : Nat)
  /-- `flush_waiter` is cleared. -/
  | takeWaiter (h : Nat)
  /-- The fields of a dropped handle are released. -/
  | release (h : Nat)

namespace SendHandle

/-- Whether the `PollSender` of a handle has a reserved slot. -/
def hasPermit (hs : List SendHandle) (h : Nat) : Bool :=
  (hs[h]?).elim false SendHandle.permit

/-- The handles after an access. -/
def apply (hs : List SendHandle) (acks : Nat) : HandleAccess → List SendHandle
  | .new id held => hs ++ [{ id := id, held := held }]
  | .hold h on => hs.modify h fun x => { x with held := on }
  | .reserve h => hs.modify h fun x => { x with permit := true, waiting := false }
  | .wait h => hs.modify h fun x => { x with waiting := true }
  | .sendData h _ => hs.modify h fun x => { x with permit := false, flushWaiter := none }
  | .sendFin h _ => hs.modify h fun x => { x with permit := false, finQueued := true }
  | .sendFlush h => hs.modify h fun x => { x with permit := false, flushWaiter := some acks }
  | .abort h => hs.modify h fun x => { x with permit := false, waiting := false }
  | .takeWaiter h => hs.modify h fun x => { x with flushWaiter := none }
  | .release h => hs.modify h fun x => { x with alive := false, permit := false, waiting := false }

/-- `Arc::strong_count` of the flags of a send direction: the clones that are alive. -/
def strongCount (hs : List SendHandle) (id : StreamId) : Nat :=
  hs.countP fun x => x.alive && x.id = id

end SendHandle

/-- The channel after an access to a handle. -/
def Channel.poll (c : Channel) (hs : List SendHandle) : HandleAccess → Channel
  | .reserve _ => { c with permits := c.permits + 1 }
  | .sendData _ f => { c.enqueue f with permits := c.permits - 1 }
  | .sendFin _ f => { c.enqueue f with permits := c.permits - 1 }
  | .sendFlush _ =>
      { c with
        queue := c.queue ++ [.flush c.acks.length]
        acks := c.acks ++ [.pending]
        permits := c.permits - 1 }
  | .abort h => { c with permits := c.permits - (SendHandle.hasPermit hs h).toNat }
  | .release h => { c with permits := c.permits - (SendHandle.hasPermit hs h).toNat }
  | _ => c

/-! ## Flags, identifiers, accept queues -/

/-- The flags of `SessionInner`. -/
structure Flags where
  closed : Bool := false
  shutdownStarted : Bool := false
  cancelled : Bool := false
  peerClosed : Bool := false
  peerCloseNotify : Bool := false

/-- A store to a flag. -/
inductive FlagAccess where
  | closed
  | shutdownStarted
  | cancelled
  | peerClosed
  | peerCloseNotify (on : Bool)

def Flags.apply (x : Flags) : FlagAccess → Flags
  | .closed => { x with closed := true }
  | .shutdownStarted => { x with shutdownStarted := true }
  | .cancelled => { x with cancelled := true }
  | .peerClosed => { x with peerClosed := true }
  | .peerCloseNotify on => { x with peerCloseNotify := on }

/-- The allocation counters. They are natural numbers: a session allocates fewer than `2 ^ 64`
identifiers. -/
structure Ids where
  nextUni : Nat := 0
  nextBi : Nat := 0
  nextPeerUni : Nat := 0
  nextPeerBi : Nat := 0
  deriving DecidableEq

/-- A change of a counter. -/
inductive IdAccess where
  /-- The `fetch_add` of `next_stream_id`. -/
  | fetchAdd (dir : StreamDir)
  /-- The `compare_exchange` of `validate_peer_stream_id`. -/
  | peer (id : StreamId)

namespace Ids

/-- The counter that `next_stream_id` increments. -/
def next (x : Ids) : StreamDir → Nat
  | .uni => x.nextUni
  | .bi => x.nextBi

/-- The counter that `validate_peer_stream_id` compares. -/
def nextPeer (x : Ids) : StreamDir → Nat
  | .uni => x.nextPeerUni
  | .bi => x.nextPeerBi

/-- The condition of `validate_peer_stream_id`. Only the inbound task writes these counters, so
its `compare_exchange` then succeeds. -/
def validatePeerStreamId (x : Ids) (id : StreamId) : Bool :=
  decide (x.nextPeer id.dir ≤ id.counter)

/-- The frontier for the initiator and direction of an identifier. -/
def frontier (cfg : Config) (x : Ids) (id : StreamId) : Nat :=
  if id.initiatorIsServer = cfg.isServer then x.next id.dir else x.nextPeer id.dir

/-- `is_retired_direction`. -/
def isRetiredDirection (cfg : Config) (x : Ids) (id : StreamId) (receiving : Bool) : Bool :=
  if id.dir = .uni ∧ decide (id.initiatorIsServer = cfg.isServer) = receiving then false
  else decide (id.counter < x.frontier cfg id)

def apply (x : Ids) : IdAccess → Ids
  | .fetchAdd .uni => { x with nextUni := x.nextUni + 1 }
  | .fetchAdd .bi => { x with nextBi := x.nextBi + 1 }
  | .peer id =>
      match id.dir with
      | .uni => { x with nextPeerUni := Limits.saturatingAdd id.counter 1 }
      | .bi => { x with nextPeerBi := Limits.saturatingAdd id.counter 1 }

end Ids

/-- The accept queues, whether `SessionInner` still has their senders, and whether their receivers
are not dropped. An entry of `bi` is a send handle with its receive stream. -/
structure Accept where
  uniTx : Bool := true
  biTx : Bool := true
  uniRx : Bool := true
  biRx : Bool := true
  uni : List StreamId := []
  bi : List (Nat × StreamId) := []

/-- An access to the accept queues. -/
inductive AcceptAccess where
  /-- `close_all` takes a sender. -/
  | takeTx (bi : Bool)
  /-- `try_send` of an accepted stream. -/
  | push (id : StreamId) (h : Option Nat)
  /-- The first accepted stream is taken. -/
  | pop (bi : Bool)
  /-- A receiver is dropped. -/
  | closeRx (bi : Bool)

def Accept.apply (x : Accept) : AcceptAccess → Accept
  | .takeTx false => { x with uniTx := false }
  | .takeTx true => { x with biTx := false }
  | .push id none => { x with uni := x.uni ++ [id] }
  | .push id (some h) => { x with bi := x.bi ++ [(h, id)] }
  | .pop false => { x with uni := x.uni.tail }
  | .pop true => { x with bi := x.bi.tail }
  | .closeRx false => { x with uniRx := false }
  | .closeRx true => { x with biRx := false }

/-! ## The memory -/

/-- The shared memory of a session. -/
structure Memory where
  flags : Flags := {}
  ids : Ids := {}
  sends : SendTable := {}
  handles : List SendHandle := []
  recvs : RecvTable := {}
  accept : Accept := {}
  chan : Channel := {}
  sessionHandles : Nat := 1
  activeTasks : Nat := 2

/-- One access to shared memory; `skip` writes nothing. -/
inductive Access where
  | skip
  | flag (a : FlagAccess)
  | id (a : IdAccess)
  | send (a : SendAccess)
  | handle (a : HandleAccess)
  | recv (a : RecvAccess)
  | accept (a : AcceptAccess)
  | chan (a : ChanAccess)
  /-- `session_handles` changes: a clone, or a drop. -/
  | session (clone : Bool)
  /-- `active_tasks` is decremented. -/
  | taskDone

/-- Perform an access. -/
def Memory.apply (m : Memory) : Access → Memory
  | .skip => m
  | .flag a => { m with flags := m.flags.apply a }
  | .id a => { m with ids := m.ids.apply a }
  | .send a => { m with sends := m.sends.apply a }
  | .handle a =>
      { m with
        handles := SendHandle.apply m.handles m.chan.acks.length a
        chan := m.chan.poll m.handles a }
  | .recv a => { m with recvs := m.recvs.apply a }
  | .accept a => { m with accept := m.accept.apply a }
  | .chan a => { m with chan := m.chan.apply a }
  | .session true => { m with sessionHandles := m.sessionHandles + 1 }
  | .session false => { m with sessionHandles := m.sessionHandles - 1 }
  | .taskDone => { m with activeTasks := m.activeTasks - 1 }

end WebsockMux.Native
