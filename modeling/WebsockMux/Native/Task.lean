import WebsockMux.Native.Memory

/-!
# Control points of a native session

The functions of `websock-tungstenite-mux/src/session.rs` as a machine whose steps are single
accesses to shared memory: one atomic load, store, swap or `compare_exchange`, one critical section
of a lock, one operation of a channel. A `Task` is a control point of a running function, and
`Task.next` is its next access together with the control point after it. A task that has to wait
has no next access. Between two steps of one task any other task may run.

Loads that the source joins with `||` are separate steps (`Task.anyOf`), from left to right and
stopping at the first flag that is set. A flag check continues with a `Check`, a call of
`send_frame` with its `SendSite`, a call of `try_send_frame` with its `TrySite`, and a function
without a result with a `Ret`.

Registering a waker changes nothing that another access reads and is not a step; a task that waits
for credit may be polled again at any time.
-/

set_option autoImplicit false

namespace WebsockMux.Native

open WebsockMux.Proto

/-- A shared flag. -/
inductive Flag where
  | finished (id : StreamId)
  | flowClosed (id : StreamId)
  | closed
  | shutdownStarted
  deriving DecidableEq

/-- The value of a flag. -/
def Memory.flag (m : Memory) : Flag → Bool
  | .finished id => (m.sends.cell id).finished
  | .flowClosed id => (m.sends.cell id).flowClosed
  | .closed => m.flags.closed
  | .shutdownStarted => m.flags.shutdownStarted

/-- The flags of `SessionInner::is_closed`. -/
def isClosed : List Flag := [.closed, .shutdownStarted]

/-- A write in progress through the handle `h`: `write_buf` (`direct`) or one call of `poll_write`.
`data` is what is left to write. -/
structure Writer where
  h : Nat
  id : StreamId
  direct : Bool
  data : List UInt8

/-- The length of the next chunk that a writer asks credit for. -/
def Writer.wanted (cfg : Config) (w : Writer) : Nat :=
  min (min w.data.length maxWriteChunk) cfg.limits.maxStreamDataPerFrame

theorem Writer.wanted_le (cfg : Config) (w : Writer) : w.wanted cfg ≤ w.data.length := by
  unfold Writer.wanted
  omega

/-- A writer with a reservation of `grant` bytes for the next chunk of its data. -/
structure Chunk extends Writer where
  grant : Nat
  grant_le : grant ≤ data.length

/-- The frame that publishes a chunk. -/
def Chunk.frame (c : Chunk) : Frame := .stream c.id (c.data.take c.grant) false

/-- The writer behind a published chunk. -/
def Chunk.rest (c : Chunk) : Writer := { c.toWriter with data := c.data.drop c.grant }

/-- A call of a `SendStream` method. -/
inductive SendCall where
  | write (w : Writer)
  | finish (id : StreamId)
  | reset (id : StreamId) (code : Nat)
  | pollFlush (h : Nat) (id : StreamId)
  | pollShutdown (h : Nat) (id : StreamId)

/-- The stream of a call. -/
def SendCall.id : SendCall → StreamId
  | .write w => w.id
  | .finish id => id
  | .reset id _ => id
  | .pollFlush _ id => id
  | .pollShutdown _ id => id

/-- The argument of `select_api`: 1 for the direct methods, 2 for `AsyncWrite`, 0 for `reset`. -/
def SendCall.mode : SendCall → Nat
  | .write w => if w.direct then 1 else 2
  | .finish _ => 1
  | .reset _ _ => 0
  | .pollFlush _ _ => 2
  | .pollShutdown _ _ => 2

/-- What is left to do when a function without a result returns. -/
inductive Ret where
  /-- The operation returns to the application. -/
  | done
  /-- `handle_frame` returns `Ok` or an error. -/
  | handled (ok : Bool)
  /-- `request_shutdown`. -/
  | requestShutdown (k : Ret)
  /-- `protocol_error`. -/
  | protocolError (code : Nat) (reason : String) (k : Ret)
  /-- The fields of a `SendStream` are released after its `drop`. -/
  | releaseHandle (h : Nat) (k : Ret)
  /-- The fields of a `RecvStream` are released after its `drop`. -/
  | closeReceiver (id : StreamId) (k : Ret)
  /-- A `RecvStream` is dropped. -/
  | dropRecv (id : StreamId) (k : Ret)
  /-- A `SendStream` is dropped. -/
  | dropSend (h : Nat) (id : StreamId) (k : Ret)
  /-- The inbound task drops its clone of an event sender. -/
  | dropTx (id : StreamId) (k : Ret)
  /-- The receiver of an accept queue is dropped. -/
  | closeAccept (bi : Bool)
  /-- The streams left in an accept queue are dropped with its receiver. -/
  | drainAccept (bi : Bool)
  /-- `task_finished` after `close_all`. -/
  | taskFinished

/-- The calls of `send_frame`. -/
inductive SendSite where
  | openUni (id : StreamId)
  | openBi (id : StreamId)
  /-- `send_initial_credit` in `open_bi`. -/
  | openCredit (id : StreamId)
  /-- `write_buf`. -/
  | write (c : Chunk)
  | finish (id : StreamId)
  | reset (id : StreamId) (code : Nat)
  | stop (id : StreamId) (code : Nat)
  /-- `try_register_inbound_recv_stream`. -/
  | inboundCredit (id : StreamId) (bi : Bool)
  /-- The answer to `StopSending`. -/
  | inboundReset (id : StreamId) (code : Nat)

/-- The frame of a call of `send_frame`. -/
def SendSite.frame (cfg : Config) : SendSite → Frame
  | .openUni id => .openUni id
  | .openBi id => .openBi id
  | .openCredit id => .maxStreamData id cfg.limits.initialStreamWindow
  | .write c => c.frame
  | .finish id => .stream id [] true
  | .reset id code => .resetStream id code
  | .stop id code => .stopSending id code
  | .inboundCredit id _ => .maxStreamData id cfg.limits.initialStreamWindow
  | .inboundReset id code => .resetStream id code

/-- The calls of `try_send_frame`. -/
inductive TrySite where
  /-- Drop of the last handle of an unfinished send direction. -/
  | dropSend (h : Nat) (id : StreamId)
  /-- Drop of an unfinished receive direction. -/
  | dropRecv (id : StreamId)
  /-- `protocol_error` notifies the peer. -/
  | protocolError (code : Nat) (reason : String)

/-- The frame of a call of `try_send_frame`. -/
def TrySite.frame : TrySite → Frame
  | .dropSend _ id => .resetStream id 0
  | .dropRecv id => .stopSending id 0
  | .protocolError code reason => .connectionClose code reason

/-- What a check of flags decides. -/
inductive Check where
  /-- `send_frame` after `is_closed`. -/
  | send (s : SendSite)
  /-- `try_send_frame` after `is_closed`. -/
  | trySend (s : TrySite) (k : Ret)
  /-- `write_buf` and `poll_write` at their start. -/
  | writeStart (w : Writer)
  /-- `try_reserve` after its check of `closed`. -/
  | reserveOpen (w : Writer)
  /-- No credit: the writer fails if a flag is set, else it waits. -/
  | noCredit (w : Writer)
  /-- `finish` after its check of `finished`, and after its check that the stream is open. -/
  | finishCheck (id : StreamId)
  | finishOpen (id : StreamId)
  /-- `poll_shutdown` after its first check of `finished`, after its check that the stream is open,
  and after its second check of `finished`. -/
  | shutdownCheck (h : Nat) (id : StreamId)
  | shutdownOpen (h : Nat) (id : StreamId)
  | shutdownAgain (h : Nat) (id : StreamId)
  /-- Drop of the last `SendStream` after its check of `finished`. -/
  | dropSend (h : Nat) (id : StreamId) (k : Ret)

/-- The steps of `close_all`. -/
inductive CloseStep where
  | swapClosed
  | clearCredit
  | takeUni
  | takeBi
  | clearStreams
  | closeFlows

/-- A control point. -/
inductive Task where
  /-- The operation has returned to the application. -/
  | done
  /-- `handle_frame` has returned `Ok` or an error. -/
  | handled (ok : Bool)
  /-- Load the flags in order until one is set. -/
  | anyOf (flags : List Flag) (c : Check)
  /-- `send_frame` waits for a queue slot, then publishes. -/
  | reserve (s : SendSite)
  | publish (s : SendSite)
  /-- `try_send` of `try_send_frame`. -/
  | trySend (s : TrySite) (k : Ret)
  /-- `request_shutdown`. -/
  | storeShutdown (k : Ret)
  | cancel (k : Ret)
  | closeAll (s : CloseStep) (k : Ret)
  -- `open_uni` and `open_bi`
  | fetchAdd (dir : StreamDir)
  | registerSendFlow (dir : StreamDir) (id : StreamId)
  | registerRecvStream (id : StreamId)
  | openReturn (dir : StreamDir) (id : StreamId)
  | holdRecv (id : StreamId)
  | undoRecv (id : StreamId)
  | undoFlow (id : StreamId) (bi : Bool)
  -- operations on a send stream
  | selectApi (c : SendCall)
  | swapOperation (c : SendCall)
  | endOperation (id : StreamId)
  | loadSent (w : Writer)
  | loadMax (w : Writer) (sent : Nat)
  | casSent (w : Writer) (sent max : Nat)
  | waitCredit (w : Writer)
  /-- `release`, then `abort_send` on the handle `abort`, and the guard is dropped. -/
  | release (id : StreamId) (n : Nat) (abort : Option Nat)
  | abortSend (h : Nat) (id : StreamId)
  /-- A cancelled operation, whose reservation of `n` bytes is never released, requests shutdown,
  and the guard is dropped. -/
  | abandon (id : StreamId) (n : Nat)
  | abandonCancel (id : StreamId)
  | casFinished (id : StreamId)
  | finishRemove (id : StreamId)
  | resetStore (id : StreamId) (code : Nat)
  | resetRemove (id : StreamId) (code : Nat)
  | pollReserve (c : Chunk)
  | pollPublish (c : Chunk)
  | shutdownReserve (h : Nat) (id : StreamId)
  | shutdownPublish (h : Nat) (id : StreamId)
  | shutdownStore (h : Nat) (id : StreamId)
  | shutdownRemove (h : Nat) (id : StreamId)
  | flushPoll (h : Nat)
  | flushReserve (h : Nat)
  | dropSend (h : Nat) (id : StreamId) (k : Ret)
  | dropSendRemove (h : Nat) (id : StreamId) (k : Ret)
  | releaseHandle (h : Nat) (k : Ret)
  -- operations on a receive stream
  | read (id : StreamId) (api : ReadApi) (n : Nat)
  | storeMax (id : StreamId) (target : Nat)
  | queueCredit (id : StreamId) (target : Nat)
  | stopSwap (id : StreamId) (code : Nat)
  | stopMark (id : StreamId) (code : Nat)
  | dropRecv (id : StreamId) (k : Ret)
  | dropRecvSwap (id : StreamId) (k : Ret)
  | closeReceiver (id : StreamId) (k : Ret)
  -- `handle_frame`
  | validatePeer (id : StreamId) (bi : Bool)
  | tryRegister (id : StreamId) (bi : Bool)
  | registerFlow (id : StreamId)
  | newSend (id : StreamId)
  | acceptLock (id : StreamId) (h : Option Nat)
  | acceptSend (id : StreamId) (h : Option Nat)
  | receiveData (id : StreamId) (data : List UInt8) (fin : Bool)
  | deliver (id : StreamId) (data : List UInt8) (fin : Bool)
  | removeRecv (id : StreamId)
  | dropTx (id : StreamId) (k : Ret)
  | recvReset (id : StreamId)
  | stopFlow (id : StreamId) (code : Nat)
  | retired (id : StreamId) (receiving : Bool)
  | updateMax (id : StreamId) (max : Nat)
  -- operations on a session, and the end of its tasks
  | accept (bi : Bool)
  | holdSend (h : Nat) (id : StreamId)
  | dropSession
  | closeAccept (bi : Bool)
  | drainAccept (bi : Bool)
  | sessionShutdown
  | swapShutdown
  | shutdownSlot
  | shutdownSend
  | shutdownAck (n : Nat)
  | shutdownPeer
  | shutdownWait
  | shutdownCancel
  | waitForTasks
  | taskCancel
  | taskDone

/-! ## Control flow between accesses -/

/-- The control point at which a function without a result continues. -/
def Ret.resume : Ret → Task
  | .done => .done
  | .handled ok => .handled ok
  | .requestShutdown k => .storeShutdown k
  | .protocolError code reason k => .anyOf isClosed (.trySend (.protocolError code reason) k)
  | .releaseHandle h k => .releaseHandle h k
  | .closeReceiver id k => .closeReceiver id k
  | .dropRecv id k => .dropRecv id k
  | .dropSend h id k => .dropSend h id k
  | .dropTx id k => .dropTx id k
  | .closeAccept bi => .closeAccept bi
  | .drainAccept bi => .drainAccept bi
  | .taskFinished => .taskCancel

/-- `protocol_error`, whose error `handle_frame` returns after dropping what `k` says. -/
def protocolError (code : Nat) (reason : String) (k : Ret) : Task :=
  (Ret.protocolError code reason k).resume

/-- `send_frame`. -/
def sendFrame (s : SendSite) : Task := .anyOf isClosed (.send s)

/-- `try_reserve`. -/
def tryReserve (w : Writer) : Task := .anyOf [.flowClosed w.id] (.reserveOpen w)

/-- The loop of `write_buf`, and the body of `poll_write`: reserve credit for the next chunk. -/
def writeLoop (cfg : Config) (w : Writer) : Task :=
  if w.data = [] then .endOperation w.id
  else if w.wanted cfg = 0 then .endOperation w.id
  else tryReserve w

/-- `try_reserve` returned 0. -/
def outOfCredit (w : Writer) : Task :=
  if w.direct then .anyOf (.finished w.id :: .flowClosed w.id :: isClosed) (.noCredit w)
  else .anyOf (.flowClosed w.id :: isClosed) (.noCredit w)

/-- `try_reserve` returned a grant. -/
def granted (c : Chunk) : Task :=
  if c.direct then sendFrame (.write c) else .pollReserve c

/-- The chunk for a successful `compare_exchange` from `sent` under the limit `max`. -/
def Writer.chunk (cfg : Config) (w : Writer) (sent max : Nat) : Chunk where
  toWriter := w
  grant := min (max - sent) (w.wanted cfg)
  grant_le := (Nat.min_le_right _ _).trans (w.wanted_le cfg)

/-- The body of a send operation, behind `begin_operation` or `select_api`. -/
def SendCall.body : SendCall → Task
  | .write w =>
      if w.direct then .anyOf (.finished w.id :: isClosed) (.writeStart w)
      else if w.data = [] then .endOperation w.id
      else .anyOf (.finished w.id :: .flowClosed w.id :: isClosed) (.writeStart w)
  | .finish id => .anyOf [.finished id] (.finishCheck id)
  | .reset id code => if code ≤ VarInt.max then .resetStore id code else .endOperation id
  | .pollFlush h _ => .flushPoll h
  | .pollShutdown h id => .anyOf [.finished id] (.shutdownCheck h id)

/-- What follows `select_api`. -/
def SendCall.selected : SendCall → Task
  | .pollFlush h id => (SendCall.pollFlush h id).body
  | .pollShutdown h id => (SendCall.pollShutdown h id).body
  | c => .swapOperation c

/-- The streams of a refused accept are dropped, then `handle_frame` returns an error. -/
def acceptDrop (id : StreamId) : Option Nat → Ret
  | none => .dropRecv id (.handled false)
  | some h => .dropSend h id (.dropRecv id (.handled false))

/-- The result of `send_frame`. -/
def SendSite.resume (cfg : Config) : SendSite → Bool → Task
  | .openUni id, true => .openReturn .uni id
  | .openUni id, false => .undoFlow id false
  | .openBi id, true => sendFrame (.openCredit id)
  | .openBi id, false => .undoRecv id
  | .openCredit id, true => .openReturn .bi id
  | .openCredit id, false => .undoRecv id
  | .write c, true => writeLoop cfg c.rest
  | .write c, false => .release c.id c.grant none
  | .finish id, true => .finishRemove id
  | .finish id, false => .endOperation id
  | .reset id _, _ => .endOperation id
  | .stop _ _, _ => .done
  | .inboundCredit id true, true => .registerFlow id
  | .inboundCredit id false, true => .acceptLock id none
  | .inboundCredit id _, false =>
      .dropRecv id (.protocolError 2 "failed to send initial stream credit" (.handled false))
  | .inboundReset _ _, ok => .handled ok

/-- The result of `try_send_frame`. -/
def TrySite.resume (k : Ret) : TrySite → Bool → Task
  | .dropSend h _, true => .releaseHandle h k
  | .dropSend h _, false => .storeShutdown (.releaseHandle h k)
  | .dropRecv id, true => .closeReceiver id k
  | .dropRecv id, false => .storeShutdown (.closeReceiver id k)
  | .protocolError _ _, _ => .closeAll .swapClosed k

/-- The result of a check: whether one of the flags is set. -/
def Check.resume (cfg : Config) : Check → Bool → Task
  | .send s, true => s.resume cfg false
  | .send s, false => .reserve s
  | .trySend s k, true => s.resume k false
  | .trySend s k, false => .trySend s k
  | .writeStart w, true => .endOperation w.id
  | .writeStart w, false => writeLoop cfg w
  | .reserveOpen w, true => outOfCredit w
  | .reserveOpen w, false => .loadSent w
  | .noCredit w, true => .endOperation w.id
  -- `poll_write` returns `Pending` where `write_buf` waits
  | .noCredit w, false => if w.direct then .waitCredit w else .endOperation w.id
  | .finishCheck id, true => .endOperation id
  | .finishCheck id, false => .anyOf (.flowClosed id :: isClosed) (.finishOpen id)
  | .finishOpen id, true => .endOperation id
  | .finishOpen id, false => .casFinished id
  | .shutdownCheck h id, true => .anyOf [.finished id] (.shutdownAgain h id)
  | .shutdownCheck h id, false => .anyOf (.flowClosed id :: isClosed) (.shutdownOpen h id)
  | .shutdownOpen _ _, true => .done
  | .shutdownOpen h id, false => .anyOf [.finished id] (.shutdownAgain h id)
  | .shutdownAgain h _, true => .flushPoll h
  | .shutdownAgain h id, false => .shutdownReserve h id
  | .dropSend h _ k, true => .releaseHandle h k
  | .dropSend h id k, false => .anyOf isClosed (.trySend (.dropSend h id) k)

/-- The control point after a step of `close_all`. -/
def CloseStep.next (k : Ret) : CloseStep → Task
  | .swapClosed => .closeAll .clearCredit k
  | .clearCredit => .closeAll .takeUni k
  | .takeUni => .closeAll .takeBi k
  | .takeBi => .closeAll .clearStreams k
  | .clearStreams => .closeAll .closeFlows k
  | .closeFlows => k.resume

/-- The access of a step of `close_all`. -/
def CloseStep.access : CloseStep → Access
  | .swapClosed => .flag .closed
  | .clearCredit => .recv .clearCredit
  | .takeUni => .accept (.takeTx false)
  | .takeBi => .accept (.takeTx true)
  | .clearStreams => .recv .clear
  | .closeFlows => .send .clear

/-! ## Steps -/

/-- Whether `send_frame` may publish a frame: a `Stream` frame needs its flow in the table. -/
def SendTable.mayPublish (s : SendTable) : Frame → Bool
  | .stream id _ _ => decide (id ∈ s.flows)
  | _ => true

/-- The outcomes of `poll_reserve` on the `PollSender` of a handle. -/
inductive PollReserve where
  | ready
  | taken
  | pending
  | closed

/-- `poll_reserve`. -/
def Memory.pollReserve (cfg : Config) (m : Memory) (h : Nat) : PollReserve :=
  if SendHandle.hasPermit m.handles h then .ready
  else if m.chan.rxDropped then .closed
  else if m.chan.hasSlot cfg then .taken
  else .pending

/-- `register_send_flow`: the reason it refuses, if it does. -/
def SendTable.refuses (cfg : Config) (s : SendTable) (id : StreamId) : Option String :=
  if cfg.limits.maxOpenStreams ≤ s.flows.card then some "too many open send streams"
  else if id ∈ s.flows then some "duplicate send stream"
  else none

/-- `try_register_inbound_recv_stream`: the error code and reason, if it refuses. -/
def RecvTable.refuses (cfg : Config) (s : RecvTable) (id : StreamId) : Option (Nat × String) :=
  if cfg.limits.maxOpenStreams ≤ s.streams.card then some (3, "too many open streams")
  else if id ∈ s.streams then some (1, "duplicate stream open")
  else none

/-- The checks of `handle_frame` on a `Stream` frame with `n` bytes: the reason it is refused. -/
def RecvTable.refusesData (s : RecvTable) (id : StreamId) (n : Nat) : Option String :=
  if id ∉ s.streams then some "Stream data on unknown stream"
  else if 2 ^ 64 ≤ (s.cell id).received + n then some "stream data overflow"
  else if (s.cell id).maxData < (s.cell id).received + n then
    some "stream flow-control limit exceeded"
  else none

/-- Whether `SessionInner` still has the sender of an accept queue. -/
def Accept.hasTx (x : Accept) (bi : Bool) : Bool := if bi then x.biTx else x.uniTx

/-- Whether the receiver of an accept queue is not dropped. -/
def Accept.hasRx (x : Accept) (bi : Bool) : Bool := if bi then x.biRx else x.uniRx

/-- Whether an accept queue is full. -/
def Accept.full (cfg : Config) (x : Accept) (bi : Bool) : Bool :=
  if bi then decide (cfg.limits.acceptBiQueueLen ≤ x.bi.length)
  else decide (cfg.limits.acceptUniQueueLen ≤ x.uni.length)

namespace Task

variable (cfg : Config) (m : Memory)

/-- The next access of a task and the control point after it; `none` where it waits or has
returned. -/
def next : Task → Option (Access × Task)
  | done => none
  | handled _ => none
  | anyOf [] c => some (.skip, c.resume cfg false)
  | anyOf (f :: fs) c =>
      if m.flag f then some (.skip, c.resume cfg true)
      else if fs = [] then some (.skip, c.resume cfg false)
      else some (.skip, .anyOf fs c)
  | reserve s =>
      if m.chan.rxDropped then some (.skip, s.resume cfg false)
      else if m.chan.hasSlot cfg then some (.chan .takeSlot, .publish s)
      else none
  | publish s =>
      if m.sends.mayPublish (s.frame cfg) then
        some (.chan (.publish (s.frame cfg)), s.resume cfg true)
      else some (.chan .freeSlot, s.resume cfg false)
  | trySend s k =>
      if !m.chan.rxDropped && m.chan.hasSlot cfg then
        some (.chan (.trySend s.frame), s.resume k true)
      else some (.skip, s.resume k false)
  | storeShutdown k => some (.flag .shutdownStarted, .cancel k)
  | cancel k => some (.flag .cancelled, k.resume)
  | closeAll s k =>
      -- `close_all` returns at once when `closed` was already set
      match s with
      | .swapClosed =>
          if m.flags.closed then some (.skip, k.resume)
          else some (.flag .closed, CloseStep.swapClosed.next k)
      | s => some (s.access, s.next k)
  | fetchAdd dir =>
      match StreamId.new (m.ids.next dir) cfg.isServer dir with
      | .ok id => some (.id (.fetchAdd dir), .registerSendFlow dir id)
      | .error _ => some (.id (.fetchAdd dir), .done)
  | registerSendFlow dir id =>
      match m.sends.refuses cfg id with
      | some _ => some (.skip, .done)
      | none =>
          match dir with
          | .uni => some (.send (.register id), sendFrame (.openUni id))
          | .bi => some (.send (.register id), .registerRecvStream id)
  | registerRecvStream id =>
      some (.recv (.register id cfg.limits.initialStreamWindow), sendFrame (.openBi id))
  | openReturn dir id =>
      match dir with
      | .uni => some (.handle (.new id true), .done)
      | .bi => some (.handle (.new id true), .holdRecv id)
  | holdRecv id => some (.recv (.hold id true), .done)
  | undoRecv id => some (.recv (.remove id), .undoFlow id true)
  | undoFlow id bi =>
      if bi then some (.send (.remove id), .dropRecv id .done)
      else some (.send (.remove id), .done)
  | selectApi c =>
      if (m.sends.cell c.id).apiMode = 0 then some (.send (.selectApi c.id c.mode), c.selected)
      else if (m.sends.cell c.id).apiMode = c.mode then some (.skip, c.selected)
      else some (.skip, .done)
  | swapOperation c =>
      if (m.sends.cell c.id).operation then some (.skip, .done)
      else some (.send (.setOperation c.id true), c.body)
  | endOperation id => some (.send (.setOperation id false), .done)
  | loadSent w => some (.skip, .loadMax w (m.sends.cell w.id).sentData)
  | loadMax w sent =>
      if (m.sends.cell w.id).maxData ≤ sent then some (.skip, outOfCredit w)
      else some (.skip, .casSent w sent (m.sends.cell w.id).maxData)
  | casSent w sent max =>
      if (m.sends.cell w.id).sentData = sent then
        some (.send (.reserve w.id (w.chunk cfg sent max).grant), granted (w.chunk cfg sent max))
      else some (.skip, .loadSent w)
  | waitCredit w => some (.skip, tryReserve w)
  | release id n abort =>
      match abort with
      | none => some (.send (.release id n), .endOperation id)
      | some h => some (.send (.release id n), .abortSend h id)
  | abortSend h id => some (.handle (.abort h), .endOperation id)
  | abandon id _ => some (.flag .shutdownStarted, .abandonCancel id)
  | abandonCancel id => some (.flag .cancelled, .endOperation id)
  | casFinished id =>
      if (m.sends.cell id).finished then some (.skip, .endOperation id)
      else some (.send (.finish id), sendFrame (.finish id))
  | finishRemove id => some (.send (.remove id), .endOperation id)
  | resetStore id code => some (.send (.finish id), .resetRemove id code)
  | resetRemove id code => some (.send (.remove id), sendFrame (.reset id code))
  | pollReserve c =>
      match m.pollReserve cfg c.h with
      | .ready => some (.skip, .pollPublish c)
      | .taken => some (.handle (.reserve c.h), .pollPublish c)
      | .pending => some (.handle (.wait c.h), .release c.id c.grant none)
      | .closed => some (.skip, .release c.id c.grant none)
  | pollPublish c =>
      if c.id ∈ m.sends.flows then some (.handle (.sendData c.h c.frame), .endOperation c.id)
      else some (.skip, .release c.id c.grant (some c.h))
  | shutdownReserve h id =>
      if (m.handles[h]?).elim false SendHandle.finQueued then some (.skip, .flushPoll h)
      else
        match m.pollReserve cfg h with
        | .ready => some (.skip, .shutdownPublish h id)
        | .taken => some (.handle (.reserve h), .shutdownPublish h id)
        | .pending => some (.handle (.wait h), .done)
        | .closed => some (.skip, .done)
  | shutdownPublish h id =>
      if id ∈ m.sends.flows then
        some (.handle (.sendFin h (.stream id [] true)), .shutdownStore h id)
      else some (.handle (.abort h), .done)
  | shutdownStore h id => some (.send (.finish id), .shutdownRemove h id)
  | shutdownRemove h id => some (.send (.remove id), .flushPoll h)
  | flushPoll h =>
      match (m.handles[h]?).bind SendHandle.flushWaiter with
      | none => some (.skip, .flushReserve h)
      | some n =>
          if m.chan.acks[n]? = some .pending then some (.skip, .done)
          else some (.handle (.takeWaiter h), .done)
  | flushReserve h =>
      match m.pollReserve cfg h with
      | .ready => some (.handle (.sendFlush h), .flushPoll h)
      | .taken => some (.handle (.reserve h), .flushReserve h)
      | .pending => some (.handle (.wait h), .done)
      | .closed => some (.skip, .done)
  | dropSend h id k =>
      if SendHandle.strongCount m.handles id = 1 then some (.skip, .dropSendRemove h id k)
      else some (.skip, .releaseHandle h k)
  | dropSendRemove h id k => some (.send (.remove id), .anyOf [.finished id] (.dropSend h id k))
  | releaseHandle h k => some (.handle (.release h), k.resume)
  | read id api n =>
      match (m.recvs.cell id).reader.poll cfg.limits (m.recvs.hasSender id) api n
          (m.recvs.cell id).events with
      | .wait => none
      | .ret r events => some (.recv (.read id r events), .done)
      | .again r events => some (.recv (.read id r events), .read id api n)
      | .grant r events target => some (.recv (.read id r events), .storeMax id target)
  | storeMax id target => some (.recv (.storeMax id target), .queueCredit id target)
  | queueCredit id target =>
      if id ∈ m.recvs.streams ∧ (m.recvs.cell id).stopped = false then
        if m.recvs.creditOverflows cfg.limits.maxOpenStreams id then
          some (.recv (.prune cfg.limits.maxOpenStreams), .storeShutdown .done)
        else some (.recv (.queueCredit cfg.limits.maxOpenStreams id target), .done)
      else some (.skip, .done)
  | stopSwap id code =>
      if (m.recvs.cell id).reader.stopSent then some (.skip, .done)
      else some (.recv (.swapStop id), .stopMark id code)
  | stopMark id code =>
      if id ∈ m.recvs.streams then some (.recv (.stop id), sendFrame (.stop id code))
      else some (.skip, .done)
  | dropRecv id k =>
      if id ∈ m.recvs.streams then
        if (m.recvs.cell id).reader.finished then some (.recv (.stop id), .closeReceiver id k)
        else some (.recv (.stop id), .dropRecvSwap id k)
      else some (.skip, .closeReceiver id k)
  | dropRecvSwap id k =>
      if (m.recvs.cell id).reader.stopSent then some (.skip, .closeReceiver id k)
      else some (.recv (.swapStop id), .anyOf isClosed (.trySend (.dropRecv id) k))
  | closeReceiver id k => some (.recv (.closeReceiver id), k.resume)
  | validatePeer id bi =>
      if m.ids.validatePeerStreamId id then some (.id (.peer id), .tryRegister id bi)
      else
        some (.skip, protocolError 1
          (if bi then "OpenBi with non-monotonic StreamId"
            else "OpenUni with non-monotonic StreamId") (.handled false))
  | tryRegister id bi =>
      match m.recvs.refuses cfg id with
      | some (code, reason) => some (.skip, protocolError code reason (.handled false))
      | none =>
          some (.recv (.register id cfg.limits.initialStreamWindow),
            sendFrame (.inboundCredit id bi))
  | registerFlow id =>
      match m.sends.refuses cfg id with
      | some reason =>
          some (.skip, protocolError 3 ("protocol error: " ++ reason)
            (.dropRecv id (.handled false)))
      | none => some (.send (.register id), .newSend id)
  | newSend id => some (.handle (.new id false), .acceptLock id (some m.handles.length))
  | acceptLock id h =>
      if m.accept.hasTx h.isSome then some (.skip, .acceptSend id h)
      else some (.skip, (acceptDrop id h).resume)
  | acceptSend id h =>
      if !m.accept.hasRx h.isSome then some (.skip, (acceptDrop id h).resume)
      else if m.accept.full cfg h.isSome then
        some (.skip, protocolError 3 "accept queue full" (acceptDrop id h))
      else some (.accept (.push id h), .handled true)
  | receiveData id data fin =>
      match m.recvs.refusesData id data.length with
      | some reason => some (.skip, protocolError 2 reason (.handled false))
      | none =>
          if (m.recvs.cell id).stopped then
            if fin then some (.recv (.receive id data.length), .removeRecv id)
            else some (.recv (.receive id data.length), .dropTx id (.handled true))
          else some (.recv (.receive id data.length), .deliver id data fin)
  | deliver id data fin =>
      if (m.recvs.cell id).reader.receiverOpen = false then
        if fin then some (.skip, .removeRecv id)
        else some (.skip, .dropTx id (.handled true))
      else if cfg.limits.recvEventQueueLen ≤ (m.recvs.cell id).events.length then
        some (.skip, protocolError 3 "receive queue full" (.dropTx id (.handled false)))
      else if fin then some (.recv (.deliver id ⟨data, fin⟩), .removeRecv id)
      else some (.recv (.deliver id ⟨data, fin⟩), .dropTx id (.handled true))
  | removeRecv id => some (.recv (.remove id), .dropTx id (.handled true))
  | dropTx id k => some (.recv (.dropTx id), k.resume)
  | recvReset id =>
      if id ∈ m.recvs.streams then some (.recv (.remove id), .handled true)
      else some (.skip, .retired id true)
  | stopFlow id code =>
      if id ∈ m.sends.flows then some (.send (.remove id), sendFrame (.inboundReset id code))
      else some (.skip, .retired id false)
  | retired id receiving =>
      if m.ids.isRetiredDirection cfg id receiving then some (.skip, .handled true)
      else
        some (.skip, protocolError 1
          (if receiving then "reset on unknown stream" else "stop on unknown stream")
          (.handled false))
  | updateMax id max => some (.send (.updateMax id max), .handled true)
  | accept bi =>
      match bi with
      | false =>
          match m.accept.uni with
          | id :: _ => some (.accept (.pop false), .holdRecv id)
          | [] => if m.accept.uniTx then none else some (.skip, .done)
      | true =>
          match m.accept.bi with
          | (h, id) :: _ => some (.accept (.pop true), .holdSend h id)
          | [] => if m.accept.biTx then none else some (.skip, .done)
  | holdSend h id => some (.handle (.hold h true), .holdRecv id)
  | dropSession =>
      if m.sessionHandles = 1 then some (.session false, .storeShutdown (.closeAccept false))
      else some (.session false, .done)
  | closeAccept bi => some (.accept (.closeRx bi), .drainAccept bi)
  | drainAccept bi =>
      match bi with
      | false =>
          match m.accept.uni with
          | id :: _ => some (.accept (.pop false), .dropRecv id (.drainAccept false))
          | [] => some (.skip, .closeAccept true)
      | true =>
          match m.accept.bi with
          | (h, id) :: _ =>
              some (.accept (.pop true), .dropSend h id (.dropRecv id (.drainAccept true)))
          | [] => some (.skip, .done)
  | sessionShutdown =>
      if m.flags.closed then some (.skip, .waitForTasks) else some (.skip, .swapShutdown)
  | swapShutdown =>
      if m.flags.shutdownStarted then some (.skip, .waitForTasks)
      else some (.flag .shutdownStarted, .shutdownSlot)
  | shutdownSlot =>
      if m.chan.rxDropped then some (.skip, .shutdownCancel)
      else if m.chan.hasSlot cfg then some (.chan .takeSlot, .shutdownSend)
      else none
  | shutdownSend => some (.chan .shutdown, .shutdownAck m.chan.acks.length)
  | shutdownAck n =>
      match m.chan.acks[n]? with
      | some .ok => some (.skip, .shutdownWait)
      | some .err => some (.skip, .shutdownCancel)
      | some .dropped => some (.skip, .shutdownPeer)
      | _ => none
  | shutdownPeer =>
      if m.flags.peerClosed then some (.skip, .shutdownWait) else some (.skip, .shutdownCancel)
  | shutdownWait => if m.activeTasks = 0 then some (.skip, .shutdownCancel) else none
  | shutdownCancel => some (.flag .cancelled, .waitForTasks)
  | waitForTasks => if m.activeTasks = 0 then some (.skip, .done) else none
  | taskCancel => some (.flag .cancelled, .taskDone)
  | taskDone => some (.taskDone, .done)

/-- The control point when the future of a suspended operation is dropped: its locals are dropped,
then the guard of `complete_or_abort` requests shutdown, then the guard of a send operation is
dropped. `none` where the operation cannot be suspended. -/
def cancelled : Task → Option Task
  | reserve (.openUni _) => some (.storeShutdown .done)
  | reserve (.openBi id) => some (.dropRecv id (.requestShutdown .done))
  | reserve (.openCredit id) => some (.dropRecv id (.requestShutdown .done))
  | reserve (.write c) => some (.abandon c.id c.grant)
  | reserve (.finish id) => some (.abandon id 0)
  | reserve (.reset id _) => some (.abandon id 0)
  | reserve (.stop _ _) => some (.storeShutdown .done)
  | waitCredit w => some (.abandon w.id 0)
  | read _ _ _ => some .done
  | accept _ => some .done
  | shutdownSlot => some (.storeShutdown .done)
  | shutdownAck _ => some (.storeShutdown .done)
  | shutdownWait => some (.storeShutdown .done)
  | waitForTasks => some (.storeShutdown .done)
  | _ => none

/-- The control point when the loop of the inbound task is dropped while `handle_frame` or
`protocol_error` is suspended: their locals are dropped. -/
def aborted : Task → Option Task
  | reserve (.inboundCredit id _) => some (.dropRecv id (.handled false))
  | reserve (.inboundReset _ _) => some (.handled false)
  | acceptLock id h => some (acceptDrop id h).resume
  | closeAll .takeUni k => some k.resume
  | closeAll .takeBi k => some k.resume
  | _ => none

/-- The control point when the deadline of `shutdown` expires. -/
def timedOut : Task → Option Task
  | shutdownSlot => some .shutdownCancel
  | shutdownAck _ => some .shutdownCancel
  | shutdownWait => some .shutdownCancel
  | _ => none

/-- Whether an operation has returned. -/
def isDone : Task → Bool
  | done => true
  | _ => false

end Task

/-- `handle_frame`. -/
def handleFrame (cfg : Config) : Frame → Task
  | .openUni id =>
      if id.dir ≠ .uni then protocolError 1 "OpenUni with non-uni StreamId" (.handled false)
      else if id.initiatorIsServer = cfg.isServer then
        protocolError 1 "OpenUni with wrong initiator" (.handled false)
      else .validatePeer id false
  | .openBi id =>
      if id.dir ≠ .bi then protocolError 1 "OpenBi with non-bi StreamId" (.handled false)
      else if id.initiatorIsServer = cfg.isServer then
        protocolError 1 "OpenBi with wrong initiator" (.handled false)
      else .validatePeer id true
  | .stream id data fin =>
      if cfg.limits.maxStreamDataPerFrame < data.length then
        protocolError 2 "stream data too large" (.handled false)
      else .receiveData id data fin
  | .resetStream id _ => .recvReset id
  | .stopSending id code => .stopFlow id code
  | .maxStreamData id max => .updateMax id max
  | .connectionClose _ _ => .closeAll .swapClosed (.handled false)

end WebsockMux.Native
