import WebsockMux.Native.Task

/-!
# A native session

The operations in progress, the inbound task and the outbound task of a session, and one step of
any of them (`Session.step`). A `Label` says who takes the step and, where the source leaves a
choice to its environment, what is chosen: which call the application makes, which message arrives,
whether the transport fails, whether the outbound task takes a command or a credit.

The borrow rules of Rust limit the calls: a handle that is borrowed exclusively, or dropped, has no
other operation in progress.
-/

set_option autoImplicit false

namespace WebsockMux.Native

open WebsockMux.Proto

/-! ## Operations -/

/-- What an operation borrows: a send handle or a receive stream, exclusively or not, a session
handle, or nothing that another operation could conflict with. -/
inductive Use where
  | free
  | session
  | send (h : Nat) (excl : Bool)
  | recv (id : StreamId) (excl : Bool)

/-- Two borrows that cannot be held at the same time. -/
def Use.conflicts : Use → Use → Bool
  | .send h e, .send h' e' => decide (h = h') && (e || e')
  | .recv id e, .recv id' e' => decide (id = id') && (e || e')
  | _, _ => false

/-- An operation of the application. -/
structure Op where
  use : Use
  task : Task

/-- A call of the application. -/
inductive Call where
  | openUni
  | openBi
  | accept (bi : Bool)
  | shutdown
  | cloneSession
  | dropSession
  | write (h : Nat) (data : List UInt8)
  | finish (h : Nat)
  | reset (h : Nat) (code : Nat)
  | pollWrite (h : Nat) (data : List UInt8)
  | pollFlush (h : Nat)
  | pollShutdown (h : Nat)
  | cloneSend (h : Nat)
  | dropSend (h : Nat)
  | read (id : StreamId) (api : ReadApi) (n : Nat)
  | stop (id : StreamId) (code : Nat)
  | dropRecv (id : StreamId)
  deriving DecidableEq

namespace Call

/-- A call on a handle that the application holds. -/
def onSend (m : Memory) (h : Nat) (start : StreamId → Option (Use × Access × Task)) :
    Option (Use × Access × Task) :=
  match m.handles[h]? with
  | some x => if x.held then start x.id else none
  | none => none

/-- A call on a receive stream that the application holds. -/
def onRecv (m : Memory) (id : StreamId) (start : Use × Access × Task) :
    Option (Use × Access × Task) :=
  if (m.recvs.cell id).reader.held then some start else none

/-- What a call borrows, its access at the call, and where it starts. -/
def start (m : Memory) : Call → Option (Use × Access × Task)
  | openUni => some (.session, .skip, .fetchAdd .uni)
  | openBi => some (.session, .skip, .fetchAdd .bi)
  | accept bi => some (.session, .skip, .accept bi)
  | shutdown => some (.session, .skip, .sessionShutdown)
  | cloneSession => some (.free, .session true, .done)
  | dropSession => some (.free, .skip, .dropSession)
  | write h data => onSend m h fun id =>
      some (.send h false, .skip, .selectApi (.write ⟨h, id, true, data⟩))
  | finish h => onSend m h fun id => some (.send h false, .skip, .selectApi (.finish id))
  | reset h code => onSend m h fun id =>
      some (.send h false, .skip, .swapOperation (.reset id code))
  | pollWrite h data => onSend m h fun id =>
      some (.send h true, .skip, .selectApi (.write ⟨h, id, false, data⟩))
  | pollFlush h => onSend m h fun id => some (.send h true, .skip, .selectApi (.pollFlush h id))
  | pollShutdown h => onSend m h fun id =>
      some (.send h true, .skip, .selectApi (.pollShutdown h id))
  | cloneSend h => onSend m h fun id => some (.send h false, .handle (.new id true), .done)
  | dropSend h => onSend m h fun id =>
      some (.send h true, .handle (.hold h false), .dropSend h id .done)
  | read id api n => onRecv m id (.recv id true, .skip, .read id api n)
  | stop id code => onRecv m id
      (.recv id false, .skip, if code ≤ VarInt.max then .stopSwap id code else .done)
  | dropRecv id => onRecv m id (.recv id true, .recv (.hold id false), .dropRecv id .done)

end Call

/-! ## The inbound task -/

/-- The steps of the inbound task when the peer closes the WebSocket. -/
inductive PeerClose where
  | peerClosed
  | shutdownStarted
  | notify
  | wait

/-- Where the inbound task is: waiting for a message, in the decode loop, in `handle_frame` or
`protocol_error` with the rest of the message, closing after the peer's close, or in
`task_finished`. -/
inductive InPhase where
  | idle
  | decoding (cursor : List UInt8)
  | running (t : Task) (cursor : List UInt8)
  | closing (s : PeerClose)
  | ending (t : Task)

/-- The inbound task. `handled` is a history: the frames given to `handle_frame`. -/
structure Inbound where
  phase : InPhase := .idle
  handled : List Frame := []

/-- The function that the inbound task is in. -/
def InPhase.task : InPhase → Task
  | .running t _ => t
  | .ending t => t
  | _ => .done

/-- `task_finished`. -/
def taskFinished : Task := .closeAll .swapClosed .taskFinished

namespace Inbound

variable (cfg : Config) (m : Memory)

/-- A message arrives. A `Ping` is answered when the queue has room. -/
def receive (b : Inbound) : Message → Option (Access × Inbound)
  | .binary data =>
      if cfg.limits.maxWsMessageSize < data.length then
        some (.skip, { b with
          phase := .running (protocolError 2 "ws message too large" (.handled false)) [] })
      else some (.skip, { b with phase := .decoding data })
  | .ping p =>
      if !m.chan.rxDropped && m.chan.hasSlot cfg then some (.chan (.tryWs (.pong p)), b)
      else some (.skip, b)
  | .text => some (.skip, { b with
      phase := .running (protocolError 1 "text message not supported" (.handled false)) [] })
  | .close => some (.skip, { b with phase := .closing .peerClosed })
  | .pong _ => some (.skip, b)

/-- One step of the inbound task. -/
def step (b : Inbound) : Option (Access × Inbound) :=
  match b.phase with
  | .idle => none
  | .decoding [] => some (.skip, { b with phase := .idle })
  | .decoding (c :: cs) =>
      match Frame.decode 64 (c :: cs) with
      | .ok (f, rest) => some (.skip,
          { phase := .running (handleFrame cfg f) rest, handled := b.handled ++ [f] })
      | .error _ => some (.skip,
          { b with phase := .running (protocolError 1 "invalid frame" (.handled false)) [] })
  | .running (.handled true) cursor => some (.skip, { b with phase := .decoding cursor })
  | .running (.handled false) _ => some (.skip, { b with phase := .ending taskFinished })
  | .running t cursor =>
      match t.next cfg m with
      | some (a, t') => some (a, { b with phase := .running t' cursor })
      | none => none
  | .closing .peerClosed =>
      some (.flag .peerClosed, { b with phase := .closing .shutdownStarted })
  | .closing .shutdownStarted =>
      some (.flag .shutdownStarted, { b with phase := .closing .notify })
  | .closing .notify => some (.flag (.peerCloseNotify true), { b with phase := .closing .wait })
  | .closing .wait => none
  | .ending t =>
      match t.next cfg m with
      | some (a, t') => some (a, { b with phase := .ending t' })
      | none => none

/-- The stream ends, or waiting for the close reply times out: the loop is left. -/
def leave (b : Inbound) : Option Inbound :=
  match b.phase with
  | .idle => some { b with phase := .ending taskFinished }
  | .closing .wait => some { b with phase := .ending taskFinished }
  | _ => none

/-- The outer `select!` finds the session cancelled and drops the suspended loop. -/
def cancel (b : Inbound) : Option Inbound :=
  match b.phase with
  | .running t _ =>
      match t.aborted with
      | some t' => some { b with phase := .running t' [] }
      | none => none
  | _ => b.leave

end Inbound

/-! ## The outbound task -/

/-- What the outbound task does when an operation of the sink has succeeded. -/
inductive OutNext where
  /-- `flush_batch` before a frame that does not fit is added. -/
  | append (f : Frame) (bytes : List UInt8)
  /-- Back to the top of the loop. -/
  | loop
  /-- `flush_batch` before a WebSocket message is sent. -/
  | ws (m : Message)
  /-- `flush_batch`, and then the flush, of a `Flush` command. -/
  | flush (n : Nat)
  | ackFlush (n : Nat)
  /-- `flush_batch`, and then the close, of a `Shutdown` command. -/
  | shutdown (n : Nat)
  | ackShutdown (n : Nat)
  /-- `flush_batch`, and then the close, when the session is cancelled or the peer closes. -/
  | close
  | leave

/-- Where the outbound task is. `select`, `selectCancel` and `selectRecv` poll the branches of the
biased `select!` in their order. -/
inductive OutPc where
  | select
  | selectCancel
  | selectRecv
  | took (c : OutboundCmd)
  | append (f : Frame) (bytes : List UInt8)
  | sending (m : Message) (k : OutNext)
  | flushing (k : OutNext)
  | closing (k : OutNext)
  | exit
  | ending (t : Task)

/-- The outbound task: its place, the batch, and whether `Shutdown` closed the sink. The other
fields are a history: the frames taken from the queue or from `pending_credit`, the messages given
to the sink, whether the sink is closed and whether it is dropped; and the frames in the batch, in
the message being sent and in the messages sent. -/
structure Outbound where
  pc : OutPc := .select
  batch : List UInt8 := []
  batchFrames : Nat := 0
  closeSent : Bool := false
  taken : List Frame := []
  written : List Message := []
  sinkClosed : Bool := false
  sinkDropped : Bool := false
  batched : List Frame := []
  inFlight : List Frame := []
  sunk : List Frame := []

/-- The function that the outbound task is in. -/
def OutPc.task : OutPc → Task
  | .ending t => t
  | _ => .done

/-- The oneshot sender that the outbound task holds. -/
def OutNext.ack? : OutNext → Option Nat
  | .flush n => some n
  | .ackFlush n => some n
  | .shutdown n => some n
  | .ackShutdown n => some n
  | _ => none

/-- The choices of the environment in a step of the outbound task. -/
inductive OutChoice where
  /-- The operation is ready. -/
  | ready
  /-- `next_credit` wins the inner `select!`, with the entry of this stream. -/
  | credit (id : StreamId)
  /-- Nothing is ready yet. -/
  | pending
  /-- The transport fails. -/
  | fail
  deriving DecidableEq

namespace Outbound

variable (cfg : Config) (m : Memory)

/-- Continue after a successful operation of the sink, or after an empty `flush_batch`. -/
def proceed (o : Outbound) : OutNext → Outbound
  | .append f bytes => { o with pc := .append f bytes, batchFrames := 0 }
  | .loop => { o with pc := .select, batchFrames := 0 }
  | .ws msg => { o with pc := .sending msg .loop, batchFrames := 0 }
  | .flush n => { o with pc := .flushing (.ackFlush n), batchFrames := 0 }
  | .shutdown n => { o with pc := .closing (.ackShutdown n) }
  | .close => { o with pc := .closing .leave }
  | .ackFlush _ => { o with pc := .select }
  | .ackShutdown _ => { o with pc := .select, closeSent := true }
  | .leave => { o with pc := .exit }

/-- `flush_batch`, then `k`. -/
def flushBatch (o : Outbound) (k : OutNext) : Outbound :=
  if o.batch = [] then o.proceed k
  else
    { o with
      pc := .sending (.binary o.batch) k
      batch := []
      batched := []
      inFlight := o.batched }

/-- `max_bytes`. -/
def maxBytes : Nat := min cfg.limits.maxBatchBytes cfg.limits.maxWsMessageSize

/-- A command is processed. A frame that cannot be encoded stops the task. -/
def process (o : Outbound) : OutboundCmd → Option Outbound
  | .frame f =>
      if o.closeSent then some { o with pc := .select }
      else
        match f.encode with
        | none => none
        | some bytes =>
            if o.batch ≠ [] ∧ maxBytes cfg < o.batch.length + bytes.length then
              some (o.flushBatch (.append f bytes))
            else some { o with pc := .append f bytes }
  | .ws msg => if o.closeSent then some { o with pc := .select } else some (o.flushBatch (.ws msg))
  | .flush n => some (o.flushBatch (.flush n))
  | .shutdown n => some (o.flushBatch (.shutdown n))

/-- A frame is added to the batch. -/
def add (o : Outbound) (f : Frame) (bytes : List UInt8) : Outbound :=
  { o with
    batch := o.batch ++ bytes, batchFrames := o.batchFrames + 1, batched := o.batched ++ [f] }

/-- The batch is sent when it is full or nothing is queued. -/
def settle (o : Outbound) : Outbound :=
  if cfg.limits.maxBatchFrames ≤ o.batchFrames ∨ maxBytes cfg ≤ o.batch.length ∨
      m.chan.queue = [] then o.flushBatch .loop
  else { o with pc := .select }

/-- The access when an operation of the sink completes: the oneshot is resolved. -/
def ackAccess (a : Ack) : OutNext → Access
  | .ackFlush n => .chan (.ack n a)
  | .ackShutdown n => .chan (.ack n a)
  | _ => .skip

/-- An operation of the sink fails: a failed flush is only reported, otherwise the loop is left. -/
def failed (o : Outbound) : OutNext → Access × Outbound
  | .flush n => (.chan (.ack n .err), { o with pc := .exit })
  | .ackFlush n => (.chan (.ack n .err), { o with pc := .select })
  | .shutdown n => (.chan (.ack n .err), { o with pc := .exit })
  | .ackShutdown n => (.chan (.ack n .err), { o with pc := .exit })
  | _ => (.skip, { o with pc := .exit })

/-- `ws_sink.close()`: the first time, a close message is written. -/
def closeSink (o : Outbound) : Outbound :=
  { o with
    written := if o.sinkClosed then o.written else o.written ++ [.close]
    sinkClosed := true }

/-- A frame is taken; after the close of a `Shutdown` it is dropped. -/
def note (o : Outbound) : OutboundCmd → List Frame
  | .frame f => if o.closeSent then o.taken else o.taken ++ [f]
  | _ => o.taken

/-- One step of the outbound task. -/
def step (o : Outbound) (c : OutChoice) : Option (Access × Outbound) :=
  match o.pc, c with
  | .select, .ready =>
      if m.flags.peerCloseNotify then
        some (.flag (.peerCloseNotify false), { o with pc := .closing .leave })
      else some (.skip, { o with pc := .selectCancel })
  | .selectCancel, .ready =>
      if m.flags.cancelled then some (.skip, o.flushBatch .close)
      else some (.skip, { o with pc := .selectRecv })
  | .selectRecv, .ready =>
      match m.chan.queue with
      | [] => none
      | c :: _ => some (.chan .pop, { o with pc := .took c, taken := o.note c })
  | .selectRecv, .credit id =>
      if id ∈ m.recvs.pendingCredit ∧ o.closeSent = false then
        some (.recv (.takeCredit id), { o with
          pc := .took (.frame (.maxStreamData id (m.recvs.cell id).credit))
          taken := o.taken ++ [.maxStreamData id (m.recvs.cell id).credit] })
      else none
  | .selectRecv, .pending => some (.skip, { o with pc := .select })
  | .took cmd, .ready => (o.process cfg cmd).map fun o => (.skip, o)
  | .append f bytes, .ready => some (.skip, (o.add f bytes).settle cfg m)
  | .sending msg k, .ready => some (.skip, { o with
      pc := .flushing k
      written := o.written ++ [msg]
      inFlight := []
      sunk := o.sunk ++ o.inFlight })
  | .flushing k, .ready => some (ackAccess .ok k, o.proceed k)
  | .closing k, .ready => some (ackAccess .ok k, o.closeSink.proceed k)
  | .sending _ k, .fail => some (o.failed k)
  | .flushing k, .fail => some (o.failed k)
  | .closing k, .fail => some (o.failed k)
  | .exit, .ready => some (.chan .dropRx,
      { o with pc := .ending taskFinished, sinkDropped := true })
  | .ending t, .ready =>
      match t.next cfg m with
      | some (a, t') => some (a, { o with pc := .ending t' })
      | none => none
  | _, _ => none

/-- The oneshot that is dropped with the loop. -/
def dropAccess (k : OutNext) : Access :=
  match k.ack? with
  | some n => .chan (.ack n .dropped)
  | none => .skip

/-- The outer `select!` finds the session cancelled and drops the suspended loop. -/
def cancel (o : Outbound) : Option (Access × Outbound) :=
  match o.pc with
  | .select => some (.skip, { o with pc := .exit })
  | .sending _ k => some (dropAccess k, { o with pc := .exit })
  | .flushing k => some (dropAccess k, { o with pc := .exit })
  | .closing k => some (dropAccess k, { o with pc := .exit })
  | _ => none

end Outbound

/-! ## The session -/

/-- A session: its memory, its tasks, the operations of the application, and the number of
`Session` handles that the application owns. -/
structure Session where
  mem : Memory := {}
  inb : Inbound := {}
  out : Outbound := {}
  ops : List Op := []
  owned : Nat := 1

/-- Who takes a step. -/
inductive Label where
  /-- The application calls a function. -/
  | call (c : Call)
  /-- An operation takes a step, its future is dropped, or its deadline expires. -/
  | op (i : Nat)
  | cancelOp (i : Nat)
  | timeout (i : Nat)
  /-- A message arrives, or the transport ends. -/
  | receive (msg : Message)
  | receiveEnd
  | inbound
  | inboundCancel
  | outbound (c : OutChoice)
  | outboundCancel
  /-- The channel assigns a free slot to a waiting `PollSender`. -/
  | assign (h : Nat)
  deriving DecidableEq

namespace Session

variable (cfg : Config)

/-- No operation in progress conflicts with a borrow. -/
def mayBorrow (s : Session) (u : Use) : Bool :=
  s.ops.all fun o => o.task.isDone || !o.use.conflicts u

/-- An operation on a session handle is in progress. -/
def sessionBusy (s : Session) : Bool :=
  s.ops.any fun o => !o.task.isDone && (o.use matches .session)

/-- The session handles that the application owns after a call, if it may make it. -/
def ownedAfter (s : Session) : Call → Option Nat
  | .openUni | .openBi | .accept _ | .shutdown => if 0 < s.owned then some s.owned else none
  | .cloneSession => if 0 < s.owned then some (s.owned + 1) else none
  | .dropSession =>
      if 0 < s.owned ∧ (1 < s.owned ∨ s.sessionBusy = false) then some (s.owned - 1) else none
  | _ => some s.owned

/-- The application makes a call. -/
def call (s : Session) (c : Call) : Option Session :=
  match s.ownedAfter c, c.start s.mem with
  | some owned, some (u, a, t) =>
      if s.mayBorrow u then
        some { s with mem := s.mem.apply a, ops := s.ops ++ [⟨u, t⟩], owned := owned }
      else none
  | _, _ => none

/-- Replace the control point of an operation, after an access. -/
def setOp (s : Session) (i : Nat) (o : Op) (a : Access) (t : Task) : Session :=
  { s with mem := s.mem.apply a, ops := s.ops.set i { o with task := t } }

/-- One step of a session. -/
def step (s : Session) : Label → Option Session
  | .call c => s.call c
  | .op i =>
      match s.ops[i]? with
      | some o => (o.task.next cfg s.mem).map fun (a, t) => s.setOp i o a t
      | none => none
  | .cancelOp i =>
      match s.ops[i]? with
      | some o => o.task.cancelled.map fun t => s.setOp i o .skip t
      | none => none
  | .timeout i =>
      match s.ops[i]? with
      | some o => o.task.timedOut.map fun t => s.setOp i o .skip t
      | none => none
  | .receive msg =>
      match s.inb.phase with
      | .idle => (s.inb.receive cfg s.mem msg).map fun (a, b) =>
          { s with mem := s.mem.apply a, inb := b }
      | _ => none
  | .receiveEnd => s.inb.leave.map fun b => { s with inb := b }
  | .inbound => (s.inb.step cfg s.mem).map fun (a, b) => { s with mem := s.mem.apply a, inb := b }
  | .inboundCancel =>
      if s.mem.flags.cancelled then s.inb.cancel.map fun b => { s with inb := b } else none
  | .outbound c =>
      (s.out.step cfg s.mem c).map fun (a, o) => { s with mem := s.mem.apply a, out := o }
  | .outboundCancel =>
      if s.mem.flags.cancelled then
        s.out.cancel.map fun (a, o) => { s with mem := s.mem.apply a, out := o }
      else none
  | .assign h =>
      match s.mem.handles[h]? with
      | some x =>
          if x.waiting && x.alive && !s.mem.chan.rxDropped && s.mem.chan.hasSlot cfg then
            some { s with mem := s.mem.apply (.handle (.reserve h)) }
          else none
      | none => none

/-- The functions in progress: of the inbound task, of the outbound task, of the application. -/
def tasks (s : Session) : List Task :=
  s.inb.phase.task :: s.out.pc.task :: s.ops.map Op.task

end Session

end WebsockMux.Native
