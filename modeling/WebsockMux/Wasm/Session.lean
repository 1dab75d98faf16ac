import WebsockMux.Wasm.Streams

/-!
# A browser session

`Session` and the session task of `websock-wasm-mux/src/session.rs`, and one step of the application
or of the task (`Session.step`). The task is one loop: it handles the frames of a message, or takes
frames and sends them as one message; it suspends while it waits for either, while a message is
sent, and while the WebSocket closes. No await inside `handle_frame` suspends; between two frames of
a message the model lets the application run.
-/

set_option autoImplicit false

namespace WebsockMux.Wasm

open WebsockMux.Lib WebsockMux.Proto
open WebsockMux.Native (Limits ReadApi)

/-! ## Functions of `Session` -/

namespace Memory

variable (l : Limits) (m : Memory)

/-- `open_uni`, with the index of the new handle. -/
def openUni : Memory × Except Error Nat :=
  match m.nextStreamId .uni with
  | (m, .error e) => (m, .error e)
  | (m, .ok id) =>
      match m.registerSendFlow l id with
      | (m, .error e) => (m, .error e)
      | (m, .ok ()) =>
          match m.sendFrame l (.openUni id) with
          | (m, false) => ((m.removeSendFlow id).1, .error .closed)
          | (m, true) => ((m.newSend id true).1, .ok (m.newSend id true).2)

/-- `open_bi` takes its registrations back, and drops the `RecvStream`. -/
def undoOpenBi (id : StreamId) : Memory :=
  ((m.removeRecvStream id).removeSendFlow id).1.dropRecv l id

/-- `open_bi` behind its registrations. -/
def sendOpenBi (id : StreamId) : Memory × Except Error (Nat × StreamId) :=
  match m.sendFrame l (.openBi id) with
  | (m, false) => (m.undoOpenBi l id, .error .closed)
  | (m, true) =>
      match m.sendFrame l (.maxStreamData id l.initialStreamWindow) with
      | (m, false) => (m.undoOpenBi l id, .error .closed)
      | (m, true) =>
          ({ (m.newSend id true).1 with recvs := m.recvs.apply (.hold id true) },
            .ok ((m.newSend id true).2, id))

/-- `open_bi`, with the index of the new handle and the new receive stream. -/
def openBi : Memory × Except Error (Nat × StreamId) :=
  match m.nextStreamId .bi with
  | (m, .error e) => (m, .error e)
  | (m, .ok id) =>
      match m.registerSendFlow l id with
      | (m, .error e) => (m, .error e)
      | (m, .ok ()) => (m.registerRecvStream l id).sendOpenBi l id

/-- `accept_uni`; `none` where it waits. -/
def acceptUni : Option (Memory × Except Error StreamId) :=
  match m.accept.uni with
  | id :: _ =>
      some ({ m with
        accept := m.accept.apply (.pop false), recvs := m.recvs.apply (.hold id true) }, .ok id)
  | [] => if m.accept.uniTx then none else some (m, .error .closed)

/-- `accept_bi`; `none` where it waits. -/
def acceptBi : Option (Memory × Except Error (Nat × StreamId)) :=
  match m.accept.bi with
  | (h, id) :: _ =>
      some ({ m with
        accept := m.accept.apply (.pop true)
        handles := m.handles.modify h fun x => { x with held := true }
        recvs := m.recvs.apply (.hold id true) }, .ok (h, id))
  | [] => if m.accept.biTx then none else some (m, .error .closed)

/-- The receiver of the queue for `accept_uni` is dropped, with the streams left in it. -/
def dropAcceptUni : Memory :=
  m.accept.uni.foldl (fun m id => m.dropRecv l id)
    { m with accept := { m.accept with uniRx := false, uni := [] } }

/-- The receiver of the queue for `accept_bi` is dropped, with the streams left in it. -/
def dropAcceptBi : Memory :=
  m.accept.bi.foldl (fun m p => (m.dropSend l p.1 p.2).dropRecv l p.2)
    { m with accept := { m.accept with biRx := false, bi := [] } }

/-- `Drop for Session`, and the release of its fields. -/
def dropSession : Memory :=
  let m := { m with sessionHandles := m.sessionHandles - 1 }
  if m.sessionHandles = 0 then (m.requestShutdown.dropAcceptUni l).dropAcceptBi l else m

/-! ## `handle_frame` -/

/-- A stream is offered to `accept_uni`. -/
def offerUni (id : StreamId) : Memory × Except Error Unit :=
  if m.accept.uniTx && m.accept.uniRx then
    if l.acceptUniQueueLen < m.accept.uni.length then
      ((m.protocolError l 3 "accept queue full").1.dropRecv l id,
        (m.protocolError l 3 "accept queue full").2)
    else ({ m with accept := m.accept.apply (.push id none) }, .ok ())
  else (m.dropRecv l id, .error .closed)

/-- A stream with both directions is offered to `accept_bi`. -/
def offerBi (id : StreamId) (h : Nat) : Memory × Except Error Unit :=
  if m.accept.biTx && m.accept.biRx then
    if l.acceptBiQueueLen < m.accept.bi.length then
      (((m.protocolError l 3 "accept queue full").1.dropSend l h id).dropRecv l id,
        (m.protocolError l 3 "accept queue full").2)
    else ({ m with accept := m.accept.apply (.push id (some h)) }, .ok ())
  else ((m.dropSend l h id).dropRecv l id, .error .closed)

/-- The checks of an inbound open: the code and the reason of the protocol error. -/
def refusesOpen (dir : StreamDir) (badDir badInitiator notMonotonic : String) (id : StreamId) :
    Option (Nat × String) :=
  if id.dir ≠ dir then some (1, badDir)
  else if id.initiatorIsServer = false then some (1, badInitiator)
  else if m.ids.validatePeerStreamId id then none
  else some (1, notMonotonic)

/-- The frontier moves past an accepted identifier. -/
def acceptPeerId (id : StreamId) : Memory := { m with ids := m.ids.apply (.peer id) }

/-- The receive direction of an inbound open is registered, and the first credit tried. -/
def registerInbound (id : StreamId) : Memory :=
  ((m.registerRecvStream l id).trySendFrame l (.maxStreamData id l.initialStreamWindow)).1

/-- `handle_frame` on `OpenUni`. -/
def handleOpenUni (id : StreamId) : Memory × Except Error Unit :=
  match m.refusesOpen .uni "OpenUni with non-uni StreamId" "OpenUni with wrong initiator"
      "OpenUni with non-monotonic StreamId" id with
  | some (code, reason) => m.protocolError l code reason
  | none =>
      let m := m.acceptPeerId id
      match m.recvs.refuses (config l) id with
      | some (code, reason) => m.protocolError l code reason
      | none => (m.registerInbound l id).offerUni l id

/-- `handle_frame` on `OpenBi`. -/
def handleOpenBi (id : StreamId) : Memory × Except Error Unit :=
  match m.refusesOpen .bi "OpenBi with non-bi StreamId" "OpenBi with wrong initiator"
      "OpenBi with non-monotonic StreamId" id with
  | some (code, reason) => m.protocolError l code reason
  | none =>
      let m := m.acceptPeerId id
      match m.recvs.refuses (config l) id with
      | some (code, reason) => m.protocolError l code reason
      | none =>
          match (m.registerInbound l id).registerSendFlow l id with
          | (m, .error e) =>
              -- the `RecvStream` is dropped when the function returns
              ((m.protocolError l 3 e.toText).1.dropRecv l id, (m.protocolError l 3 e.toText).2)
          | (m, .ok ()) => (m.newSend id false).1.offerBi l id (m.newSend id false).2

/-- The event of a `Stream` frame is put into the channel of an unstopped stream: the new state,
and whether the channel is full. -/
def deliver (id : StreamId) (data : List UInt8) (fin : Bool) : Memory × Bool :=
  if (m.recvs.cell id).stopped then (m, false)
  else if (m.recvs.cell id).reader.receiverOpen = false then (m, false)
  else if l.recvEventQueueLen < (m.recvs.cell id).events.length then (m, true)
  else ({ m with recvs := m.recvs.apply (.deliver id ⟨data, fin⟩) }, false)

/-- `handle_frame` on `Stream`. -/
def handleStream (id : StreamId) (data : List UInt8) (fin : Bool) : Memory × Except Error Unit :=
  if l.maxStreamDataPerFrame < data.length then m.protocolError l 2 "stream data too large"
  else
    match m.recvs.refusesData id data.length with
    | some reason => m.protocolError l 2 reason
    | none =>
        match { m with recvs := (m.recvs.apply (.receive id data.length)).apply (.dropTx id) }.deliver
            l id data fin with
        | (m, full) =>
            let m := if fin then m.removeRecvStream id else m
            if full then m.protocolError l 3 "receive queue full" else (m, .ok ())

/-- `handle_frame` on `ResetStream`. -/
def handleReset (id : StreamId) : Memory × Except Error Unit :=
  if id ∈ m.recvs.streams then (m.removeRecvStream id, .ok ())
  else if m.ids.isRetiredDirection (config l) id true then (m, .ok ())
  else m.protocolError l 1 "reset on unknown stream"

/-- `handle_frame` on `StopSending`. -/
def handleStop (id : StreamId) (code : Nat) : Memory × Except Error Unit :=
  match m.removeSendFlow id with
  | (m, true) =>
      match m.sendFrame l (.resetStream id code) with
      | (m, true) => (m, .ok ())
      | (m, false) => (m, .error .closed)
  | (m, false) =>
      if m.ids.isRetiredDirection (config l) id false then (m, .ok ())
      else m.protocolError l 1 "stop on unknown stream"

/-- `handle_frame`. -/
def handleFrame : Frame → Memory × Except Error Unit
  | .openUni id => m.handleOpenUni l id
  | .openBi id => m.handleOpenBi l id
  | .stream id data fin => m.handleStream l id data fin
  | .resetStream id _ => m.handleReset l id
  | .stopSending id code => m.handleStop l id code
  | .maxStreamData id max => ({ m with sends := m.sends.apply (.updateMax id max) }, .ok ())
  | .connectionClose _ _ => (m.closeAll, .error .closed)

end Memory

/-! ## The session task -/

/-- A WebSocket message. -/
inductive Message where
  | binary (data : List UInt8)
  | text
  deriving DecidableEq

/-- Where the session task is: in its `select!`, in the decode loop, sending a message (with the
frames in it), closing the WebSocket, or finished. -/
inductive Phase where
  | select
  | decoding (cursor : List UInt8)
  | sending (batch : List UInt8) (frames : List Frame)
  | closing
  | finished
  deriving DecidableEq

/-- What the inner loop of the task has collected: the channel after it, the bytes and the frames of
the message, and the frame that is carried over. -/
structure Batch where
  chan : ParkingChannel Frame
  bytes : List UInt8
  frames : List Frame
  carried : Option Frame := none

/-- The inner loop: frames are taken as long as the message has room for them. `none` where a frame
cannot be encoded. -/
def collect (maxFrames maxBytes : Nat) :
    List Frame → ParkingChannel Frame → List UInt8 → List Frame → Option Batch
  | [], c, bytes, frames => some ⟨c, bytes, frames, none⟩
  | f :: queue, c, bytes, frames =>
      if maxFrames ≤ frames.length ∨ maxBytes ≤ bytes.length then some ⟨c, bytes, frames, none⟩
      else
        match f.encode with
        | none => none
        | some next =>
            if bytes ≠ [] ∧ maxBytes < bytes.length + next.length then
              some ⟨c.pop, bytes, frames, some f⟩
            else collect maxFrames maxBytes queue c.pop (bytes ++ next) (frames ++ [f])

/-- A session: its state, the task with the frame it carries over, and the calls of `write_buf`
that were made. The other fields are a history: the frames that the task took, in order, and the
messages that were sent. -/
structure Session where
  mem : Memory := {}
  phase : Phase := .select
  pendingFrame : Option Frame := none
  writes : List (Option Write) := []
  taken : List Frame := []
  written : List (List UInt8) := []

/-- Who takes a step. -/
inductive Label where
  -- functions of `Session`
  | openUni
  | openBi
  | acceptUni
  | acceptBi
  | shutdown
  | cloneSession
  | dropSession
  -- functions of a `SendStream`, and of a `write_buf` in progress
  | write (h : Nat) (data : List UInt8)
  | pollWriteBuf (i : Nat)
  | cancelWriteBuf (i : Nat)
  | finish (h : Nat)
  | reset (h : Nat) (code : Nat)
  | pollWrite (h : Nat) (buf : List UInt8)
  | pollFlush (h : Nat)
  | pollClose (h : Nat)
  | cloneSend (h : Nat)
  | dropSend (h : Nat)
  -- functions of a `RecvStream`
  | read (id : StreamId) (api : ReadApi) (n : Nat)
  | stop (id : StreamId) (code : Nat)
  | dropRecv (id : StreamId)
  -- the session task: a message arrives or the connection fails, a frame of a message is handled,
  -- frames are taken (a credit, or what is queued), a message is sent, the WebSocket is closed
  | receive (msg : Message)
  | receiveErr
  | frame
  | out (credit : Option StreamId)
  | sent (ok : Bool)
  | connClosed
  deriving DecidableEq

namespace Session

variable (l : Limits) (s : Session)

/-- The handle with the index `h`, if the application owns it. -/
def held (h : Nat) : Option SendStream :=
  match s.mem.handles[h]? with
  | some x => if x.live && x.held then some x else none
  | none => none

/-- No `write_buf` through the handle is in progress. -/
def unborrowed (h : Nat) : Bool := s.writes.all fun w => w.all fun w => w.h ≠ h

/-- A step that changes the state only. -/
def withMem (m : Memory) : Session := { s with mem := m }

/-- A call on a handle that borrows it. -/
def onSend (h : Nat) (f : SendStream → Session) : Option Session := (s.held h).map f

/-- A call on a handle that borrows it exclusively, or drops it. -/
def onSendMut (h : Nat) (f : SendStream → Session) : Option Session :=
  if s.unborrowed h then (s.held h).map f else none

/-- A call on a receive stream that the application owns. -/
def onRecv (id : StreamId) (f : Option Session) : Option Session :=
  if (s.mem.recvs.cell id).reader.held then f else none

/-- A call on a session handle. -/
def onSession (f : Option Session) : Option Session :=
  if 0 < s.mem.sessionHandles then f else none

/-- A `write_buf` is polled. -/
def pollWriteBuf (i : Nat) (w : Write) : Session :=
  match s.mem.pollWriteBuf l w with
  | (m, .pending) => s.withMem m
  | (m, .again w) => { s with mem := m, writes := s.writes.set i (some w) }
  | (m, .ret _) => { s with mem := m, writes := s.writes.set i none }

/-- `max_bytes`. -/
def maxBytes : Nat := min l.maxBatchBytes l.maxWsMessageSize

/-- A frame was taken: it and what follows it in the queue are sent as one message. -/
def sendBatch (f : Frame) : Option Session :=
  match f.encode with
  | none => none
  | some bytes =>
      match collect l.maxBatchFrames (maxBytes l) s.mem.chan.queue s.mem.chan bytes [f] with
      | none => none
      | some b =>
          some { s with
            mem := { s.mem with chan := b.chan }
            phase := .sending b.bytes b.frames
            pendingFrame := b.carried
            taken := s.taken ++ b.frames.drop 1 ++ b.carried.toList }

/-- The task takes a frame: the one carried over, one from the queue, or a credit. -/
def out : Option StreamId → Option Session
  | none =>
      match s.pendingFrame with
      | some f => { s with pendingFrame := none }.sendBatch l f
      | none =>
          match s.mem.chan.queue with
          | f :: _ =>
              { s with
                mem := { s.mem with chan := s.mem.chan.pop }
                taken := s.taken ++ [f] }.sendBatch l f
          -- the channel is closed and empty
          | [] => if s.mem.chan.isOpen then none else some { s with phase := .closing }
  | some id =>
      if s.pendingFrame = none ∧ id ∈ s.mem.recvs.pendingCredit then
        { s with
          mem := { s.mem with recvs := s.mem.recvs.apply (.takeCredit id) }
          taken := s.taken ++ [Frame.maxStreamData id (s.mem.recvs.cell id).credit] }.sendBatch l
            (.maxStreamData id (s.mem.recvs.cell id).credit)
      else none

/-- The loop of the task is left after an error, or goes on with the rest of the message. -/
def handled (rest : List UInt8) : Memory × Except Error Unit → Session
  | (m, .ok ()) => { s with mem := m, phase := .decoding rest }
  | (m, .error _) => { s with mem := m, phase := .closing }

/-- A message arrives. -/
def receive : Message → Session
  | .binary data =>
      if l.maxWsMessageSize < data.length then
        s.handled [] (s.mem.protocolError l 2 "ws message too large")
      else { s with phase := .decoding data }
  | .text => s.handled [] (s.mem.protocolError l 1 "text message not supported")

/-- The next frame of the message is handled. -/
def frame : List UInt8 → Session
  | [] => { s with phase := .select }
  | c :: cs =>
      match Frame.decode 32 (c :: cs) with
      | .ok (f, rest) => s.handled rest (s.mem.handleFrame l f)
      | .error _ => s.handled [] (s.mem.protocolError l 1 "invalid frame")

/-- The WebSocket is closed: the receiver is dropped, then `close_all` and `finish_task`. -/
def finishTask : Session :=
  { s with
    mem := { { s.mem with chan := s.mem.chan.dropRx }.closeAll with taskFinished := true }
    phase := .finished }

/-- One step. -/
def step : Label → Option Session
  | .openUni => s.onSession (some (s.withMem (s.mem.openUni l).1))
  | .openBi => s.onSession (some (s.withMem (s.mem.openBi l).1))
  | .acceptUni => s.onSession (s.mem.acceptUni.map fun r => s.withMem r.1)
  | .acceptBi => s.onSession (s.mem.acceptBi.map fun r => s.withMem r.1)
  | .shutdown => s.onSession (some (s.withMem s.mem.requestShutdown))
  | .cloneSession => s.onSession
      (some (s.withMem { s.mem with sessionHandles := s.mem.sessionHandles + 1 }))
  | .dropSession => s.onSession (some (s.withMem (s.mem.dropSession l)))
  | .write h data => s.onSend h fun x =>
      match s.mem.writeBuf h x.id data with
      | (m, .ok w) => { s with mem := m, writes := s.writes ++ [some w] }
      | (m, .error _) => s.withMem m
  | .pollWriteBuf i =>
      match s.writes[i]? with
      | some (some w) => some (s.pollWriteBuf l i w)
      | _ => none
  | .cancelWriteBuf i =>
      match s.writes[i]? with
      | some (some w) =>
          some { s with mem := s.mem.cancelWriteBuf w, writes := s.writes.set i none }
      | _ => none
  | .finish h => s.onSend h fun x => s.withMem (s.mem.finish l x.id).1
  | .reset h code => s.onSend h fun x => s.withMem (s.mem.reset l x.id code).1
  | .pollWrite h buf => s.onSendMut h fun x => s.withMem (s.mem.pollWrite l x.id x.outbound buf).1
  | .pollFlush h => s.onSendMut h fun x => s.withMem (s.mem.pollFlush x.id x.outbound).1
  | .pollClose h => s.onSendMut h fun x => s.withMem (s.mem.pollClose l h x).1
  | .cloneSend h => s.onSend h fun x => s.withMem (s.mem.cloneSend x)
  | .dropSend h => s.onSendMut h fun x => s.withMem (s.mem.dropSend l h x.id)
  | .read id api n => s.onRecv id ((s.mem.read l id api n).map s.withMem)
  | .stop id code => s.onRecv id (some (s.withMem (s.mem.stop l id code).1))
  | .dropRecv id => s.onRecv id (some (s.withMem (s.mem.dropRecv l id)))
  | .receive msg =>
      match s.phase with
      | .select => some (s.receive l msg)
      | _ => none
  | .receiveErr =>
      match s.phase with
      | .select => some { s with phase := .closing }
      | _ => none
  | .frame =>
      match s.phase with
      | .decoding cursor => some (s.frame l cursor)
      | _ => none
  | .out credit =>
      match s.phase with
      | .select => s.out l credit
      | _ => none
  | .sent ok =>
      match s.phase with
      | .sending batch _ =>
          if ok then some { s with phase := .select, written := s.written ++ [batch] }
          else some { s with phase := .closing }
      | _ => none
  | .connClosed =>
      match s.phase with
      | .closing => some s.finishTask
      | _ => none

end Session

end WebsockMux.Wasm
