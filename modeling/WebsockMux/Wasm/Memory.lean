import WebsockMux.Lib.ParkingChannel
import WebsockMux.Native.Task

/-!
# State of a browser session

`SessionInner` of `websock-wasm-mux/src/session.rs`, with the `SendStream` and `RecvStream` handles,
and the functions of `SessionInner` that neither handles nor the session task own. A browser session
runs on one thread: a function without an await point that suspends is one step, and is a Lean
function on the state.

The stream tables, the cells of a stream, the read functions and the frontiers are those of the
native session, whose source text they repeat; a browser is always the client. The outbound channel
is `ParkingChannel`, with the session's own sender as number 0. Each of the other channels has one
sender that is never cloned; such a channel is full exactly when it holds more items than its
buffer.
-/

set_option autoImplicit false

namespace WebsockMux.Wasm

open WebsockMux.Lib WebsockMux.Proto
open WebsockMux.Native (Limits Config Ids SendTable RecvTable Accept RecvEvent SendCell RecvCell
  maxWriteChunk)

/-- A browser is always the client. -/
def config (l : Limits) : Config := ⟨false, l⟩

/-- The kinds of `io::Error` that the session makes. -/
inductive IoKind where
  | brokenPipe
  | invalidInput
  | other
  deriving DecidableEq

/-- The errors that a session returns. -/
inductive Error where
  | closed
  | protocol (reason : String)
  | io (kind : IoKind) (message : String)
  deriving DecidableEq

/-- The text of an error of the session. -/
def Error.toText : Error → String
  | closed => "connection closed"
  | protocol reason => "protocol error: " ++ reason
  | io _ message => message

/-- `io_closed`. -/
def ioClosed : Error := .io .brokenPipe "stream is closed"

/-- `io_invalid_input`. -/
def ioInvalidInput (message : String) : Error := .io .invalidInput message

/-- One clone of a `SendStream`: the number of its sender, and whether a FIN was sent through it.
What clones share is the cell of the stream. `live` says that it is not dropped, `held` that the
application owns it. -/
structure SendStream where
  id : StreamId
  outbound : Nat
  closeInFlight : Bool := false
  live : Bool := true
  held : Bool

/-- `SessionInner`, the accept queues, and the handles. -/
structure Memory where
  closed : Bool := false
  shutdownStarted : Bool := false
  taskFinished : Bool := false
  ids : Ids := {}
  sends : SendTable := {}
  recvs : RecvTable := {}
  handles : List SendStream := []
  chan : ParkingChannel Frame := {}
  accept : Accept := {}
  sessionHandles : Nat := 1

namespace Memory

variable (l : Limits) (m : Memory)

/-- `request_shutdown`. -/
def requestShutdown : Memory :=
  if m.shutdownStarted then m
  else { m with shutdownStarted := true, chan := m.chan.close }

/-- `try_send_frame`, and whether it succeeds. -/
def trySendFrame (f : Frame) : Memory × Bool :=
  ({ m with chan := (m.chan.trySend l.outboundQueueLen 0 f).1 },
    decide ((m.chan.trySend l.outboundQueueLen 0 f).2 = .ok))

/-- `send_frame`. -/
def sendFrame (f : Frame) : Memory × Bool := m.trySendFrame l f

/-- `next_stream_id`. -/
def nextStreamId (dir : StreamDir) : Memory × Except Error StreamId :=
  ({ m with ids := m.ids.apply (.fetchAdd dir) },
    match StreamId.new (m.ids.next dir) false dir with
    | .ok id => .ok id
    | .error _ =>
        .error (.protocol "stream id overflow: value too large for varint encoding"))

/-- `register_send_flow`. -/
def registerSendFlow (id : StreamId) : Memory × Except Error Unit :=
  match m.sends.refuses (config l) id with
  | some reason => (m, .error (.protocol reason))
  | none => ({ m with sends := m.sends.apply (.register id) }, .ok ())

/-- `register_recv_stream_locked`. -/
def registerRecvStream (id : StreamId) : Memory :=
  { m with recvs := m.recvs.apply (.register id l.initialStreamWindow) }

/-- `streams.remove`. -/
def removeRecvStream (id : StreamId) : Memory := { m with recvs := m.recvs.apply (.remove id) }

/-- `remove_send_flow`, and whether there was a flow. -/
def removeSendFlow (id : StreamId) : Memory × Bool :=
  ({ m with sends := m.sends.apply (.remove id) }, decide (id ∈ m.sends.flows))

/-- `stop_recv_stream`, and whether the stream is in the table. -/
def stopRecvStream (id : StreamId) : Memory × Bool :=
  if id ∈ m.recvs.streams then ({ m with recvs := m.recvs.apply (.stop id) }, true) else (m, false)

/-- `queue_credit`. -/
def queueCredit (id : StreamId) (maximum : Nat) : Memory :=
  if id ∈ m.recvs.streams ∧ (m.recvs.cell id).stopped = false then
    if m.recvs.creditOverflows l.maxOpenStreams id then
      { m with recvs := m.recvs.apply (.prune l.maxOpenStreams) }.requestShutdown
    else { m with recvs := m.recvs.apply (.queueCredit l.maxOpenStreams id maximum) }
  else m

/-- `close_all`. Its locks are free, since only the session task takes them. -/
def closeAll : Memory :=
  if m.closed then m
  else
    { m with
      closed := true
      recvs := (m.recvs.apply .clearCredit).apply .clear
      sends := m.sends.apply .clear
      accept := (m.accept.apply (.takeTx false)).apply (.takeTx true) }

/-- `protocol_error`. -/
def protocolError (code : Nat) (reason : String) : Memory × Except Error Unit :=
  ((m.trySendFrame l (.connectionClose code reason)).1.closeAll, .error (.protocol reason))

/-- `SendStream::new`, and the index of the handle. -/
def newSend (id : StreamId) (held : Bool) : Memory × Nat :=
  ({ m with
      chan := m.chan.clone.1
      handles := m.handles ++ [{ id := id, outbound := m.chan.clone.2, held := held }] },
    m.handles.length)

/-- `Rc::strong_count` of the flags of a send direction: its live handles. -/
def strongCount (id : StreamId) : Nat := m.handles.countP fun x => x.live && x.id = id

/-- The fields of a dropped `SendStream` are released. -/
def releaseSend (h : Nat) : Memory :=
  { m with handles := m.handles.modify h fun x => { x with live := false, held := false } }

/-- `Drop for SendStream`. -/
def dropSend (h : Nat) (id : StreamId) : Memory :=
  if m.strongCount id ≠ 1 then m.releaseSend h
  else
    let m := (m.removeSendFlow id).1
    if (m.sends.cell id).finished then m.releaseSend h
    else
      match m.trySendFrame l (.resetStream id 0) with
      | (m, true) => m.releaseSend h
      | (m, false) => m.requestShutdown.releaseSend h

/-- The fields of a dropped `RecvStream` are released. -/
def releaseRecv (id : StreamId) : Memory :=
  { m with recvs := (m.recvs.apply (.closeReceiver id)).apply (.hold id false) }

/-- `Drop for RecvStream`. -/
def dropRecv (id : StreamId) : Memory :=
  match m.stopRecvStream id with
  | (m, false) => m.releaseRecv id
  | (m, true) =>
      if (m.recvs.cell id).reader.finished then m.releaseRecv id
      else if (m.recvs.cell id).reader.stopSent then m.releaseRecv id
      else
        match { m with recvs := m.recvs.apply (.swapStop id) }.trySendFrame l
            (.stopSending id 0) with
        | (m, true) => m.releaseRecv id
        | (m, false) => m.requestShutdown.releaseRecv id

end Memory

end WebsockMux.Wasm
