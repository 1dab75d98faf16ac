import WebsockMux.Wasm.Memory

/-!
# Operations on the streams of a browser session

The methods of `SendStream` and `RecvStream`. `finish`, `reset`, `stop`, the poll functions and the
drops run without suspending. `write_buf` suspends in its two `poll_fn`s, for credit and for a slot
of the channel; a `Write` is its state between two polls, and `Memory.pollWriteBuf` evaluates one of
them. The result of a poll is `none` for `Pending`.
-/

set_option autoImplicit false

namespace WebsockMux.Wasm

open WebsockMux.Lib WebsockMux.Proto
open WebsockMux.Native (Limits RecvStream RecvEvent ReadApi maxWriteChunk)

namespace Memory

variable (l : Limits) (m : Memory)

/-! ## Send streams -/

/-- `session.closed || session.shutdown_started`. -/
def sessionClosed : Bool := m.closed || m.shutdownStarted

/-- `select_api`. -/
def selectApi (id : StreamId) (mode : Nat) : Memory × Except Error Unit :=
  if mode = 0 then (m, .ok ())
  else if (m.sends.cell id).apiMode = 0 then
    ({ m with sends := m.sends.apply (.selectApi id mode) }, .ok ())
  else if (m.sends.cell id).apiMode = mode then (m, .ok ())
  else (m, .error (.protocol "cannot mix direct and AsyncWrite APIs on a send stream"))

/-- `begin_operation`: the guard is taken. -/
def beginOperation (id : StreamId) (mode : Nat) : Memory × Except Error Unit :=
  match m.selectApi id mode with
  | (m, .error e) => (m, .error e)
  | (m, .ok ()) =>
      if (m.sends.cell id).operation then
        (m, .error (.protocol "concurrent send operations are unsupported"))
      else ({ m with sends := m.sends.apply (.setOperation id true) }, .ok ())

/-- The guard of a send operation is dropped. -/
def endOperation (id : StreamId) : Memory :=
  { m with sends := m.sends.apply (.setOperation id false) }

/-- `try_reserve`, and the grant. -/
def tryReserve (id : StreamId) (requested : Nat) : Memory × Nat :=
  if requested = 0 ∨ (m.sends.cell id).flowClosed then (m, 0)
  else if (m.sends.cell id).maxData ≤ (m.sends.cell id).sentData then (m, 0)
  else
    let grant := min ((m.sends.cell id).maxData - (m.sends.cell id).sentData) requested
    ({ m with sends := m.sends.apply (.reserve id grant) }, grant)

/-- `release`. -/
def release (id : StreamId) (n : Nat) : Memory :=
  if n = 0 then m else { m with sends := m.sends.apply (.release id n) }

/-- The length of the next chunk that a writer asks credit for. -/
def wanted (len : Nat) : Nat := min (min len maxWriteChunk) l.maxStreamDataPerFrame

/-- `start_send` of a sender, and whether it succeeds. -/
def startSend (tx : Nat) (f : Frame) : Memory × Bool :=
  ({ m with chan := (m.chan.trySend l.outboundQueueLen tx f).1 },
    decide ((m.chan.trySend l.outboundQueueLen tx f).2 = .ok))

end Memory

/-- A call of `write_buf` in progress: its handle, the number of the sender it has cloned, the bytes
left to write, and the grant for the next chunk. -/
structure Write where
  h : Nat
  id : StreamId
  outbound : Nat
  data : List UInt8
  grant : Option Nat := none

namespace Memory

variable (l : Limits) (m : Memory)

/-- `write_buf` up to its loop. -/
def writeBuf (h : Nat) (id : StreamId) (data : List UInt8) : Memory × Except Error Write :=
  match m.beginOperation id 1 with
  | (m, .error e) => (m, .error e)
  | (m, .ok ()) =>
      if (m.sends.cell id).finished || (m.sends.cell id).flowClosed || m.sessionClosed then
        (m.endOperation id, .error .closed)
      else ({ m with chan := m.chan.clone.1 }, .ok ⟨h, id, m.chan.clone.2, data, none⟩)

/-- What a poll of `write_buf` ends with. -/
inductive WritePoll where
  | pending
  | again (w : Write)
  | ret (r : Except Error Unit)

/-- One evaluation of a `poll_fn` of `write_buf`, or its return. -/
def pollWriteBuf (w : Write) : Memory × WritePoll :=
  match w.grant with
  | none =>
      if w.data = [] then (m.endOperation w.id, .ret (.ok ()))
      else if wanted l w.data.length = 0 then
        (m.endOperation w.id, .ret (.error (.protocol "stream frame payload limit is zero")))
      else
        match m.tryReserve w.id (wanted l w.data.length) with
        | (m, 0) =>
            if (m.sends.cell w.id).flowClosed || (m.sends.cell w.id).finished ||
                m.sessionClosed then
              (m.endOperation w.id, .ret (.error .closed))
            else (m, .pending)
        | (m, grant) => (m, .again { w with grant := some grant })
  | some grant =>
      if (m.sends.cell w.id).flowClosed then
        ((m.release w.id grant).endOperation w.id, .ret (.error .closed))
      else
        match m.chan.pollReady w.outbound with
        | .pending => (m, .pending)
        | .disconnected => ((m.release w.id grant).endOperation w.id, .ret (.error .closed))
        | .ready =>
            match m.startSend l w.outbound (.stream w.id (w.data.take grant) false) with
            | (m, true) => (m, .again { w with data := w.data.drop grant, grant := none })
            | (m, false) => ((m.release w.id grant).endOperation w.id, .ret (.error .closed))

/-- The future of `write_buf` is dropped: the guard of `complete_or_abort` requests shutdown, and
the guard of the operation is dropped. -/
def cancelWriteBuf (w : Write) : Memory := m.requestShutdown.endOperation w.id

/-- `finish`, behind `begin_operation`. -/
def finishBody (id : StreamId) : Memory × Except Error Unit :=
  if (m.sends.cell id).finished then (m, .ok ())
  else if (m.sends.cell id).flowClosed || m.sessionClosed then (m, .error .closed)
  else
    match { m with sends := m.sends.apply (.finish id) }.sendFrame l (.stream id [] true) with
    | (m, true) => ((m.removeSendFlow id).1, .ok ())
    | (m, false) => (m, .error .closed)

/-- `finish`. -/
def finish (id : StreamId) : Memory × Except Error Unit :=
  match m.beginOperation id 1 with
  | (m, .error e) => (m, .error e)
  | (m, .ok ()) => ((m.finishBody l id).1.endOperation id, (m.finishBody l id).2)

/-- `reset`, behind `begin_operation`. -/
def resetBody (id : StreamId) (code : Nat) : Memory × Except Error Unit :=
  if VarInt.max < code then (m, .error (.protocol "reset code exceeds mux varint range"))
  else
    let m := ({ m with sends := m.sends.apply (.finish id) }.removeSendFlow id).1
    match m.sendFrame l (.resetStream id code) with
    | (m, true) => (m, .ok ())
    | (m, false) => (m, .error .closed)

/-- `reset`. -/
def reset (id : StreamId) (code : Nat) : Memory × Except Error Unit :=
  match m.beginOperation id 0 with
  | (m, .error e) => (m, .error e)
  | (m, .ok ()) => ((m.resetBody l id code).1.endOperation id, (m.resetBody l id code).2)

/-- `poll_write`, behind `begin_operation`. -/
def pollWriteBody (id : StreamId) (tx : Nat) (buf : List UInt8) :
    Memory × Option (Except Error Nat) :=
  if buf = [] then (m, some (.ok 0))
  else if (m.sends.cell id).finished || (m.sends.cell id).flowClosed || m.sessionClosed then
    (m, some (.error ioClosed))
  else if wanted l buf.length = 0 then
    (m, some (.error (ioInvalidInput "stream frame payload limit is zero")))
  else
    match m.tryReserve id (wanted l buf.length) with
    | (m, 0) =>
        if (m.sends.cell id).flowClosed || m.sessionClosed then (m, some (.error ioClosed))
        else (m, none)
    | (m, chunk) =>
        match m.chan.pollReady tx with
        | .pending => (m.release id chunk, none)
        | .disconnected => (m.release id chunk, some (.error ioClosed))
        | .ready =>
            match m.startSend l tx (.stream id (buf.take chunk) false) with
            | (m, true) => (m, some (.ok chunk))
            | (m, false) => (m.release id chunk, some (.error ioClosed))

/-- `poll_write`. Its first `select_api` is the one of `begin_operation`. -/
def pollWrite (id : StreamId) (tx : Nat) (buf : List UInt8) :
    Memory × Option (Except Error Nat) :=
  match m.beginOperation id 2 with
  | (m, .error e) => (m, some (.error (.io .other e.toText)))
  | (m, .ok ()) =>
      ((m.pollWriteBody l id tx buf).1.endOperation id, (m.pollWriteBody l id tx buf).2)

/-- `poll_ready` as the result of a poll. -/
def pollReady (tx : Nat) : Option (Except Error Unit) :=
  match m.chan.pollReady tx with
  | .pending => none
  | .disconnected => some (.error ioClosed)
  | .ready => some (.ok ())

/-- `poll_flush`. -/
def pollFlush (id : StreamId) (tx : Nat) : Memory × Option (Except Error Unit) :=
  match m.selectApi id 2 with
  | (m, .error e) => (m, some (.error (.io .other e.toText)))
  | (m, .ok ()) => (m, m.pollReady tx)

/-- `poll_close` of the handle `h`, behind `select_api`. -/
def pollCloseBody (h : Nat) (x : SendStream) : Memory × Option (Except Error Unit) :=
  let id := x.id
  if !(m.sends.cell id).finished && ((m.sends.cell id).flowClosed || m.sessionClosed) then
    (m, some (.error ioClosed))
  else if !(m.sends.cell id).finished && !x.closeInFlight then
    match m.chan.pollReady x.outbound with
    | .pending => (m, none)
    | .disconnected => (m, some (.error ioClosed))
    | .ready =>
        match m.startSend l x.outbound (.stream id [] true) with
        | (m, false) => (m, some (.error ioClosed))
        | (m, true) =>
            let m := { m with
              sends := m.sends.apply (.finish id)
              handles := m.handles.modify h fun x => { x with closeInFlight := true } }
            let m := (m.removeSendFlow id).1
            (m, m.pollReady x.outbound)
  else (m, m.pollReady x.outbound)

/-- `poll_close`. -/
def pollClose (h : Nat) (x : SendStream) : Memory × Option (Except Error Unit) :=
  match m.selectApi x.id 2 with
  | (m, .error e) => (m, some (.error (.io .other e.toText)))
  | (m, .ok ()) => m.pollCloseBody l h x

/-- `Clone for SendStream`. -/
def cloneSend (x : SendStream) : Memory :=
  { m with
    chan := m.chan.clone.1
    handles := m.handles ++ [{ id := x.id, outbound := m.chan.clone.2, held := true }] }

/-! ## Receive streams -/

/-- One evaluation of a read function: its new state, or `none` where it waits. A new limit is
stored and queued at once. -/
def read (id : StreamId) (api : ReadApi) (n : Nat) : Option Memory :=
  match (m.recvs.cell id).reader.poll l (decide (id ∈ m.recvs.streams)) api n
      (m.recvs.cell id).events with
  | .wait => none
  | .ret r events => some { m with recvs := m.recvs.apply (.read id r events) }
  | .again r events => some { m with recvs := m.recvs.apply (.read id r events) }
  | .grant r events target =>
      some ({ m with
        recvs := (m.recvs.apply (.read id r events)).apply (.storeMax id target) }.queueCredit l
          id target)

/-- `stop`. -/
def stop (id : StreamId) (code : Nat) : Memory × Except Error Unit :=
  if VarInt.max < code then (m, .error (.protocol "stop code exceeds mux varint range"))
  else if (m.recvs.cell id).reader.stopSent then (m, .ok ())
  else
    match { m with recvs := m.recvs.apply (.swapStop id) }.stopRecvStream id with
    | (m, false) => (m, .ok ())
    | (m, true) =>
        match m.sendFrame l (.stopSending id code) with
        | (m, true) => (m, .ok ())
        | (m, false) => (m, .error .closed)

end Memory

end WebsockMux.Wasm
