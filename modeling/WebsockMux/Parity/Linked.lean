import WebsockMux.Native.EventSender
import WebsockMux.Native.Unhindered
import WebsockMux.Wasm.Session

/-!
# Native and browser sessions side by side

The two implementations keep the same tables: the identifiers, the send flows, the receive streams
with their events and credits, and the accept queues. `Same` says that these are equal, with the
flags of the session and the frames placed on the outbound queue. `Linked` adds what the comparison of
the next function needs: the handles of the two sessions correspond, the queues hold the same frames,
and no function of either one is half-way.

A function of the native session that runs alone and meets no full queue, and the browser's function
of the same name, keep the link.
-/

set_option autoImplicit false

namespace WebsockMux.Parity

open WebsockMux.Lib WebsockMux.Proto
open WebsockMux.Native (Limits Task Ret SendSite TrySite RecvAccess SendTable RecvTable Ids)
open WebsockMux.Wasm (config)

/-! ## The relation -/

/-- Two sessions in the same protocol state. -/
structure Same (m : Native.Memory) (w : Wasm.Memory) : Prop where
  closed : w.closed = m.flags.closed
  shutdown : w.shutdownStarted = m.flags.shutdownStarted
  /-- the frontiers -/
  ids : w.ids = m.ids
  /-- the flows: limit, closed and sent data -/
  sends : w.sends = m.sends
  /-- received data, limits, stops, events and pending credit -/
  recvs : w.recvs = m.recvs
  accept : w.accept = m.accept
  /-- the frames placed on the outbound queue so far -/
  admitted : w.chan.admitted = m.chan.admitted

/-- What the application and the strong count see of a native handle. -/
def nativeHandle (x : Native.SendHandle) : StreamId × Bool × Bool := (x.id, x.held, x.alive)

/-- What the application and the strong count see of a handle in the browser. -/
def wasmHandle (x : Wasm.SendStream) : StreamId × Bool × Bool := (x.id, x.held, x.live)

/-- Two sessions in the same protocol state, between two functions. -/
structure Linked (m : Native.Memory) (w : Wasm.Memory) : Prop extends Same m w where
  handles : w.handles.map wasmHandle = m.handles.map nativeHandle
  queue : m.chan.queue = w.chan.queue.map .frame
  -- the native session: no slot is reserved, the outbound task is there, no sender is cloned
  permits : m.chan.permits = 0
  receiver : m.chan.rxDropped = false
  idle : ∀ id, (m.recvs.cell id).txHeld = false
  unreserved : ∀ x ∈ m.handles, x.permit = false
  accepting : m.flags.closed = false → m.accept.uniTx = true ∧ m.accept.biTx = true
  receiving : m.accept.uniRx = true ∧ m.accept.biRx = true
  -- the browser session: its own sender is not parked, and closed by a shutdown only
  unparked : w.chan.isParked 0 = false
  channel : w.chan.isOpen = !w.shutdownStarted

variable {l : Limits} {m m' : Native.Memory} {w : Wasm.Memory} {id : StreamId}

theorem Linked.init : Linked {} {} where
  closed := rfl
  shutdown := rfl
  ids := rfl
  sends := rfl
  recvs := rfl
  accept := rfl
  admitted := rfl
  handles := rfl
  queue := rfl
  permits := rfl
  receiver := rfl
  idle _ := rfl
  unreserved := List.forall_mem_nil _
  accepting _ := ⟨rfl, rfl⟩
  receiving := ⟨rfl, rfl⟩
  unparked := rfl
  channel := rfl

theorem Linked.free (h : Linked m w) (ho : m.IsOpen) : m.Free := ⟨ho, h.receiver⟩

/-- Both sessions change their tables in the same way. -/
theorem Linked.withIds (h : Linked m w) (x : Ids) : Linked { m with ids := x } { w with ids := x } :=
  { h with ids := rfl }

theorem Linked.withSends (h : Linked m w) (x : SendTable) :
    Linked { m with sends := x } { w with sends := x } :=
  { h with sends := rfl }

theorem Linked.withRecvs (h : Linked m w) {x : RecvTable} (hx : ∀ id, (x.cell id).txHeld = false) :
    Linked { m with recvs := x } { w with recvs := x } :=
  { h with recvs := rfl, idle := hx }

/-- No access but the one for received data clones a sender. -/
theorem Linked.idle_apply (h : Linked m w) {a : RecvAccess} (ha : ∀ i n, a ≠ .receive i n)
    (id : StreamId) : ((m.recvs.apply a).cell id).txHeld = false := by
  by_contra hne
  rcases RecvTable.txHeld_apply (by simpa using hne) with ⟨hold, -⟩ | ⟨n, rfl⟩
  · rw [h.idle id] at hold
    cases hold
  · exact ha id n rfl

/-- An access to the receive tables. -/
theorem Linked.recv (h : Linked m w) {a : RecvAccess} (ha : ∀ i n, a ≠ .receive i n) :
    Linked { m with recvs := m.recvs.apply a } { w with recvs := w.recvs.apply a } := by
  rw [h.recvs]
  exact h.withRecvs (h.idle_apply ha)

/-- An access to the send tables. -/
theorem Linked.send (h : Linked m w) (a : Native.SendAccess) :
    Linked { m with sends := m.sends.apply a } { w with sends := w.sends.apply a } := by
  rw [h.sends]
  exact h.withSends _

/-- `close_all`. -/
theorem Linked.closeAll (h : Linked m w) : Linked m.closeAll w.closeAll := by
  unfold Native.Memory.closeAll Wasm.Memory.closeAll
  rw [h.closed]
  split_ifs with hc
  · exact h
  · have hidle : ∀ id, (((m.recvs.apply .clearCredit).apply .clear).cell id).txHeld = false := h.idle
    exact { h with
      closed := rfl
      sends := congrArg (SendTable.apply · .clear) h.sends
      recvs := congrArg (fun x => (RecvTable.apply x .clearCredit).apply .clear) h.recvs
      accept := congrArg (fun x => (Native.Accept.apply x (.takeTx false)).apply (.takeTx true))
        h.accept
      idle := hidle
      accepting := fun hclosed => absurd hclosed (by rintro ⟨⟩)
      receiving := h.receiving }

/-! ## Frames -/

/-- The browser places a frame on the queue. -/
def placeWasm (l : Limits) (w : Wasm.Memory) (f : Frame) : Wasm.Memory :=
  { w with chan := w.chan.push l.outboundQueueLen 0 f }

/-- A queue with a free slot is within the browser's buffer. -/
theorem Linked.length_lt (h : Linked m w) (hs : m.chan.hasSlot (config l) = true) :
    w.chan.queue.length < l.outboundQueueLen := by
  have hlt : m.chan.queue.length + m.chan.permits < l.outboundQueueLen := of_decide_eq_true hs
  rw [h.permits, h.queue, List.length_map] at hlt
  exact hlt

/-- A frame is placed on both queues. -/
theorem Linked.place (h : Linked m w) (hs : m.chan.hasSlot (config l) = true) (f : Frame) :
    Linked (m.place f) (placeWasm l w f) := by
  have hpush : w.chan.push l.outboundQueueLen 0 f =
      { w.chan with queue := w.chan.queue ++ [f], admitted := w.chan.admitted ++ [f] } :=
    if_neg (by have := h.length_lt hs; omega)
  unfold placeWasm
  rw [hpush]
  exact { h with
    admitted := congrArg (· ++ [f]) h.admitted
    queue := by
      rw [List.map_append, ← h.queue]
      rfl
    permits := h.permits
    receiver := h.receiver
    unparked := h.unparked
    channel := h.channel }

/-- The writer takes a frame from both queues. -/
theorem Linked.pop (h : Linked m w) :
    Linked (m.apply (.chan .pop)) { w with chan := w.chan.pop } := by
  refine { h with
    admitted := h.admitted, queue := ?_, permits := h.permits, receiver := h.receiver
    unparked := ?_, channel := h.channel }
  · simp only [Native.Memory.apply, Native.Channel.apply, ParkingChannel.pop, h.queue, List.map_tail]
  · have hp := h.unparked
    simp only [ParkingChannel.isParked, ParkingChannel.pop] at hp ⊢
    cases w.chan.parkedQueue.head? with
    | none => exact hp
    | some i =>
        simp only [Option.elim_some, List.getElem?_set]
        split_ifs
        · rfl
        · rfl
        · exact hp

/-- Where the native session finds room, `try_send_frame` of the browser succeeds. -/
theorem Linked.trySendFrame (h : Linked m w) (ho : m.IsOpen) (f : Frame) :
    w.trySendFrame l f = (placeWasm l w f, true) := by
  have hopen : w.chan.isOpen = true := by rw [h.channel, h.shutdown, ho.shutdown, Bool.not_false]
  have hsend : w.chan.canSend 0 = true := by
    rw [ParkingChannel.canSend, hopen, h.unparked]
    rfl
  rw [Wasm.Memory.trySendFrame, ParkingChannel.trySend_of_canSend hsend]
  rfl

theorem Linked.sendFrame (h : Linked m w) (ho : m.IsOpen) (f : Frame) :
    w.sendFrame l f = (placeWasm l w f, true) := h.trySendFrame ho f

/-- `protocol_error` of the browser. -/
theorem Linked.protocolError (h : Linked m w) (ho : m.IsOpen) (code : Nat) (reason : String) :
    w.protocolError l code reason =
      ((placeWasm l w (.connectionClose code reason)).closeAll, .error (.protocol reason)) := by
  rw [Wasm.Memory.protocolError, h.trySendFrame ho]

end WebsockMux.Parity
