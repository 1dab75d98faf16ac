import WebsockMux.Parity.Linked

/-!
# `handle_frame` in both sessions

For every frame, `handle_frame` of the native session and of the browser session end in the same way
and keep the link: both succeed, both fail because the session closes, or both are a protocol error
with the same code and reason (`Linked.handleFrame`). The order of the checks and of the accesses to
the tables differs between the two for `Stream` frames; it makes no difference to the result.
-/

set_option autoImplicit false

namespace WebsockMux.Parity

open WebsockMux.Lib WebsockMux.Proto
open WebsockMux.Native (Limits Task Ret RecvEvent)
open WebsockMux.Wasm (config)

variable {l : Limits} {m m₁ : Native.Memory} {w : Wasm.Memory} {id : StreamId} {t t₁ : Task}
  {before : List Frame} {r : Wasm.Memory × Except Wasm.Error Unit}

/-- How `handle_frame` ends in the two sessions: its result in the native one and in the browser.
`before` are the frames that were placed before it. -/
inductive Ends (before : List Frame) (m : Native.Memory) : Bool → Except Wasm.Error Unit → Prop where
  | ok : Ends before m true (.ok ())
  | closed (h : m.chan.admitted = before) : Ends before m false (.error .closed)
  | protocolError {code : Nat} {reason : String} {fs : List Frame}
      (h : m.chan.admitted = before ++ fs ++ [.connectionClose code reason]) :
      Ends before m false (.error (.protocol reason))

/-- **`handle_frame` ends in the same way**: from a control point of the native one, and with the
result `r` of the browser. -/
def Handles (l : Limits) (before : List Frame) (m : Native.Memory) (t : Task)
    (r : Wasm.Memory × Except Wasm.Error Unit) : Prop :=
  ∃ m' ok, t.Goes (config l) m m' (.handled ok) ∧ Linked m' r.1 ∧ Ends before m' ok r.2

theorem Handles.goes (hg : t.Goes (config l) m m₁ t₁) (h : Handles l before m₁ t₁ r) :
    Handles l before m t r := by
  obtain ⟨m', ok, hg', hl, he⟩ := h
  exact ⟨m', ok, hg.trans hg', hl, he⟩

/-- `handle_frame` returns `Ok`. -/
theorem Handles.ok (h : Linked m w) : Handles l before m (.handled true) (w, .ok ()) :=
  ⟨m, true, Task.Goes.refl _ _ _, h, .ok⟩

/-- `handle_frame` returns the error of `protocol_error`. -/
theorem Handles.error {code : Nat} {reason : String} {fs : List Frame} (h : Linked m w)
    (ho : m.IsOpen) (hf : m.chan.admitted = before ++ fs)
    (hu : (Native.protocolError code reason (.handled false)).Unhindered (config l) m) :
    Handles l before m (Native.protocolError code reason (.handled false))
      (w.protocolError l code reason) := by
  have hadm : (m.place (.connectionClose code reason)).closeAll.chan.admitted =
      before ++ fs ++ [.connectionClose code reason] := by
    rw [Native.Memory.closeAll_chan, ← hf]
    rfl
  rw [h.protocolError ho]
  exact ⟨_, false, Native.goes_protocolError (h.free ho) hu,
    (h.place (hu.trySlot ho) _).closeAll, .protocolError hadm⟩

/-! ## Inbound opens -/

/-- The frontier moves. -/
theorem Linked.acceptPeerId (h : Linked m w) (id : StreamId) :
    Linked (m.apply (.id (.peer id))) (w.acceptPeerId id) := by
  unfold Wasm.Memory.acceptPeerId
  rw [h.ids]
  exact h.withIds _

/-- The receive direction is registered, and the first credit placed. -/
theorem Linked.registerInbound (h : Linked m w) (ho : m.IsOpen) (bi : Bool)
    (hr : m.recvs.refuses (config l) id = none)
    (hu : (Task.tryRegister id bi).Unhindered (config l) m) :
    ∃ m', (Task.tryRegister id bi).Goes (config l) m m'
        ((Native.SendSite.inboundCredit id bi).resume (config l) true) ∧
      m'.IsOpen ∧ Linked m' (w.registerInbound l id) ∧
      m'.chan.admitted = m.chan.admitted ++ [.maxStreamData id l.initialStreamWindow] ∧
      (m'.recvs.cell id).reader.held = false := by
  have hreg : (Task.tryRegister id bi).next (config l) m =
      some (.recv (.register id l.initialStreamWindow), Native.sendFrame (.inboundCredit id bi)) := by
    simp only [Task.next, hr]
    rfl
  have hl := h.recv (a := .register id l.initialStreamWindow) (by rintro _ _ ⟨⟩)
  have hu' := hu.goes (Task.Goes.single hreg)
  have ho' : (m.apply (.recv (.register id l.initialStreamWindow))).IsOpen := ⟨ho.closed, ho.shutdown⟩
  refine ⟨_, (Task.Goes.single hreg).trans (Native.goes_sendFrame (hl.free ho') rfl hu'), ?_, ?_, rfl,
    ?_⟩
  · exact ((hl.free ho').place _).toIsOpen
  · have hplace := hl.place (hu'.slot ho') (.maxStreamData id l.initialStreamWindow)
    unfold Wasm.Memory.registerInbound Wasm.Memory.registerRecvStream
    rw [hl.trySendFrame ho']
    exact hplace
  · exact congrArg (·.reader.held) (Function.update_self id _ m.recvs.cell)

/-- A stream is offered to `accept_uni`. -/
theorem Linked.offerUni (h : Linked m w) (ho : m.IsOpen)
    (hu : (Task.acceptLock id none).Unhindered (config l) m) :
    Handles l before m (.acceptLock id none) (w.offerUni l id) := by
  have htx := (h.accepting ho.closed).1
  have hrx := h.receiving.1
  have hlock : (Task.acceptLock id none).next (config l) m = some (.skip, .acceptSend id none) := by
    simp [Task.next, Native.Accept.hasTx, htx]
  have hfull : m.accept.full (config l) false = false := (hu.goes (Task.Goes.single hlock)).here
  have hsend : (Task.acceptSend id none).next (config l) m =
      some (.accept (.push id none), .handled true) := by
    simp [Task.next, Native.Accept.hasRx, hrx, hfull]
  refine .goes ((Task.Goes.single hlock).trans (Task.Goes.single hsend)) ?_
  have hlen : ¬ l.acceptUniQueueLen < w.accept.uni.length := by
    have hlt : ¬ l.acceptUniQueueLen ≤ m.accept.uni.length := of_decide_eq_false hfull
    rw [h.accept]
    omega
  unfold Wasm.Memory.offerUni
  rw [if_neg hlen, h.accept, htx, hrx]
  exact .ok { h with accept := rfl, accepting := h.accepting, receiving := h.receiving }

/-- A stream with both directions is offered to `accept_bi`. -/
theorem Linked.offerBi (h : Linked m w) (ho : m.IsOpen) {i : Nat}
    (hu : (Task.acceptLock id (some i)).Unhindered (config l) m) :
    Handles l before m (.acceptLock id (some i)) (w.offerBi l id i) := by
  have htx := (h.accepting ho.closed).2
  have hrx := h.receiving.2
  have hlock : (Task.acceptLock id (some i)).next (config l) m =
      some (.skip, .acceptSend id (some i)) := by
    simp [Task.next, Native.Accept.hasTx, htx]
  have hfull : m.accept.full (config l) true = false := (hu.goes (Task.Goes.single hlock)).here
  have hsend : (Task.acceptSend id (some i)).next (config l) m =
      some (.accept (.push id (some i)), .handled true) := by
    simp [Task.next, Native.Accept.hasRx, hrx, hfull]
  refine .goes ((Task.Goes.single hlock).trans (Task.Goes.single hsend)) ?_
  have hlen : ¬ l.acceptBiQueueLen < w.accept.bi.length := by
    have hlt : ¬ l.acceptBiQueueLen ≤ m.accept.bi.length := of_decide_eq_false hfull
    rw [h.accept]
    omega
  unfold Wasm.Memory.offerBi
  rw [if_neg hlen, h.accept, htx, hrx]
  exact .ok { h with accept := rfl, accepting := h.accepting, receiving := h.receiving }

/-- The checks of an inbound open: both sessions refuse it with the same code and reason, or both
go on to the registration of the stream. -/
theorem Linked.refusesOpen (h : Linked m w) (ho : m.IsOpen) (dir : StreamDir) (bi : Bool)
    (badDir badInitiator notMonotonic : String)
    (hmono : notMonotonic = if bi then "OpenBi with non-monotonic StreamId"
      else "OpenUni with non-monotonic StreamId")
    (ht : t = if id.dir ≠ dir then Native.protocolError 1 badDir (.handled false)
      else if id.initiatorIsServer = (config l).isServer then
        Native.protocolError 1 badInitiator (.handled false)
      else .validatePeer id bi)
    (hu : t.Unhindered (config l) m) :
    (∀ code reason, w.refusesOpen dir badDir badInitiator notMonotonic id = some (code, reason) →
      Handles l m.chan.admitted m t (w.protocolError l code reason)) ∧
    (w.refusesOpen dir badDir badInitiator notMonotonic id = none →
      t.Goes (config l) m (m.apply (.id (.peer id))) (.tryRegister id bi)) := by
  -- a check that fails
  have hrefuse : ∀ code reason,
      w.refusesOpen dir badDir badInitiator notMonotonic id = some (code, reason) →
      t.Goes (config l) m m (Native.protocolError code reason (.handled false)) →
      (∀ code reason, w.refusesOpen dir badDir badInitiator notMonotonic id = some (code, reason) →
        Handles l m.chan.admitted m t (w.protocolError l code reason)) ∧
      (w.refusesOpen dir badDir badInitiator notMonotonic id = none →
        t.Goes (config l) m (m.apply (.id (.peer id))) (.tryRegister id bi)) := by
    intro code reason hw hgo
    rw [hw]
    refine ⟨?_, by rintro ⟨⟩⟩
    rintro _ _ ⟨⟩
    exact .goes hgo (.error h ho (List.append_nil _).symm (hu.goes hgo))
  by_cases hdir : id.dir ≠ dir
  · rw [if_pos hdir] at ht
    exact hrefuse 1 badDir (if_pos hdir) (ht ▸ Task.Goes.refl _ _ _)
  by_cases hinit : id.initiatorIsServer = (config l).isServer
  · rw [if_neg hdir, if_pos hinit] at ht
    exact hrefuse 1 badInitiator ((if_neg hdir).trans (if_pos hinit)) (ht ▸ Task.Goes.refl _ _ _)
  rw [if_neg hdir, if_neg hinit] at ht
  have hw : w.refusesOpen dir badDir badInitiator notMonotonic id =
      if m.ids.validatePeerStreamId id then none else some (1, notMonotonic) := by
    rw [← h.ids]
    exact (if_neg hdir).trans (if_neg hinit)
  by_cases hv : m.ids.validatePeerStreamId id = true
  · rw [hw, if_pos hv]
    refine ⟨by rintro _ _ ⟨⟩, fun _ => ?_⟩
    have hn : (Task.validatePeer id bi).next (config l) m =
        some (.id (.peer id), .tryRegister id bi) := by
      simp only [Task.next]
      exact if_pos hv
    exact ht ▸ Task.Goes.single hn
  · have hn : (Task.validatePeer id bi).next (config l) m =
        some (.skip, Native.protocolError 1 notMonotonic (.handled false)) := by
      simp only [Task.next, hmono]
      exact if_neg hv
    exact hrefuse 1 notMonotonic (hw.trans (if_neg hv)) (ht ▸ Task.Goes.single hn)

/-- The registration is refused. -/
theorem Linked.tryRegister_refused (h : Linked m w) (ho : m.IsOpen) {bi : Bool} {code : Nat}
    {reason : String} (hr : m.recvs.refuses (config l) id = some (code, reason))
    (hu : (Task.tryRegister id bi).Unhindered (config l) m) :
    Handles l m.chan.admitted m (.tryRegister id bi) (w.protocolError l code reason) := by
  have hn : (Task.tryRegister id bi).next (config l) m =
      some (.skip, Native.protocolError code reason (.handled false)) := by
    simp only [Task.next, hr]
  have hgo := Task.Goes.single hn
  exact .goes hgo (.error h ho (List.append_nil _).symm (hu.goes hgo))

/-- `handle_frame` on `OpenUni`. -/
theorem Linked.handleOpenUni (h : Linked m w) (ho : m.IsOpen)
    (hu : (Native.handleFrame (config l) (.openUni id)).Unhindered (config l) m) :
    Handles l m.chan.admitted m (Native.handleFrame (config l) (.openUni id))
      (w.handleOpenUni l id) := by
  obtain ⟨hrefused, hnext⟩ := h.refusesOpen ho .uni false "OpenUni with non-uni StreamId"
    "OpenUni with wrong initiator" "OpenUni with non-monotonic StreamId" rfl rfl hu
  unfold Wasm.Memory.handleOpenUni
  split
  · next code reason hw => exact hrefused code reason hw
  · next hw =>
    have hgo := hnext hw
    have hu' := hu.goes hgo
    have hl := h.acceptPeerId id
    have ho' : (m.apply (.id (.peer id))).IsOpen := ⟨ho.closed, ho.shutdown⟩
    refine .goes hgo ?_
    dsimp only
    rw [hl.recvs]
    split
    · next code reason hr => exact hl.tryRegister_refused ho' hr hu'
    · next hr =>
      obtain ⟨m', hgo', ho'', hl', -, -⟩ := hl.registerInbound ho' false hr hu'
      exact .goes hgo' (hl'.offerUni ho'' (hu'.goes hgo'))

/-- `register_send_flow` refuses in both sessions for the same reason, or registers the flow. -/
theorem Linked.registerSendFlow (h : Linked m w) (l : Limits) (id : StreamId) :
    (∃ reason, m.sends.refuses (config l) id = some reason ∧
      w.registerSendFlow l id = (w, .error (.protocol reason))) ∨
    (m.sends.refuses (config l) id = none ∧
      w.registerSendFlow l id = ({ w with sends := m.sends.apply (.register id) }, .ok ())) := by
  unfold Wasm.Memory.registerSendFlow
  rw [← h.sends]
  cases w.sends.refuses (config l) id with
  | some reason => exact .inl ⟨reason, rfl, rfl⟩
  | none => exact .inr ⟨rfl, rfl⟩

/-- A new handle that nobody holds yet. -/
theorem Linked.newSend (h : Linked m w) (id : StreamId) (held : Bool) :
    Linked (m.apply (.handle (.new id held))) (w.newSend id held).1 ∧
      (w.newSend id held).2 = m.handles.length := by
  have hlen : w.handles.length = m.handles.length := by
    simpa using congrArg List.length h.handles
  refine ⟨{ h with
    handles := ?_, unreserved := ?_, unparked := ?_, channel := h.channel
    admitted := h.admitted, queue := h.queue, permits := h.permits, receiver := h.receiver }, hlen⟩
  · simp only [Wasm.Memory.newSend, Native.Memory.apply, Native.SendHandle.apply, List.map_append,
      h.handles]
    rfl
  · intro x hx
    rcases List.mem_append.1 hx with hx | hx
    · exact h.unreserved x hx
    · rw [List.mem_singleton.1 hx]
  · have hp := h.unparked
    simp only [ParkingChannel.isParked, Wasm.Memory.newSend, ParkingChannel.clone] at hp ⊢
    cases hc : w.chan.parked with
    | nil => rfl
    | cons b bs =>
        rw [hc] at hp
        exact hp

/-- The application gives up a stream that it does not have. -/
theorem apply_hold_of_not_held {x : Native.RecvTable} (h : (x.cell id).reader.held = false) :
    x.apply (.hold id false) = x := by
  have hcell : { x.cell id with reader := { (x.cell id).reader with held := false } } = x.cell id := by
    rw [← h]
  simp only [Native.RecvTable.apply, Native.RecvTable.modify, hcell, Function.update_eq_self]

/-- The fields of a `RecvStream` are released that the application does not have. -/
theorem Linked.releaseRecv (h : Linked m w) (hheld : (m.recvs.cell id).reader.held = false) :
    Linked (m.apply (.recv (.closeReceiver id))) (w.releaseRecv id) := by
  have hl := h.recv (a := .closeReceiver id) (by rintro _ _ ⟨⟩)
  unfold Wasm.Memory.releaseRecv
  rw [apply_hold_of_not_held]
  · exact hl
  · rw [h.recvs]
    simpa [Native.RecvTable.apply, Native.RecvTable.modify] using hheld

/-- The send direction of an inbound open is refused: the `RecvStream` is dropped after
`protocol_error`. -/
theorem Linked.registerFlow_refused {f : Frame} {reason : String} (h : Linked m w) (ho : m.IsOpen)
    (hadm : m.chan.admitted = before ++ [f]) (hheld : (m.recvs.cell id).reader.held = false)
    (hr : m.sends.refuses (config l) id = some reason)
    (hu : (Task.registerFlow id).Unhindered (config l) m) :
    Handles l before m (.registerFlow id)
      ((w.protocolError l 3 (Wasm.Error.protocol reason).toText).1.dropRecv l id,
        (w.protocolError l 3 (Wasm.Error.protocol reason).toText).2) := by
  have hn : (Task.registerFlow id).next (config l) m =
      some (.skip, Native.protocolError 3 (Wasm.Error.protocol reason).toText
        (.dropRecv id (.handled false))) := by
    simp only [Task.next, hr]
    rfl
  have hu' := hu.goes (Task.Goes.single hn)
  have hgo := (Task.Goes.single hn).trans (Native.goes_protocolError (h.free ho) hu')
  have hl := (h.place (hu'.trySlot ho)
    (.connectionClose 3 (Wasm.Error.protocol reason).toText)).closeAll
  -- the table is cleared
  have hgone : id ∉ (m.place (.connectionClose 3
      (Wasm.Error.protocol reason).toText)).closeAll.recvs.streams := by
    rw [Native.Memory.closeAll, if_neg (by rw [Bool.not_eq_true]; exact ho.closed)]
    exact Finset.notMem_empty id
  have hdrop : (Task.dropRecv id (.handled false)).next (config l) (m.place (.connectionClose 3
      (Wasm.Error.protocol reason).toText)).closeAll =
      some (.skip, .closeReceiver id (.handled false)) := by
    simp only [Task.next]
    exact if_neg hgone
  rw [h.protocolError ho]
  refine ⟨_, false, hgo.trans ((Task.Goes.single hdrop).trans (Task.Goes.single rfl)), ?_, ?_⟩
  · have hdropped : (placeWasm l w (.connectionClose 3
        (Wasm.Error.protocol reason).toText)).closeAll.dropRecv l id =
        (placeWasm l w (.connectionClose 3 (Wasm.Error.protocol reason).toText)).closeAll.releaseRecv
          id := by
      unfold Wasm.Memory.dropRecv Wasm.Memory.stopRecvStream
      rw [hl.recvs, if_neg hgone]
    dsimp only
    rw [hdropped]
    refine hl.releaseRecv ?_
    rw [Native.Memory.closeAll, if_neg (by rw [Bool.not_eq_true]; exact ho.closed)]
    exact hheld
  · refine .protocolError (show _ = before ++ [f] ++ [.connectionClose 3
      (Wasm.Error.protocol reason).toText] from ?_)
    rw [← hadm]
    exact congrArg Native.Channel.admitted (Native.Memory.closeAll_chan _)

/-- `handle_frame` on `OpenBi`. -/
theorem Linked.handleOpenBi (h : Linked m w) (ho : m.IsOpen)
    (hu : (Native.handleFrame (config l) (.openBi id)).Unhindered (config l) m) :
    Handles l m.chan.admitted m (Native.handleFrame (config l) (.openBi id))
      (w.handleOpenBi l id) := by
  obtain ⟨hrefused, hnext⟩ := h.refusesOpen ho .bi true "OpenBi with non-bi StreamId"
    "OpenBi with wrong initiator" "OpenBi with non-monotonic StreamId" rfl rfl hu
  unfold Wasm.Memory.handleOpenBi
  split
  · next code reason hw => exact hrefused code reason hw
  · next hw =>
    have hgo := hnext hw
    have hu' := hu.goes hgo
    have hl := h.acceptPeerId id
    have ho' : (m.apply (.id (.peer id))).IsOpen := ⟨ho.closed, ho.shutdown⟩
    refine .goes hgo ?_
    dsimp only
    rw [hl.recvs]
    split
    · next code reason hr => exact hl.tryRegister_refused ho' hr hu'
    · next hr =>
      obtain ⟨m', hgo', ho'', hl', hadm, hheld⟩ := hl.registerInbound ho' true hr hu'
      have hu'' := hu'.goes hgo'
      refine .goes hgo' ?_
      rcases hl'.registerSendFlow l id with ⟨reason, hf, hw'⟩ | ⟨hf, hw'⟩
      · rw [hw']
        exact hl'.registerFlow_refused ho'' hadm hheld hf hu''
      · rw [hw']
        have hl₁ := hl'.withSends (m'.sends.apply (.register id))
        obtain ⟨hl₂, hlen⟩ := hl₁.newSend id false
        have hreg : (Task.registerFlow id).next (config l) m' =
            some (.send (.register id), .newSend id) := by
          simp only [Task.next, hf]
        have hgo₂ := (Task.Goes.single hreg).trans (Task.Goes.single rfl)
        refine .goes hgo₂ ?_
        dsimp only
        rw [hlen]
        exact hl₂.offerBi ⟨ho''.closed, ho''.shutdown⟩ (hu''.goes hgo₂)

/-! ## Data -/

/-- The data of a frame is accounted for, and the inbound task has no clone of the sender. -/
def account (x : Native.RecvTable) (id : StreamId) (n : Nat) : Native.RecvTable :=
  (x.apply (.receive id n)).apply (.dropTx id)

/-- The clone of the sender is dropped before or after the event is put into the channel. -/
theorem dropTx_deliver (x : Native.RecvTable) (id : StreamId) (e : RecvEvent) :
    (x.apply (.deliver id e)).apply (.dropTx id) = (x.apply (.dropTx id)).apply (.deliver id e) := by
  simp [Native.RecvTable.apply, Native.RecvTable.modify]

theorem account_cell (x : Native.RecvTable) (id : StreamId) (n : Nat) :
    (account x id n).cell id =
      { x.cell id with received := (x.cell id).received + n, txHeld := false } := by
  simp [account, Native.RecvTable.apply, Native.RecvTable.modify]

theorem Linked.account (h : Linked m w) (id : StreamId) (n : Nat) :
    Linked { m with recvs := account m.recvs id n } { w with recvs := Parity.account w.recvs id n } := by
  rw [h.recvs]
  refine h.withRecvs fun i => ?_
  by_cases hi : i = id
  · rw [hi, account_cell]
  · simpa [Parity.account, Native.RecvTable.apply, Native.RecvTable.modify, hi] using h.idle i

/-- The tables behind `try_send` of the event of a `Stream` frame, if it is made. -/
def offered (x : Native.RecvTable) (id : StreamId) (data : List UInt8) (fin put : Bool) :
    Native.RecvTable :=
  if put then (account x id data.length).apply (.deliver id ⟨data, fin⟩)
  else account x id data.length

/-- The tables after a `Stream` frame that is accepted: whether its event is put into the channel,
and whether the stream leaves the table. -/
def accepted (x : Native.RecvTable) (id : StreamId) (data : List UInt8) (fin put : Bool) :
    Native.RecvTable :=
  if fin then (offered x id data fin put).apply (.remove id) else offered x id data fin put

theorem Linked.accepted (h : Linked m w) (id : StreamId) (data : List UInt8) (fin put : Bool) :
    Linked { m with recvs := accepted m.recvs id data fin put }
      { w with recvs := Parity.accepted w.recvs id data fin put } := by
  have hbase := h.account id data.length
  have hput := hbase.recv (a := .deliver id ⟨data, fin⟩) (by rintro _ _ ⟨⟩)
  unfold Parity.accepted
  cases put with
  | false =>
      cases fin with
      | false => exact hbase
      | true => exact hbase.recv (a := .remove id) (by rintro _ _ ⟨⟩)
  | true =>
      cases fin with
      | false => exact hput
      | true => exact hput.recv (a := .remove id) (by rintro _ _ ⟨⟩)

/-- Whether the event of a `Stream` frame is put into the channel. -/
def puts (x : Native.RecvTable) (id : StreamId) : Bool :=
  !(x.cell id).stopped && (x.cell id).reader.receiverOpen

/-- The browser accepts data. -/
theorem handleStream_accepted {data : List UInt8} (fin : Bool)
    (hlen : ¬ l.maxStreamDataPerFrame < data.length)
    (hr : w.recvs.refusesData id data.length = none)
    (hroom : puts w.recvs id = true → (w.recvs.cell id).events.length < l.recvEventQueueLen) :
    w.handleStream l id data fin =
      ({ w with recvs := accepted w.recvs id data fin (puts w.recvs id) }, .ok ()) := by
  have hcell := account_cell w.recvs id data.length
  have hdeliver :
      Wasm.Memory.deliver l { w with recvs := account w.recvs id data.length } id data fin =
      ({ w with recvs := offered w.recvs id data fin (puts w.recvs id) }, false) := by
    unfold Wasm.Memory.deliver
    dsimp only
    rw [hcell]
    dsimp only
    unfold puts at hroom ⊢
    cases hs : (w.recvs.cell id).stopped with
    | true => rfl
    | false =>
        cases ho : (w.recvs.cell id).reader.receiverOpen with
        | false => rfl
        | true =>
            rw [hs, ho] at hroom
            have := hroom rfl
            rw [if_neg Bool.false_ne_true, if_neg (by rintro ⟨⟩), if_neg (by omega)]
            rfl
  unfold Wasm.Memory.handleStream
  rw [if_neg hlen, hr]
  dsimp only
  rw [show (w.recvs.apply (.receive id data.length)).apply (.dropTx id) =
    account w.recvs id data.length from rfl, hdeliver]
  dsimp only
  rw [if_neg Bool.false_ne_true]
  unfold accepted Wasm.Memory.removeRecvStream
  cases fin <;> rfl

/-- Where `handle_frame` goes on when the event of a `Stream` frame is dealt with. -/
def afterEvent (id : StreamId) (fin : Bool) : Task :=
  if fin then .removeRecv id else .dropTx id (.handled true)

/-- The stream leaves the table with a FIN, and the clone of the sender is dropped. -/
theorem goes_afterEvent {put fin : Bool} {data : List UInt8}
    (hm : { m₁ with recvs := m₁.recvs.apply (.dropTx id) } =
      { m with recvs := offered m.recvs id data fin put }) :
    (afterEvent id fin).Goes (config l) m₁
      { m with recvs := accepted m.recvs id data fin put } (.handled true) := by
  cases fin with
  | false => exact Task.Goes.last rfl hm
  | true =>
      refine (Task.Goes.single rfl).trans (Task.Goes.last rfl ?_)
      exact congrArg (fun x : Native.Memory => { x with recvs := x.recvs.apply (.remove id) }) hm

/-- The native session accepts data. -/
theorem goes_receiveData {data : List UInt8} {fin : Bool}
    (hr : m.recvs.refusesData id data.length = none)
    (hu : (Task.receiveData id data fin).Unhindered (config l) m) :
    (Task.receiveData id data fin).Goes (config l) m
        { m with recvs := accepted m.recvs id data fin (puts m.recvs id) } (.handled true) ∧
      (puts m.recvs id = true → (m.recvs.cell id).events.length < l.recvEventQueueLen) := by
  have hcell : (m.apply (.recv (.receive id data.length))).recvs.cell id =
      { m.recvs.cell id with
        received := (m.recvs.cell id).received + data.length, txHeld := true } := by
    simp [Native.Memory.apply, Native.RecvTable.apply, Native.RecvTable.modify]
  cases hs : (m.recvs.cell id).stopped with
  | true =>
      have hputs : puts m.recvs id = false := by
        unfold puts
        rw [hs]
        rfl
      have hn : (Task.receiveData id data fin).next (config l) m =
          some (.recv (.receive id data.length), afterEvent id fin) := by
        simp only [Task.next, hr, hs]
        cases fin <;> rfl
      rw [hputs]
      exact ⟨(Task.Goes.single hn).trans (goes_afterEvent rfl), by rintro ⟨⟩⟩
  | false =>
      have hn : (Task.receiveData id data fin).next (config l) m =
          some (.recv (.receive id data.length), .deliver id data fin) := by
        simp only [Task.next, hr, hs]
        rfl
      have hgo := Task.Goes.single hn
      have hfull := (hu.goes hgo).here
      cases ho : (m.recvs.cell id).reader.receiverOpen with
      | false =>
          -- `try_send` fails, because the receiver is dropped
          have hputs : puts m.recvs id = false := by
            unfold puts
            rw [hs, ho]
            rfl
          have hd : (Task.deliver id data fin).next (config l)
              (m.apply (.recv (.receive id data.length))) = some (.skip, afterEvent id fin) := by
            simp only [Task.next, hcell, ho]
            cases fin <;> rfl
          rw [hputs]
          exact ⟨hgo.trans ((Task.Goes.single hd).trans (goes_afterEvent rfl)), by rintro ⟨⟩⟩
      | true =>
          have hputs : puts m.recvs id = true := by
            unfold puts
            rw [hs, ho]
            rfl
          have hroom : ¬ l.recvEventQueueLen ≤ (m.recvs.cell id).events.length := by
            simp only [Task.meetsFull, hcell, ho, Bool.true_and, decide_eq_false_iff_not] at hfull
            exact hfull
          have hd : (Task.deliver id data fin).next (config l)
              (m.apply (.recv (.receive id data.length))) =
              some (.recv (.deliver id ⟨data, fin⟩), afterEvent id fin) := by
            simp only [Task.next, hcell, ho]
            rw [if_neg (by rintro ⟨⟩)]
            refine (if_neg hroom).trans ?_
            cases fin <;> rfl
          rw [hputs]
          refine ⟨hgo.trans ((Task.Goes.single hd).trans (goes_afterEvent ?_)),
            fun _ => Nat.lt_of_not_le hroom⟩
          exact congrArg (fun x => { m with recvs := x }) (dropTx_deliver _ id ⟨data, fin⟩)

/-- `handle_frame` on `Stream`. -/
theorem Linked.handleStream (h : Linked m w) (ho : m.IsOpen) {data : List UInt8} {fin : Bool}
    (hu : (Native.handleFrame (config l) (.stream id data fin)).Unhindered (config l) m) :
    Handles l m.chan.admitted m (Native.handleFrame (config l) (.stream id data fin))
      (w.handleStream l id data fin) := by
  by_cases hlen : l.maxStreamDataPerFrame < data.length
  · have hf : Native.handleFrame (config l) (.stream id data fin) =
        Native.protocolError 2 "stream data too large" (.handled false) := if_pos hlen
    have hw : w.handleStream l id data fin = w.protocolError l 2 "stream data too large" :=
      if_pos hlen
    rw [hf] at hu ⊢
    rw [hw]
    exact .error h ho (List.append_nil _).symm hu
  have hf : Native.handleFrame (config l) (.stream id data fin) = .receiveData id data fin :=
    if_neg hlen
  rw [hf] at hu ⊢
  cases hr : m.recvs.refusesData id data.length with
  | some reason =>
      have hn : (Task.receiveData id data fin).next (config l) m =
          some (.skip, Native.protocolError 2 reason (.handled false)) := by
        simp only [Task.next, hr]
      have hw : w.handleStream l id data fin = w.protocolError l 2 reason := by
        unfold Wasm.Memory.handleStream
        rw [if_neg hlen, h.recvs, hr]
      have hgo := Task.Goes.single hn
      rw [hw]
      exact .goes hgo (.error h ho (List.append_nil _).symm (hu.goes hgo))
  | none =>
      obtain ⟨hgo, hroom⟩ := goes_receiveData hr hu
      rw [handleStream_accepted fin hlen (by rw [h.recvs, hr]) (by rw [h.recvs]; exact hroom)]
      refine .goes hgo ?_
      rw [show puts w.recvs id = puts m.recvs id by rw [h.recvs]]
      exact .ok (h.accepted id data fin _)

/-! ## Frames that end a direction, and limits -/

/-- The look at the frontier. -/
theorem Linked.retired (h : Linked m w) (ho : m.IsOpen) {receiving : Bool} {reason : String}
    (hreason : reason = if receiving then "reset on unknown stream" else "stop on unknown stream")
    (hu : (Task.retired id receiving).Unhindered (config l) m) :
    Handles l m.chan.admitted m (.retired id receiving)
      (if w.ids.isRetiredDirection (config l) id receiving then (w, .ok ())
        else w.protocolError l 1 reason) := by
  rw [h.ids]
  by_cases hr : m.ids.isRetiredDirection (config l) id receiving = true
  · have hn : (Task.retired id receiving).next (config l) m = some (.skip, .handled true) := by
      simp only [Task.next]
      exact if_pos hr
    rw [if_pos hr]
    exact .goes (Task.Goes.single hn) (.ok h)
  · have hn : (Task.retired id receiving).next (config l) m =
        some (.skip, Native.protocolError 1 reason (.handled false)) := by
      simp only [Task.next, hreason]
      exact if_neg hr
    have hgo := Task.Goes.single hn
    rw [if_neg hr]
    exact .goes hgo (.error h ho (List.append_nil _).symm (hu.goes hgo))

/-- `handle_frame` on `ResetStream`. -/
theorem Linked.handleReset (h : Linked m w) (ho : m.IsOpen)
    (hu : (Task.recvReset id).Unhindered (config l) m) :
    Handles l m.chan.admitted m (.recvReset id) (w.handleReset l id) := by
  unfold Wasm.Memory.handleReset
  rw [h.recvs]
  by_cases hid : id ∈ m.recvs.streams
  · have hn : (Task.recvReset id).next (config l) m = some (.recv (.remove id), .handled true) := by
      simp only [Task.next]
      exact if_pos hid
    rw [if_pos hid]
    exact .goes (Task.Goes.single hn) (.ok (h.recv (by rintro _ _ ⟨⟩)))
  · have hn : (Task.recvReset id).next (config l) m = some (.skip, .retired id true) := by
      simp only [Task.next]
      exact if_neg hid
    have hgo := Task.Goes.single hn
    rw [if_neg hid]
    exact .goes hgo (h.retired ho rfl (hu.goes hgo))

/-- `remove_send_flow` of a flow that is not in the table changes nothing. -/
theorem apply_remove_of_notMem {x : Native.SendTable} (h : id ∉ x.flows) :
    x.apply (.remove id) = x := by
  have hcell : { x.cell id with
      flowClosed := (x.cell id).flowClosed || decide (id ∈ x.flows) } = x.cell id := by
    rw [decide_eq_false h, Bool.or_false]
  simp only [Native.SendTable.apply, Native.SendTable.removeSendFlow, Native.SendTable.modify, hcell,
    Function.update_eq_self, Finset.erase_eq_of_notMem h]

/-- `handle_frame` on `StopSending`. -/
theorem Linked.handleStop (h : Linked m w) (ho : m.IsOpen) {code : Nat}
    (hu : (Task.stopFlow id code).Unhindered (config l) m) :
    Handles l m.chan.admitted m (.stopFlow id code) (w.handleStop l id code) := by
  by_cases hid : id ∈ m.sends.flows
  · have hn : (Task.stopFlow id code).next (config l) m =
        some (.send (.remove id), Native.sendFrame (.inboundReset id code)) := by
      simp only [Task.next]
      exact if_pos hid
    have hgo := Task.Goes.single hn
    have hl := h.send (.remove id)
    have ho' : (m.apply (.send (.remove id))).IsOpen := ⟨ho.closed, ho.shutdown⟩
    have hu' := hu.goes hgo
    have hw : w.handleStop l id code = (placeWasm l { w with sends := w.sends.apply (.remove id) }
        (.resetStream id code), .ok ()) := by
      unfold Wasm.Memory.handleStop Wasm.Memory.removeSendFlow
      rw [decide_eq_true (by rw [h.sends]; exact hid)]
      dsimp only
      rw [hl.sendFrame ho']
    rw [hw]
    exact .goes (hgo.trans (Native.goes_sendFrame (hl.free ho') rfl hu'))
      (.ok (hl.place (hu'.slot ho') _))
  · have hn : (Task.stopFlow id code).next (config l) m = some (.skip, .retired id false) := by
      simp only [Task.next]
      exact if_neg hid
    have hgo := Task.Goes.single hn
    have hgone : id ∉ w.sends.flows := by
      rw [h.sends]
      exact hid
    have hw : w.handleStop l id code =
        if w.ids.isRetiredDirection (config l) id false then (w, .ok ())
        else w.protocolError l 1 "stop on unknown stream" := by
      unfold Wasm.Memory.handleStop Wasm.Memory.removeSendFlow
      rw [decide_eq_false hgone, apply_remove_of_notMem hgone]
    rw [hw]
    exact .goes hgo (h.retired ho rfl (hu.goes hgo))

/-- **`handle_frame` does the same in both sessions**, for every frame. -/
theorem Linked.handleFrame (h : Linked m w) (ho : m.IsOpen) {f : Frame}
    (hu : (Native.handleFrame (config l) f).Unhindered (config l) m) :
    Handles l m.chan.admitted m (Native.handleFrame (config l) f) (w.handleFrame l f) := by
  cases f with
  | openUni id => exact h.handleOpenUni ho hu
  | openBi id => exact h.handleOpenBi ho hu
  | stream id data fin => exact h.handleStream ho hu
  | resetStream id code => exact h.handleReset ho hu
  | stopSending id code => exact h.handleStop ho hu
  | maxStreamData id max => exact .goes (Task.Goes.single rfl) (.ok (h.send (.updateMax id max)))
  | connectionClose code reason =>
      refine ⟨_, false, Native.goes_closeAll _ _ _, h.closeAll, .closed ?_⟩
      rw [Native.Memory.closeAll_chan]

end WebsockMux.Parity
