import WebsockMux.Parity.Frames

/-!
# Calls of the application in both sessions

The calls that open, accept, read, stop and drop a stream. Run alone and without a full queue, the
function of the native session returns, and it keeps the link with the browser's function.
-/

set_option autoImplicit false

namespace WebsockMux.Parity

open WebsockMux.Lib WebsockMux.Proto
open WebsockMux.Native (Limits Task Ret ReadApi RecvStream ReadResult)
open WebsockMux.Wasm (config)

variable {l : Limits} {m m₁ : Native.Memory} {w w' : Wasm.Memory} {id : StreamId} {t t₁ : Task}

/-- **A call returns**, and the sessions are linked again. -/
def Returns (l : Limits) (m : Native.Memory) (t : Task) (w : Wasm.Memory) : Prop :=
  ∃ m', t.Goes (config l) m m' .done ∧ Linked m' w

theorem Returns.goes (hg : t.Goes (config l) m m₁ t₁) (h : Returns l m₁ t₁ w) : Returns l m t w := by
  obtain ⟨m', hg', hl⟩ := h
  exact ⟨m', hg.trans hg', hl⟩

theorem Returns.done (h : Linked m w) : Returns l m .done w := ⟨m, Task.Goes.refl _ _ _, h⟩

/-! ## Opens -/

/-- The counter of `next_stream_id` moves. -/
theorem Linked.fetchAdd (h : Linked m w) (dir : StreamDir) :
    Linked (m.apply (.id (.fetchAdd dir))) { w with ids := w.ids.apply (.fetchAdd dir) } := by
  rw [h.ids]
  exact h.withIds _

/-- Where an open goes on when its flow is registered. -/
def registered (id : StreamId) : StreamDir → Task
  | .uni => Native.sendFrame (.openUni id)
  | .bi => .registerRecvStream id

/-- The start of an open: `next_stream_id` fails, `register_send_flow` refuses, or the flow is
registered, in both sessions alike. -/
inductive Opening (l : Limits) (m : Native.Memory) (w : Wasm.Memory) (dir : StreamDir) : Prop where
  | noId {e : Wasm.Error} {m₁ : Native.Memory} {w₁ : Wasm.Memory}
      (hw : w.nextStreamId dir = (w₁, .error e))
      (hg : (Task.fetchAdd dir).Goes (config l) m m₁ .done) (hl : Linked m₁ w₁) :
      Opening l m w dir
  | refused {e : Wasm.Error} {id : StreamId} {m₁ : Native.Memory} {w₁ : Wasm.Memory}
      (hw : w.nextStreamId dir = (w₁, .ok id)) (hr : w₁.registerSendFlow l id = (w₁, .error e))
      (hg : (Task.fetchAdd dir).Goes (config l) m m₁ .done) (hl : Linked m₁ w₁) :
      Opening l m w dir
  | opened {id : StreamId} {m₂ : Native.Memory} {w₁ w₂ : Wasm.Memory}
      (hw : w.nextStreamId dir = (w₁, .ok id)) (hr : w₁.registerSendFlow l id = (w₂, .ok ()))
      (hg : (Task.fetchAdd dir).Goes (config l) m m₂ (registered id dir)) (hl : Linked m₂ w₂)
      (ho : m₂.IsOpen) :
      Opening l m w dir

theorem Linked.opening (h : Linked m w) (ho : m.IsOpen) (dir : StreamDir) : Opening l m w dir := by
  have hl := h.fetchAdd dir
  cases hnew : StreamId.new (m.ids.next dir) false dir with
  | error e =>
      have hn : (Task.fetchAdd dir).next (config l) m = some (.id (.fetchAdd dir), .done) := by
        simp only [Task.next]
        rw [show StreamId.new (m.ids.next dir) (config l).isServer dir = .error e from hnew]
      have hw : w.nextStreamId dir = ({ w with ids := w.ids.apply (.fetchAdd dir) },
          .error (.protocol "stream id overflow: value too large for varint encoding")) := by
        rw [← h.ids] at hnew
        unfold Wasm.Memory.nextStreamId
        rw [hnew]
      exact .noId hw (Task.Goes.single hn) hl
  | ok id =>
      have hn : (Task.fetchAdd dir).next (config l) m =
          some (.id (.fetchAdd dir), .registerSendFlow dir id) := by
        simp only [Task.next]
        rw [show StreamId.new (m.ids.next dir) (config l).isServer dir = .ok id from hnew]
      have hw : w.nextStreamId dir = ({ w with ids := w.ids.apply (.fetchAdd dir) }, .ok id) := by
        rw [← h.ids] at hnew
        unfold Wasm.Memory.nextStreamId
        rw [hnew]
      rcases hl.registerSendFlow l id with ⟨reason, hf, hr⟩ | ⟨hf, hr⟩
      · have hn₁ : (Task.registerSendFlow dir id).next (config l) (m.apply (.id (.fetchAdd dir))) =
            some (.skip, .done) := by
          simp only [Task.next, hf]
        exact .refused hw hr ((Task.Goes.single hn).trans (Task.Goes.single hn₁)) hl
      · have hn₁ : (Task.registerSendFlow dir id).next (config l) (m.apply (.id (.fetchAdd dir))) =
            some (.send (.register id), registered id dir) := by
          simp only [Task.next, hf]
          cases dir <;> rfl
        exact .opened hw hr ((Task.Goes.single hn).trans (Task.Goes.single hn₁)) (hl.withSends _)
          ⟨ho.closed, ho.shutdown⟩

/-- `open_uni`. -/
theorem Linked.openUni (h : Linked m w) (ho : m.IsOpen)
    (hu : (Task.fetchAdd .uni).Unhindered (config l) m) :
    Returns l m (.fetchAdd .uni) (w.openUni l).1 := by
  unfold Wasm.Memory.openUni
  cases h.opening (l := l) ho .uni with
  | noId hw hg hl =>
      rw [hw]
      exact ⟨_, hg, hl⟩
  | refused hw hr hg hl =>
      rw [hw]
      dsimp only
      rw [hr]
      exact ⟨_, hg, hl⟩
  | @opened id m₂ w₁ w₂ hw hr hg hl ho₂ =>
      have hu₂ := hu.goes hg
      rw [hw]
      dsimp only
      rw [hr]
      dsimp only
      rw [hl.sendFrame ho₂]
      refine .goes (hg.trans (Native.goes_sendFrame (hl.free ho₂) rfl hu₂)) ?_
      exact .goes (Task.Goes.single rfl)
        (.done ((hl.place (hu₂.slot ho₂) (.openUni id)).newSend id true).1)

/-- `open_bi`. -/
theorem Linked.openBi (h : Linked m w) (ho : m.IsOpen)
    (hu : (Task.fetchAdd .bi).Unhindered (config l) m) :
    Returns l m (.fetchAdd .bi) (w.openBi l).1 := by
  unfold Wasm.Memory.openBi
  cases h.opening (l := l) ho .bi with
  | noId hw hg hl =>
      rw [hw]
      exact ⟨_, hg, hl⟩
  | refused hw hr hg hl =>
      rw [hw]
      dsimp only
      rw [hr]
      exact ⟨_, hg, hl⟩
  | @opened id m₂ w₁ w₂ hw hr hg hl ho₂ =>
      rw [hw]
      dsimp only
      rw [hr]
      dsimp only
      -- the receive direction is registered, then both frames are placed
      have hl₃ := hl.recv (a := .register id l.initialStreamWindow) (by rintro _ _ ⟨⟩)
      have ho₃ : (m₂.apply (.recv (.register id l.initialStreamWindow))).IsOpen :=
        ⟨ho₂.closed, ho₂.shutdown⟩
      have hg₃ := hg.trans (Task.Goes.single rfl)
      have hu₃ := hu.goes hg₃
      have hl₄ := hl₃.place (hu₃.slot ho₃) (.openBi id)
      have ho₄ := ((hl₃.free ho₃).place (.openBi id)).toIsOpen
      have hg₄ := Native.goes_sendFrame (hl₃.free ho₃) rfl hu₃
      have hu₄ := hu₃.goes hg₄
      have hl₅ := hl₄.place (hu₄.slot ho₄) (.maxStreamData id l.initialStreamWindow)
      have hg₅ := Native.goes_sendFrame (hl₄.free ho₄) rfl hu₄
      unfold Wasm.Memory.registerRecvStream Wasm.Memory.sendOpenBi
      rw [hl₃.sendFrame ho₃]
      dsimp only
      rw [hl₄.sendFrame ho₄]
      refine .goes (hg₃.trans (hg₄.trans hg₅)) ?_
      refine .goes ((Task.Goes.single rfl).trans (Task.Goes.single rfl)) (.done ?_)
      exact (hl₅.newSend id true).1.recv (a := .hold id true) (by rintro _ _ ⟨⟩)

/-! ## Drops -/

/-- `Drop for RecvStream` of a stream that the application has given up. -/
theorem Linked.dropRecv {k : Ret} (h : Linked m w) (ho : m.IsOpen)
    (hheld : (m.recvs.cell id).reader.held = false)
    (hu : (Task.dropRecv id k).Unhindered (config l) m) :
    ∃ m', (Task.dropRecv id k).Goes (config l) m m' k.resume ∧ Linked m' (w.dropRecv l id) := by
  unfold Wasm.Memory.dropRecv Wasm.Memory.stopRecvStream
  by_cases hid : id ∈ m.recvs.streams
  · have hcell : (m.apply (.recv (.stop id))).recvs.cell id =
        { m.recvs.cell id with stopped := true } := by
      simp [Native.Memory.apply, Native.RecvTable.apply, Native.RecvTable.stopRecvStream,
        Native.RecvTable.modify]
    have hl := h.recv (a := .stop id) (by rintro _ _ ⟨⟩)
    have ho₁ : (m.apply (.recv (.stop id))).IsOpen := ⟨ho.closed, ho.shutdown⟩
    have hwcell : (w.recvs.apply (.stop id)).cell id = { m.recvs.cell id with stopped := true } := by
      rw [h.recvs]
      exact hcell
    have hheld₁ : ((m.apply (.recv (.stop id))).recvs.cell id).reader.held = false := by
      rw [hcell]
      exact hheld
    rw [if_pos (by rw [h.recvs]; exact hid)]
    dsimp only
    rw [hwcell]
    cases hfin : (m.recvs.cell id).reader.finished with
    | true =>
        have hn : (Task.dropRecv id k).next (config l) m =
            some (.recv (.stop id), .closeReceiver id k) := by
          simp only [Task.next, hfin]
          exact if_pos hid
        exact ⟨_, (Task.Goes.single hn).trans (Task.Goes.single rfl), hl.releaseRecv hheld₁⟩
    | false =>
        have hn : (Task.dropRecv id k).next (config l) m =
            some (.recv (.stop id), .dropRecvSwap id k) := by
          simp only [Task.next, hfin]
          exact if_pos hid
        have hgo := Task.Goes.single hn
        cases hstop : (m.recvs.cell id).reader.stopSent with
        | true =>
            have hn₁ : (Task.dropRecvSwap id k).next (config l) (m.apply (.recv (.stop id))) =
                some (.skip, .closeReceiver id k) := by
              simp only [Task.next, hcell, hstop]
              rfl
            exact ⟨_, hgo.trans ((Task.Goes.single hn₁).trans (Task.Goes.single rfl)),
              hl.releaseRecv hheld₁⟩
        | false =>
            have hn₁ : (Task.dropRecvSwap id k).next (config l) (m.apply (.recv (.stop id))) =
                some (.recv (.swapStop id), .anyOf Native.isClosed (.trySend (.dropRecv id) k)) := by
              simp only [Task.next, hcell, hstop]
              rfl
            have hgo₁ := hgo.trans (Task.Goes.single hn₁)
            have hl₁ := hl.recv (a := .swapStop id) (by rintro _ _ ⟨⟩)
            have hu₁ := hu.goes hgo₁
            have ho₂ : ((m.apply (.recv (.stop id))).apply (.recv (.swapStop id))).IsOpen :=
              ⟨ho.closed, ho.shutdown⟩
            have hl₂ := hl₁.place (hu₁.trySlot ho₂) (.stopSending id 0)
            have hgo₂ := hgo₁.trans (Native.goes_trySendFrame (hl₁.free ho₂) hu₁)
            refine ⟨_, hgo₂.trans (Task.Goes.single rfl), ?_⟩
            rw [if_neg (by rintro ⟨⟩), if_neg (by rintro ⟨⟩), hl₁.trySendFrame ho₂]
            refine hl₂.releaseRecv ?_
            simpa [Native.Memory.place, Native.Memory.apply, Native.RecvTable.apply,
              Native.RecvTable.stopRecvStream, Native.RecvTable.modify] using hheld
  · have hn : (Task.dropRecv id k).next (config l) m = some (.skip, .closeReceiver id k) := by
      simp only [Task.next]
      exact if_neg hid
    rw [if_neg (by rw [h.recvs]; exact hid)]
    exact ⟨_, (Task.Goes.single hn).trans (Task.Goes.single rfl), h.releaseRecv hheld⟩

/-- It makes no difference to a drop in the browser whether the application gives the stream up
before it or with it. -/
theorem dropRecv_hold (w : Wasm.Memory) (id : StreamId) :
    Wasm.Memory.dropRecv l { w with recvs := w.recvs.apply (.hold id false) } id =
      w.dropRecv l id := by
  have hstreams : (w.recvs.apply (.hold id false)).streams = w.recvs.streams := rfl
  unfold Wasm.Memory.dropRecv Wasm.Memory.stopRecvStream
  dsimp only
  rw [hstreams]
  by_cases hid : id ∈ w.recvs.streams
  · rw [if_pos hid, if_pos hid]
    dsimp only
    have hcell : ((w.recvs.apply (.hold id false)).apply (.stop id)).cell id =
        { (w.recvs.apply (.stop id)).cell id with
          reader := { ((w.recvs.apply (.stop id)).cell id).reader with held := false } } := by
      simp [Native.RecvTable.apply, Native.RecvTable.stopRecvStream, Native.RecvTable.modify]
    rw [hcell]
    dsimp only
    split_ifs
    · simp [Wasm.Memory.releaseRecv, Native.RecvTable.apply, Native.RecvTable.stopRecvStream,
        Native.RecvTable.modify]
    · simp [Wasm.Memory.releaseRecv, Native.RecvTable.apply, Native.RecvTable.stopRecvStream,
        Native.RecvTable.modify]
    · unfold Wasm.Memory.trySendFrame
      dsimp only
      cases decide ((w.chan.trySend l.outboundQueueLen 0 (.stopSending id 0)).2 = .ok) with
      | true =>
          simp [Wasm.Memory.releaseRecv, Native.RecvTable.apply, Native.RecvTable.stopRecvStream,
            Native.RecvTable.modify]
      | false =>
          unfold Wasm.Memory.requestShutdown
          dsimp only
          split_ifs <;>
            simp [Wasm.Memory.releaseRecv, Native.RecvTable.apply,
              Native.RecvTable.stopRecvStream, Native.RecvTable.modify]
  · rw [if_neg hid, if_neg hid]
    simp [Wasm.Memory.releaseRecv, Native.RecvTable.apply, Native.RecvTable.modify]

/-- The call that drops a `RecvStream`. -/
theorem Linked.dropRecvCall (h : Linked m w) (ho : m.IsOpen)
    (hu : (Task.dropRecv id .done).Unhindered (config l) (m.apply (.recv (.hold id false)))) :
    Returns l (m.apply (.recv (.hold id false))) (.dropRecv id .done) (w.dropRecv l id) := by
  have hl := h.recv (a := .hold id false) (by rintro _ _ ⟨⟩)
  have hheld : ((m.apply (.recv (.hold id false))).recvs.cell id).reader.held = false := by
    simp [Native.Memory.apply, Native.RecvTable.apply, Native.RecvTable.modify]
  obtain ⟨m', hgo, hl'⟩ := hl.dropRecv ⟨ho.closed, ho.shutdown⟩ hheld hu
  rw [dropRecv_hold] at hl'
  exact ⟨m', hgo, hl'⟩

/-- The strong counts agree. -/
theorem Linked.strongCount (h : Linked m w) (id : StreamId) :
    w.strongCount id = Native.SendHandle.strongCount m.handles id := by
  have hcount := congrArg (List.countP fun x : StreamId × Bool × Bool => x.2.2 && x.1 = id) h.handles
  rw [List.countP_map, List.countP_map] at hcount
  exact hcount

/-- A handle changes in both sessions, in what the application and the strong count see of it. -/
theorem Linked.modifyHandle (h : Linked m w) {i : Nat} {f : Wasm.SendStream → Wasm.SendStream}
    {g : Native.SendHandle → Native.SendHandle}
    (hfg : ∀ x y, w.handles[i]? = some x → m.handles[i]? = some y →
      wasmHandle x = nativeHandle y → wasmHandle (f x) = nativeHandle (g y))
    (hg : ∀ y, y.permit = false → (g y).permit = false) :
    Linked { m with handles := m.handles.modify i g } { w with handles := w.handles.modify i f } := by
  have hget : ∀ j : Nat, (w.handles[j]?).map wasmHandle = (m.handles[j]?).map nativeHandle := by
    intro j
    rw [← List.getElem?_map, ← List.getElem?_map, h.handles]
  refine { h with handles := ?_, unreserved := ?_ }
  · refine List.ext_getElem? fun j => ?_
    rw [List.getElem?_map, List.getElem?_map, List.getElem?_modify, List.getElem?_modify]
    have hj := hget j
    cases hx : w.handles[j]? with
    | none =>
        rw [hx] at hj
        rw [Option.map_eq_none_iff.1 hj.symm]
        rfl
    | some x =>
        rw [hx] at hj
        obtain ⟨y, hy, hxy⟩ := Option.map_eq_some_iff.1 hj.symm
        rw [hy]
        by_cases hij : i = j
        · subst hij
          simpa using hfg x y hx hy hxy.symm
        · simpa [hij] using hxy.symm
  · intro y hy
    obtain ⟨j, hj⟩ := List.mem_iff_getElem?.1 hy
    rw [List.getElem?_modify] at hj
    obtain ⟨z, hz, rfl⟩ := Option.map_eq_some_iff.1 hj
    have hp := h.unreserved z (List.mem_of_getElem? hz)
    by_cases hij : i = j
    · simpa [hij] using hg z hp
    · simpa [hij] using hp

/-- The fields of a `SendStream` are released that the application has given up. -/
theorem Linked.releaseSend (h : Linked m w) {i : Nat}
    (hheld : ∀ y, m.handles[i]? = some y → y.held = false) :
    Linked (m.apply (.handle (.release i))) (w.releaseSend i) := by
  have hl := h.modifyHandle (i := i) (f := fun x => { x with live := false, held := false })
    (g := fun y => { y with alive := false, permit := false, waiting := false }) ?_ fun _ _ => rfl
  · have hpermit : Native.SendHandle.hasPermit m.handles i = false := by
      unfold Native.SendHandle.hasPermit
      cases hy : m.handles[i]? with
      | none => rfl
      | some y => exact h.unreserved y (List.mem_of_getElem? hy)
    have hchan : m.chan.poll m.handles (.release i) = m.chan := by
      simp only [Native.Channel.poll, hpermit]
      rfl
    have hm : m.apply (.handle (.release i)) = { m with handles := m.handles.modify i fun y =>
        { y with alive := false, permit := false, waiting := false } } := by
      simp only [Native.Memory.apply, hchan]
      rfl
    rw [hm]
    exact hl
  · intro x y hx hy hxy
    simp only [wasmHandle, nativeHandle, Prod.mk.injEq] at hxy ⊢
    exact ⟨hxy.1, (hheld y hy).symm, trivial⟩

/-- `Drop for SendStream` of a handle that the application has given up. -/
theorem Linked.dropSend {k : Ret} {i : Nat} (h : Linked m w) (ho : m.IsOpen)
    (hheld : ∀ y, m.handles[i]? = some y → y.held = false)
    (hu : (Task.dropSend i id k).Unhindered (config l) m) :
    ∃ m', (Task.dropSend i id k).Goes (config l) m m' k.resume ∧ Linked m' (w.dropSend l i id) := by
  unfold Wasm.Memory.dropSend
  rw [h.strongCount]
  by_cases hc : Native.SendHandle.strongCount m.handles id = 1
  · have hn : (Task.dropSend i id k).next (config l) m = some (.skip, .dropSendRemove i id k) := by
      simp only [Task.next]
      exact if_pos hc
    have hl := h.send (.remove id)
    have hgo := (Task.Goes.single hn).trans (Task.Goes.single rfl)
    have ho₁ : (m.apply (.send (.remove id))).IsOpen := ⟨ho.closed, ho.shutdown⟩
    have hfin : ((w.sends.apply (.remove id)).cell id).finished =
        ((m.apply (.send (.remove id))).sends.cell id).finished := by
      rw [h.sends]
      rfl
    rw [if_neg (not_not_intro hc)]
    unfold Wasm.Memory.removeSendFlow
    dsimp only
    rw [hfin]
    cases hf : ((m.apply (.send (.remove id))).sends.cell id).finished with
    | true =>
        have hn₁ : (Task.anyOf [.finished id] (.dropSend i id k)).next (config l)
            (m.apply (.send (.remove id))) = some (.skip, .releaseHandle i k) := by
          simp only [Task.next, Native.Memory.flag, hf]
          rfl
        exact ⟨_, hgo.trans ((Task.Goes.single hn₁).trans (Task.Goes.single rfl)),
          hl.releaseSend hheld⟩
    | false =>
        have hn₁ : (Task.anyOf [.finished id] (.dropSend i id k)).next (config l)
            (m.apply (.send (.remove id))) =
            some (.skip, .anyOf Native.isClosed (.trySend (.dropSend i id) k)) := by
          simp only [Task.next, Native.Memory.flag, hf]
          rfl
        have hgo₁ := hgo.trans (Task.Goes.single hn₁)
        have hu₁ := hu.goes hgo₁
        have hl₁ := hl.place (hu₁.trySlot ho₁) (.resetStream id 0)
        have hgo₂ := hgo₁.trans (Native.goes_trySendFrame (hl.free ho₁) hu₁)
        refine ⟨_, hgo₂.trans (Task.Goes.single rfl), ?_⟩
        rw [if_neg (by rintro ⟨⟩), hl.trySendFrame ho₁]
        exact hl₁.releaseSend hheld
  · have hn : (Task.dropSend i id k).next (config l) m = some (.skip, .releaseHandle i k) := by
      simp only [Task.next]
      exact if_neg hc
    rw [if_pos hc]
    exact ⟨_, (Task.Goes.single hn).trans (Task.Goes.single rfl), h.releaseSend hheld⟩

/-- A count does not change with what it does not look at. -/
theorem countP_modify {α : Type} {p : α → Bool} {g : α → α} (hg : ∀ x, p (g x) = p x)
    (xs : List α) (i : Nat) : (xs.modify i g).countP p = xs.countP p := by
  induction xs generalizing i with
  | nil => cases i <;> rfl
  | cons x xs ih =>
      cases i with
      | zero => rw [List.modify_zero_cons, List.countP_cons, List.countP_cons, hg]
      | succ i => rw [List.modify_succ_cons, List.countP_cons, List.countP_cons, ih]

/-- The application gives a handle up. -/
def unhold (w : Wasm.Memory) (i : Nat) : Wasm.Memory :=
  { w with handles := w.handles.modify i fun x => { x with held := false } }

theorem releaseSend_unhold (w : Wasm.Memory) (i : Nat) :
    (unhold w i).releaseSend i = w.releaseSend i := by
  have hhandles : (w.handles.modify i fun x => { x with held := false }).modify i
      (fun x => { x with live := false, held := false }) =
      w.handles.modify i fun x => { x with live := false, held := false } := by
    refine List.ext_getElem? fun j => ?_
    rw [List.getElem?_modify, List.getElem?_modify, List.getElem?_modify]
    cases w.handles[j]? with
    | none => rfl
    | some x => by_cases hij : i = j <;> simp [hij]
  simp only [Wasm.Memory.releaseSend, unhold, hhandles]

/-- It makes no difference to a drop in the browser whether the application gives the handle up
before it or with it. -/
theorem dropSend_unhold (w : Wasm.Memory) (i : Nat) (id : StreamId) :
    (unhold w i).dropSend l i id = w.dropSend l i id := by
  have hcount : (unhold w i).strongCount id = w.strongCount id := by
    refine countP_modify ?_ _ i
    intro x
    rfl
  have hfin : ((unhold (w.removeSendFlow id).1 i).sends.cell id).finished =
      ((w.removeSendFlow id).1.sends.cell id).finished := rfl
  have hsend : (unhold w i).removeSendFlow id =
      (unhold (w.removeSendFlow id).1 i, (w.removeSendFlow id).2) := rfl
  unfold Wasm.Memory.dropSend
  rw [hcount, hsend]
  dsimp only
  rw [hfin]
  split_ifs
  · exact releaseSend_unhold w i
  · exact releaseSend_unhold _ i
  · have htry : (unhold (w.removeSendFlow id).1 i).trySendFrame l (.resetStream id 0) =
        (unhold ((w.removeSendFlow id).1.trySendFrame l (.resetStream id 0)).1 i,
          ((w.removeSendFlow id).1.trySendFrame l (.resetStream id 0)).2) := rfl
    rw [htry]
    cases hw : (w.removeSendFlow id).1.trySendFrame l (.resetStream id 0) with
    | mk w₁ sent =>
        cases sent with
        | true => exact releaseSend_unhold w₁ i
        | false =>
            have hreq : (unhold w₁ i).requestShutdown = unhold w₁.requestShutdown i := by
              have hflag : (unhold w₁ i).shutdownStarted = w₁.shutdownStarted := rfl
              unfold Wasm.Memory.requestShutdown
              rw [hflag]
              split_ifs <;> rfl
            dsimp only
            rw [hreq]
            exact releaseSend_unhold _ i

/-- The call that drops a `SendStream`. -/
theorem Linked.dropSendCall (h : Linked m w) (ho : m.IsOpen) {i : Nat}
    (hu : (Task.dropSend i id .done).Unhindered (config l) (m.apply (.handle (.hold i false)))) :
    Returns l (m.apply (.handle (.hold i false))) (.dropSend i id .done) (w.dropSend l i id) := by
  have hl : Linked (m.apply (.handle (.hold i false))) (unhold w i) := by
    refine h.modifyHandle ?_ fun _ hy => hy
    intro x y _ _ hxy
    simp only [wasmHandle, nativeHandle, Prod.mk.injEq] at hxy ⊢
    exact ⟨hxy.1, trivial, hxy.2.2⟩
  have hheld : ∀ y, (m.apply (.handle (.hold i false))).handles[i]? = some y → y.held = false := by
    intro y hy
    simp only [Native.Memory.apply, Native.SendHandle.apply, List.getElem?_modify] at hy
    obtain ⟨z, -, rfl⟩ := Option.map_eq_some_iff.1 hy
    simp
  obtain ⟨m', hgo, hl'⟩ := hl.dropSend ⟨ho.closed, ho.shutdown⟩ hheld hu
  rw [dropSend_unhold] at hl'
  exact ⟨m', hgo, hl'⟩

/-! ## Accepts, stops and reads -/

/-- `accept_uni`: it takes the same stream in both sessions, or waits in both. -/
theorem Linked.acceptUni (h : Linked m w) (ho : m.IsOpen) :
    (w.acceptUni = none ∧ (Task.accept false).next (config l) m = none) ∨
    ∃ r, w.acceptUni = some r ∧ Returns l m (.accept false) r.1 := by
  have htx := (h.accepting ho.closed).1
  unfold Wasm.Memory.acceptUni
  rw [h.accept]
  cases hq : m.accept.uni with
  | nil =>
      refine .inl ⟨by rw [htx]; rfl, ?_⟩
      simp only [Task.next, hq]
      rw [htx]
      rfl
  | cons id rest =>
      have hn : (Task.accept false).next (config l) m = some (.accept (.pop false), .holdRecv id) := by
        simp only [Task.next, hq]
      have hl : Linked (m.apply (.accept (.pop false)))
          { w with accept := m.accept.apply (.pop false) } :=
        { h with accept := rfl, accepting := h.accepting, receiving := h.receiving }
      exact .inr ⟨_, rfl, .goes ((Task.Goes.single hn).trans (Task.Goes.single rfl))
        (.done (hl.recv (a := .hold id true) (by rintro _ _ ⟨⟩)))⟩

/-- `accept_bi`: it takes the same stream and handle in both sessions, or waits in both. -/
theorem Linked.acceptBi (h : Linked m w) (ho : m.IsOpen) :
    (w.acceptBi = none ∧ (Task.accept true).next (config l) m = none) ∨
    ∃ r, w.acceptBi = some r ∧ Returns l m (.accept true) r.1 := by
  have htx := (h.accepting ho.closed).2
  unfold Wasm.Memory.acceptBi
  rw [h.accept]
  cases hq : m.accept.bi with
  | nil =>
      refine .inl ⟨by rw [htx]; rfl, ?_⟩
      simp only [Task.next, hq]
      rw [htx]
      rfl
  | cons p rest =>
      obtain ⟨i, id⟩ := p
      have hn : (Task.accept true).next (config l) m = some (.accept (.pop true), .holdSend i id) := by
        simp only [Task.next, hq]
      have hl : Linked (m.apply (.accept (.pop true)))
          { w with accept := m.accept.apply (.pop true) } :=
        { h with accept := rfl, accepting := h.accepting, receiving := h.receiving }
      have hl₁ : Linked ((m.apply (.accept (.pop true))).apply (.handle (.hold i true)))
          { w with
            accept := m.accept.apply (.pop true)
            handles := w.handles.modify i fun x => { x with held := true } } := by
        refine hl.modifyHandle ?_ fun _ hy => hy
        intro x y _ _ hxy
        simp only [wasmHandle, nativeHandle, Prod.mk.injEq] at hxy ⊢
        exact ⟨hxy.1, trivial, hxy.2.2⟩
      have hl₂ := hl₁.recv (a := .hold id true) (by rintro _ _ ⟨⟩)
      have hgo := (Task.Goes.single hn).trans ((Task.Goes.single rfl).trans (Task.Goes.single rfl))
      exact .inr ⟨_, rfl, _, hgo, hl₂⟩

/-- Where `stop` starts. -/
def stopStart (id : StreamId) (code : Nat) : Task :=
  if code ≤ VarInt.max then .stopSwap id code else .done

/-- `stop`. -/
theorem Linked.stop (h : Linked m w) (ho : m.IsOpen) {code : Nat}
    (hu : (stopStart id code).Unhindered (config l) m) :
    Returns l m (stopStart id code) (w.stop l id code).1 := by
  unfold Wasm.Memory.stop
  by_cases hcode : code ≤ VarInt.max
  · have hs : stopStart id code = .stopSwap id code := if_pos hcode
    rw [hs] at hu ⊢
    rw [if_neg (by omega), h.recvs]
    cases hsent : (m.recvs.cell id).reader.stopSent with
    | true =>
        have hn : (Task.stopSwap id code).next (config l) m = some (.skip, .done) := by
          simp only [Task.next, hsent]
          rfl
        exact .goes (Task.Goes.single hn) (.done h)
    | false =>
        have hn : (Task.stopSwap id code).next (config l) m =
            some (.recv (.swapStop id), .stopMark id code) := by
          simp only [Task.next, hsent]
          rfl
        have hgo := Task.Goes.single hn
        have hl : Linked (m.apply (.recv (.swapStop id)))
            { w with recvs := m.recvs.apply (.swapStop id) } :=
          h.withRecvs (h.idle_apply (by rintro _ _ ⟨⟩))
        rw [if_neg Bool.false_ne_true]
        unfold Wasm.Memory.stopRecvStream
        refine .goes hgo ?_
        by_cases hid : id ∈ m.recvs.streams
        · have hn₁ : (Task.stopMark id code).next (config l) (m.apply (.recv (.swapStop id))) =
              some (.recv (.stop id), Native.sendFrame (.stop id code)) := by
            simp only [Task.next]
            exact if_pos hid
          have hl₁ := hl.recv (a := .stop id) (by rintro _ _ ⟨⟩)
          have hu₁ := hu.goes (hgo.trans (Task.Goes.single hn₁))
          have ho₁ : ((m.apply (.recv (.swapStop id))).apply (.recv (.stop id))).IsOpen :=
            ⟨ho.closed, ho.shutdown⟩
          rw [if_pos (by exact hid)]
          dsimp only
          rw [hl₁.sendFrame ho₁]
          exact .goes ((Task.Goes.single hn₁).trans (Native.goes_sendFrame (hl₁.free ho₁) rfl hu₁))
            (.done (hl₁.place (hu₁.slot ho₁) _))
        · have hn₁ : (Task.stopMark id code).next (config l) (m.apply (.recv (.swapStop id))) =
              some (.skip, .done) := by
            simp only [Task.next]
            exact if_neg hid
          rw [if_neg (by exact hid)]
          exact .goes (Task.Goes.single hn₁) (.done hl)
  · have hs : stopStart id code = .done := if_neg hcode
    rw [hs, if_pos (by omega)]
    exact .done h

/-- `request_shutdown`. -/
theorem Linked.requestShutdown (h : Linked m w) :
    Linked ((m.apply (.flag .shutdownStarted)).apply (.flag .cancelled)) w.requestShutdown := by
  unfold Wasm.Memory.requestShutdown
  split_ifs with hs
  · exact { h with
      closed := h.closed, shutdown := hs, accepting := h.accepting }
  · exact { h with
      closed := h.closed, shutdown := rfl, accepting := h.accepting, admitted := h.admitted
      queue := h.queue, unparked := h.unparked, channel := rfl }

/-- `queue_credit`. -/
theorem Linked.queueCredit (h : Linked m w) (id : StreamId) (target : Nat) :
    Returns l m (.queueCredit id target) (w.queueCredit l id target) := by
  unfold Wasm.Memory.queueCredit
  rw [h.recvs]
  by_cases hid : id ∈ m.recvs.streams ∧ (m.recvs.cell id).stopped = false
  · rw [if_pos hid]
    by_cases hover : m.recvs.creditOverflows l.maxOpenStreams id = true
    · have hn : (Task.queueCredit id target).next (config l) m =
          some (.recv (.prune l.maxOpenStreams), .storeShutdown .done) := by
        simp only [Task.next]
        exact (if_pos hid).trans (if_pos hover)
      have hl : Linked (m.apply (.recv (.prune l.maxOpenStreams)))
          { w with recvs := m.recvs.apply (.prune l.maxOpenStreams) } :=
        h.withRecvs (h.idle_apply (by rintro _ _ ⟨⟩))
      rw [if_pos hover]
      exact .goes ((Task.Goes.single hn).trans ((Task.Goes.single rfl).trans (Task.Goes.single rfl)))
        (.done hl.requestShutdown)
    · have hn : (Task.queueCredit id target).next (config l) m =
          some (.recv (.queueCredit l.maxOpenStreams id target), .done) := by
        simp only [Task.next]
        exact (if_pos hid).trans (if_neg hover)
      rw [if_neg hover]
      exact .goes (Task.Goes.single hn) (.done (h.withRecvs (h.idle_apply (by rintro _ _ ⟨⟩))))
  · have hn : (Task.queueCredit id target).next (config l) m = some (.skip, .done) := by
      simp only [Task.next]
      exact if_neg hid
    rw [if_neg hid]
    exact .goes (Task.Goes.single hn) (.done h)

/-- An evaluation of a read function in the browser: what it finds. -/
def pollOf (l : Limits) (w : Wasm.Memory) (id : StreamId) (api : ReadApi) (n : Nat) : ReadResult :=
  (w.recvs.cell id).reader.poll l (decide (id ∈ w.recvs.streams)) api n (w.recvs.cell id).events

/-- **A call of a read function in the browser**: its evaluations up to the last one, which returns
(`some`) or waits (`none`). `poll_read` takes the next event where it finds an empty one. -/
inductive ReadCall (l : Limits) (id : StreamId) (api : ReadApi) (n : Nat) :
    Wasm.Memory → Option Wasm.Memory → Prop where
  | last {w : Wasm.Memory} (h : ∀ r events, pollOf l w id api n ≠ .again r events) :
      ReadCall l id api n w (w.read l id api n)
  | again {w w' : Wasm.Memory} {o : Option Wasm.Memory} {r : RecvStream}
      {events : List Native.RecvEvent} (h : pollOf l w id api n = .again r events)
      (hw : w.read l id api n = some w') (hrest : ReadCall l id api n w' o) : ReadCall l id api n w o

/-- Only `poll_read` is evaluated again, when it has taken an event. -/
theorem events_of_again {open_ : Bool} {api : ReadApi} {n : Nat} {r r' : RecvStream}
    {events events' : List Native.RecvEvent}
    (h : r.poll l open_ api n events = .again r' events') :
    api = .pollRead ∧ ∃ e, events = e :: events' := by
  have hgive : ∀ (r : RecvStream) (evs : List Native.RecvEvent) (chunk : List UInt8),
      r.give l evs chunk n ≠ .again r' events' := by
    intro r evs chunk
    simp only [RecvStream.give]
    split <;> rintro ⟨⟩
  unfold RecvStream.poll at h
  split at h
  · cases h
  split at h
  · exact absurd h (hgive _ _ _)
  split at h
  · cases h
  cases events with
  | nil =>
      dsimp only at h
      split_ifs at h
  | cons e rest =>
      unfold RecvStream.take at h
      dsimp only at h
      split_ifs at h with hfin hempty
      · cases h
        exact ⟨hempty.2, e, rfl⟩
      · exact absurd h (hgive _ _ _)

/-- `poll_read` does not wait. -/
theorem pollRead_ne_wait (open_ : Bool) (n : Nat) (r : RecvStream)
    (events : List Native.RecvEvent) : r.poll l open_ .pollRead n events ≠ .wait := by
  unfold RecvStream.poll RecvStream.take
  cases events with
  | nil =>
      dsimp only
      rw [if_pos (rfl : ReadApi.pollRead = .pollRead)]
      split_ifs
      all_goals first
        | exact RecvStream.give_ne_wait _ _ _ _ _
        | rintro ⟨⟩
  | cons e rest =>
      dsimp only
      split_ifs
      all_goals first
        | exact RecvStream.give_ne_wait _ _ _ _ _
        | rintro ⟨⟩

/-- What the reader finds is the same in both sessions. -/
theorem Linked.poll_eq (h : Linked m w) (id : StreamId) (api : ReadApi) (n : Nat) :
    (m.recvs.cell id).reader.poll (config l).limits (m.recvs.hasSender id) api n
      (m.recvs.cell id).events = pollOf l w id api n := by
  unfold pollOf Native.RecvTable.hasSender
  rw [h.idle id, Bool.or_false, h.recvs]
  rfl

/-- **A call of a read function** waits in both sessions, or returns in both. -/
theorem Linked.read (h : Linked m w) (id : StreamId) (api : ReadApi) (n : Nat) :
    (ReadCall l id api n w none ∧ (Task.read id api n).next (config l) m = none) ∨
    ∃ w', ReadCall l id api n w (some w') ∧ Returns l m (.read id api n) w' := by
  -- by induction on the events that are left
  induction hlen : (m.recvs.cell id).events.length using Nat.strong_induction_on
    generalizing m w with
  | _ k ih =>
    have hread : ∀ r events, Linked (m.apply (.recv (.read id r events)))
        { w with recvs := w.recvs.apply (.read id r events) } :=
      fun r events => h.recv (by rintro _ _ ⟨⟩)
    cases hp : pollOf l w id api n with
    | wait =>
        have hw : w.read l id api n = none := by
          unfold Wasm.Memory.read
          rw [show RecvStream.poll _ _ _ _ _ _ = _ from hp]
        have hcall : ReadCall l id api n w (w.read l id api n) := .last (by rw [hp]; rintro _ _ ⟨⟩)
        rw [hw] at hcall
        refine .inl ⟨hcall, ?_⟩
        simp only [Task.next, h.poll_eq, hp]
    | ret r events =>
        have hw : w.read l id api n = some { w with recvs := w.recvs.apply (.read id r events) } := by
          unfold Wasm.Memory.read
          rw [show RecvStream.poll _ _ _ _ _ _ = _ from hp]
        have hn : (Task.read id api n).next (config l) m =
            some (.recv (.read id r events), .done) := by
          simp only [Task.next, h.poll_eq, hp]
        have hcall : ReadCall l id api n w (w.read l id api n) := .last (by rw [hp]; rintro _ _ ⟨⟩)
        rw [hw] at hcall
        exact .inr ⟨_, hcall, .goes (Task.Goes.single hn) (.done (hread r events))⟩
    | again r events =>
        have hw : w.read l id api n = some { w with recvs := w.recvs.apply (.read id r events) } := by
          unfold Wasm.Memory.read
          rw [show RecvStream.poll _ _ _ _ _ _ = _ from hp]
        have hn : (Task.read id api n).next (config l) m =
            some (.recv (.read id r events), .read id api n) := by
          simp only [Task.next, h.poll_eq, hp]
        have hgo := Task.Goes.single hn
        obtain ⟨rfl, e, he⟩ := events_of_again ((h.poll_eq id api n).trans hp)
        have hevents : ((m.apply (.recv (.read id r events))).recvs.cell id).events = events := by
          simp [Native.Memory.apply, Native.RecvTable.apply, Native.RecvTable.modify]
        have hlt : events.length < k := by
          rw [← hlen, he]
          exact Nat.lt_succ_self _
        rcases ih _ hlt (hread r events) (by rw [hevents]) with ⟨-, hend⟩ | ⟨w', hcall, hret⟩
        · simp only [Task.next] at hend
          split at hend
          · next hwait => exact absurd hwait (pollRead_ne_wait _ _ _ _)
          all_goals cases hend
        · exact .inr ⟨w', .again hp hw hcall, .goes hgo hret⟩
    | grant r events target =>
        have hw : w.read l id api n = some (Wasm.Memory.queueCredit l { w with
            recvs := (w.recvs.apply (.read id r events)).apply (.storeMax id target) } id target) := by
          unfold Wasm.Memory.read
          rw [show RecvStream.poll _ _ _ _ _ _ = _ from hp]
        have hn : (Task.read id api n).next (config l) m =
            some (.recv (.read id r events), .storeMax id target) := by
          simp only [Task.next, h.poll_eq, hp]
        have hl := (hread r events).recv (a := .storeMax id target) (by rintro _ _ ⟨⟩)
        have hcall : ReadCall l id api n w (w.read l id api n) := .last (by rw [hp]; rintro _ _ ⟨⟩)
        rw [hw] at hcall
        exact .inr ⟨_, hcall, .goes ((Task.Goes.single hn).trans (Task.Goes.single rfl))
          (hl.queueCredit id target)⟩

end WebsockMux.Parity
