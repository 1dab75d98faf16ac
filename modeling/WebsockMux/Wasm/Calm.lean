import WebsockMux.Native.Reading
import WebsockMux.Wasm.Session

/-!
# What most functions of a browser session leave alone

Most functions neither register nor stop a receive stream, nor finish or drop a send stream; what is
put into the outbound channel stays recorded, and the channel is closed only by a request for
shutdown. `Calm` says this of two states, and every such function is calm. The invariants of a
browser session are kept by calm steps; only the other functions need an argument of their own.
-/

set_option autoImplicit false

namespace WebsockMux.Wasm

open WebsockMux.Lib WebsockMux.Proto
open WebsockMux.Native (Limits RecvTable RecvCell RecvAccess SendAccess RecvStream ReadApi RecvEvent
  SendTable ReadResult)

variable {l : Limits} {m m' m'' : Memory} {id : StreamId} {b : Bool}

/-! ## Receive tables -/

/-- The flags `stopped` and `stop_sent` of a receive stream. -/
def recvFlags (c : RecvCell) : Bool × Bool := (c.stopped, c.reader.stopSent)

/-- The reader has reached the end of a stream, or will. -/
def Ended (c : RecvCell) : Prop := c.reader.finished = true ∨ ∃ e ∈ c.events, e.fin = true

/-- No receive stream is registered or stopped, and none in the table ends. -/
structure RecvCalm (s s' : RecvTable) : Prop where
  streams : s'.streams ⊆ s.streams
  flags : ∀ id, recvFlags (s'.cell id) = recvFlags (s.cell id)
  ended : ∀ id ∈ s'.streams, Ended (s'.cell id) → Ended (s.cell id)

theorem RecvCalm.refl (s : RecvTable) : RecvCalm s s :=
  ⟨fun _ h => h, fun _ => rfl, fun _ _ h => h⟩

theorem RecvCalm.trans {s s' s'' : RecvTable} (h : RecvCalm s s') (h' : RecvCalm s' s'') :
    RecvCalm s s'' where
  streams := h'.streams.trans h.streams
  flags id := (h'.flags id).trans (h.flags id)
  ended id hid he := h.ended id (h'.streams hid) (h'.ended id hid he)

/-- A change of one cell. -/
theorem RecvCalm.modify {s : RecvTable} {i : StreamId} {g : RecvCell → RecvCell}
    (hf : recvFlags (g (s.cell i)) = recvFlags (s.cell i))
    (he : i ∈ s.streams → Ended (g (s.cell i)) → Ended (s.cell i)) :
    RecvCalm s (s.modify i g) := by
  have hcell : ∀ id, (s.modify i g).cell id = if id = i then g (s.cell i) else s.cell id := by
    intro id
    simp only [RecvTable.modify, Function.update_apply]
  refine ⟨fun _ h => h, fun id => ?_, fun id hid h => ?_⟩
  · rw [hcell]
    split_ifs with hi
    · rw [hi]
      exact hf
    · rfl
  · rw [hcell] at h
    split_ifs at h with hi
    · subst hi
      exact he hid h
    · exact h

/-- A change of the other fields of the table. -/
theorem RecvCalm.fields {s s' : RecvTable} (hs : s'.streams ⊆ s.streams) (hc : s'.cell = s.cell) :
    RecvCalm s s' := by
  refine ⟨hs, fun id => by rw [hc], fun id _ h => ?_⟩
  rw [hc] at h
  exact h

theorem RecvCalm.remove (s : RecvTable) (i : StreamId) : RecvCalm s (s.apply (.remove i)) :=
  .fields (Finset.erase_subset _ _) rfl

theorem RecvCalm.hold (s : RecvTable) (i : StreamId) (on : Bool) :
    RecvCalm s (s.apply (.hold i on)) := by
  simp only [RecvTable.apply]
  exact .modify rfl fun _ h => h

theorem RecvCalm.closeReceiver (s : RecvTable) (i : StreamId) :
    RecvCalm s (s.apply (.closeReceiver i)) := by
  simp only [RecvTable.apply]
  exact .modify rfl fun _ h => h

theorem RecvCalm.storeMax (s : RecvTable) (i : StreamId) (target : Nat) :
    RecvCalm s (s.apply (.storeMax i target)) := by
  simp only [RecvTable.apply]
  exact .modify rfl fun _ h => h

theorem RecvCalm.receive (s : RecvTable) (i : StreamId) (n : Nat) :
    RecvCalm s ((s.apply (.receive i n)).apply (.dropTx i)) := by
  simp only [RecvTable.apply]
  exact .trans (.modify rfl fun _ h => h) (.modify rfl fun _ h => h)

theorem RecvCalm.prune (s : RecvTable) (n : Nat) : RecvCalm s (s.apply (.prune n)) :=
  .fields (fun _ h => h) rfl

theorem RecvCalm.queueCredit (s : RecvTable) (n : Nat) (i : StreamId) (target : Nat) :
    RecvCalm s (s.apply (.queueCredit n i target)) := by
  have h : RecvCalm s (s.modify i fun c =>
      { c with credit := if i ∈ s.pruned n then max c.credit target else target }) :=
    .modify rfl fun _ h => h
  exact h.trans (.fields (fun _ h => h) rfl)

theorem RecvCalm.takeCredit (s : RecvTable) (i : StreamId) :
    RecvCalm s (s.apply (.takeCredit i)) := by
  have h : RecvCalm s (s.modify i fun c => { c with credits := c.credits ++ [c.credit] }) :=
    .modify rfl fun _ h => h
  exact h.trans (.fields (fun _ h => h) rfl)

theorem RecvCalm.clear (s : RecvTable) : RecvCalm s ((s.apply .clearCredit).apply .clear) :=
  .fields (Finset.empty_subset _) rfl

/-- A read of a stream in the table reaches its end only at a FIN. -/
theorem RecvCalm.read {s : RecvTable} {i : StreamId} {r : RecvStream}
    {events taken : List RecvEvent} {target : Option Nat}
    (h : RecvStream.Reads l (decide (i ∈ s.streams)) (s.cell i).reader (s.cell i).events r events
      taken target) : RecvCalm s (s.apply (.read i r events)) := by
  simp only [RecvTable.apply]
  refine .modify ?_ fun hi he => ?_
  · simp only [recvFlags, h.stopSent]
  · have hsub : ∀ e, e ∈ taken ∨ e ∈ events → e ∈ (s.cell i).events := by
      intro e he
      rw [h.events_eq]
      exact List.mem_append.2 he
    rcases he with hf | ⟨e, he, hfin⟩
    · rcases h.finished hf with hf | hf | hf
      · exact .inl hf
      · obtain ⟨e, he, hfin⟩ := List.any_eq_true.1 hf
        exact .inr ⟨e, hsub e (.inl he), hfin⟩
      · simp [hi] at hf
    · exact .inr ⟨e, hsub e (.inr he), hfin⟩

theorem RecvCalm.poll {s : RecvTable} {i : StreamId} {r : RecvStream} {api : ReadApi} {n : Nat}
    {events : List RecvEvent} {target : Option Nat} {res : ReadResult}
    (hp : (s.cell i).reader.poll l (decide (i ∈ s.streams)) api n (s.cell i).events = res)
    (ho : RecvStream.outcome res = some (r, events, target)) :
    RecvCalm s (s.apply (.read i r events)) := by
  subst hp
  obtain ⟨taken, h⟩ := RecvStream.reads_of_poll ho
  exact .read h

/-- An event without FIN does not end the stream. -/
theorem RecvCalm.deliver (s : RecvTable) (i : StreamId) (data : List UInt8) :
    RecvCalm s (s.apply (.deliver i ⟨data, false⟩)) := by
  simp only [RecvTable.apply]
  refine .modify rfl fun _ h => ?_
  rcases h with h | ⟨e, he, hfin⟩
  · exact .inl h
  · rcases List.mem_append.1 he with he | he
    · exact .inr ⟨e, he, hfin⟩
    · cases List.mem_singleton.1 he
      cases hfin

/-- A FIN removes the stream with its event. -/
theorem RecvCalm.deliverFin (s : RecvTable) (i : StreamId) (data : List UInt8) :
    RecvCalm s ((s.apply (.deliver i ⟨data, true⟩)).apply (.remove i)) := by
  refine ⟨Finset.erase_subset _ _, fun id => ?_, fun id hid h => ?_⟩
  · simp only [RecvTable.apply, RecvTable.modify, Function.update_apply]
    split_ifs with hi
    · rw [hi]
      rfl
    · rfl
  · have hne : id ≠ i := Finset.ne_of_mem_erase hid
    simp only [RecvTable.apply, RecvTable.modify, Function.update_apply, if_neg hne] at h
    exact h

/-! ## States -/

/-- What tells whether a send stream is dropped. -/
def handleKey (x : SendStream) : StreamId × Bool := (x.id, x.live)

/-- A change of a handle that keeps its key. -/
theorem map_handleKey_modify {g : SendStream → SendStream} (hg : ∀ x, handleKey (g x) = handleKey x)
    (hs : List SendStream) (h : Nat) : (hs.modify h g).map handleKey = hs.map handleKey := by
  refine List.ext_getElem? fun i => ?_
  rw [List.getElem?_map, List.getElem?_map, List.getElem?_modify]
  cases hs[i]? with
  | none => rfl
  | some x =>
      simp only [Option.map_eq_map, Option.map_some]
      split_ifs
      · rw [hg x]
      · rfl

/-- What every function but the registration of a receive stream keeps. The table of receive streams
is cleared only by the session task, when it closes the session; only a request for shutdown closes
the outbound channel. -/
structure Keeps (task : Bool) (m m' : Memory) : Prop where
  keepsClosed : m.closed = true → m'.closed = true
  closed : m'.closed = true → m.closed = true ∨ task = true ∧ m'.recvs.streams = ∅
  taskFinished : m'.taskFinished = m.taskFinished
  shutdown : m.shutdownStarted = true → m'.shutdownStarted = true
  admitted : m.chan.admitted <+: m'.chan.admitted
  isOpen : m.chan.isOpen = true → m'.chan.isOpen = true ∨ m'.shutdownStarted = true
  streams : m'.recvs.streams ⊆ m.recvs.streams

theorem Keeps.refl (b : Bool) (m : Memory) : Keeps b m m :=
  ⟨fun h => h, .inl, rfl, fun h => h, List.prefix_rfl, .inl, fun _ h => h⟩

theorem Keeps.trans (h : Keeps b m m') (h' : Keeps b m' m'') : Keeps b m m'' where
  keepsClosed hc := h'.keepsClosed (h.keepsClosed hc)
  closed hc := by
    rcases h'.closed hc with hc | hc
    · rcases h.closed hc with hc | ⟨hb, hc⟩
      · exact .inl hc
      · refine .inr ⟨hb, Finset.subset_empty.1 ?_⟩
        rw [← hc]
        exact h'.streams
    · exact .inr hc
  taskFinished := h'.taskFinished.trans h.taskFinished
  shutdown hs := h'.shutdown (h.shutdown hs)
  admitted := h.admitted.trans h'.admitted
  isOpen ho := by
    rcases h.isOpen ho with ho | hs
    · exact h'.isOpen ho
    · exact .inr (h'.shutdown hs)
  streams := h'.streams.trans h.streams

/-- **A calm change.** -/
structure Calm (task : Bool) (m m' : Memory) : Prop extends Keeps task m m' where
  recvs : RecvCalm m.recvs m'.recvs
  finished : ∀ id, (m'.sends.cell id).finished = true → (m.sends.cell id).finished = true
  handles : m'.handles.map handleKey = m.handles.map handleKey
  offered : m'.accept.bi ⊆ m.accept.bi

theorem Calm.refl (b : Bool) (m : Memory) : Calm b m m :=
  ⟨.refl b m, .refl _, fun _ h => h, rfl, fun _ h => h⟩

theorem Calm.trans (h : Calm b m m') (h' : Calm b m' m'') : Calm b m m'' where
  toKeeps := h.toKeeps.trans h'.toKeeps
  recvs := h.recvs.trans h'.recvs
  finished id hf := h.finished id (h'.finished id hf)
  handles := h'.handles.trans h.handles
  offered _ hp := h.offered (h'.offered hp)

/-! ## Functions of `SessionInner` -/

theorem Calm.ofRecvs {r : RecvTable} (h : RecvCalm m.recvs r) : Calm b m { m with recvs := r } :=
  { Calm.refl b m with
    closed := .inl
    streams := h.streams
    recvs := h }

theorem Calm.ofSends {s : SendTable}
    (h : ∀ id, (s.cell id).finished = true → (m.sends.cell id).finished = true) :
    Calm b m { m with sends := s } :=
  { Calm.refl _ m with finished := h }

/-- Only `finish`, `reset` and `poll_close` finish a send stream. -/
theorem SendTable.finished_apply {s : SendTable} {a : SendAccess} (ha : ∀ i, a ≠ .finish i)
    (h : ((s.apply a).cell id).finished = true) : (s.cell id).finished = true := by
  cases a with
  | finish i => exact absurd rfl (ha i)
  | register i =>
      simp only [SendTable.apply, SendTable.registerSendFlow, Function.update_apply] at h
      by_cases hi : id = i
      · rw [if_pos hi] at h
        cases h
      · rw [if_neg hi] at h
        exact h
  | clear => exact h
  | updateMax i max =>
      simp only [SendTable.apply, SendTable.updateMax, SendTable.modify, Function.update_apply] at h
      split_ifs at h <;> subst_vars <;> exact h
  | _ =>
      simp only [SendTable.apply, SendTable.removeSendFlow, SendTable.modify,
        Function.update_apply] at h
      split_ifs at h <;> subst_vars <;> exact h

theorem Calm.send (m : Memory) {a : SendAccess} (ha : ∀ i, a ≠ .finish i) :
    Calm b m { m with sends := m.sends.apply a } :=
  .ofSends fun _ h => SendTable.finished_apply ha h

theorem Calm.ofChan {c : ParkingChannel Frame} (ha : m.chan.admitted <+: c.admitted)
    (ho : c.isOpen = m.chan.isOpen) : Calm b m { m with chan := c } :=
  { Calm.refl _ m with
    admitted := ha
    isOpen := fun h => .inl (ho.trans h) }

theorem Calm.requestShutdown (m : Memory) : Calm b m m.requestShutdown := by
  unfold Memory.requestShutdown
  split_ifs
  · exact .refl _ m
  · exact { Calm.refl _ m with shutdown := fun _ => rfl, isOpen := fun _ => .inr rfl }

theorem Calm.trySend (m : Memory) (n i : Nat) (f : Frame) :
    Calm b m { m with chan := (m.chan.trySend n i f).1 } := by
  rcases ParkingChannel.trySend_cases n m.chan i f with ⟨-, h⟩ | ⟨-, h, -⟩
  · rw [h]
    refine .ofChan ?_ ?_
    · rw [ParkingChannel.admitted_push]
      exact List.prefix_append _ _
    · unfold ParkingChannel.push
      split_ifs <;> rfl
  · rw [h]
    exact .refl _ m

theorem Calm.trySendFrame (m : Memory) (f : Frame) : Calm b m (m.trySendFrame l f).1 :=
  .trySend m _ _ f

theorem Calm.startSend (m : Memory) (tx : Nat) (f : Frame) : Calm b m (m.startSend l tx f).1 :=
  .trySend m _ _ f

theorem Calm.nextStreamId (m : Memory) (dir : StreamDir) : Calm b m (m.nextStreamId dir).1 :=
  { Calm.refl b m with taskFinished := rfl }

theorem Calm.registerSendFlow (m : Memory) (id : StreamId) :
    Calm b m (m.registerSendFlow l id).1 := by
  unfold Memory.registerSendFlow
  split
  · exact .refl _ m
  · exact .send m nofun

theorem Calm.removeRecvStream (m : Memory) (id : StreamId) : Calm b m (m.removeRecvStream id) :=
  .ofRecvs (.remove _ _)

theorem Calm.removeSendFlow (m : Memory) (id : StreamId) : Calm b m (m.removeSendFlow id).1 :=
  .send m nofun

theorem Calm.queueCredit (m : Memory) (id : StreamId) (n : Nat) : Calm b m (m.queueCredit l id n) := by
  unfold Memory.queueCredit
  split_ifs
  · exact Calm.trans (.ofRecvs (.prune _ _)) (.requestShutdown _)
  · exact .ofRecvs (.queueCredit _ _ _ _)
  · exact .refl _ m

theorem Calm.releaseRecv (m : Memory) (id : StreamId) : Calm b m (m.releaseRecv id) :=
  .ofRecvs (.trans (.closeReceiver _ _) (.hold _ _ _))

theorem Calm.closeAll (m : Memory) : Calm true m m.closeAll := by
  unfold Memory.closeAll
  split_ifs with h
  · exact .refl _ m
  · exact { Calm.refl true m with
      keepsClosed := fun _ => rfl
      closed := fun _ => .inr ⟨rfl, rfl⟩
      streams := Finset.empty_subset _
      recvs := .clear _
      finished := fun _ h => SendTable.finished_apply (a := .clear) nofun h }

theorem Calm.protocolError (m : Memory) (code : Nat) (reason : String) :
    Calm true m (m.protocolError l code reason).1 :=
  Calm.trans (.trySendFrame m _) (.closeAll _)

/-! ## Functions of send streams -/

theorem Calm.endOperation (m : Memory) (id : StreamId) : Calm b m (m.endOperation id) :=
  .send m nofun

theorem Calm.release (m : Memory) (id : StreamId) (n : Nat) : Calm b m (m.release id n) := by
  unfold Memory.release
  split_ifs
  · exact .refl _ m
  · exact .send m nofun

theorem Calm.tryReserve (m : Memory) (id : StreamId) (n : Nat) : Calm b m (m.tryReserve id n).1 := by
  unfold Memory.tryReserve
  split_ifs
  · exact .refl _ m
  · exact .refl _ m
  · exact .send m nofun

theorem Calm.selectApi (m : Memory) (id : StreamId) (mode : Nat) :
    Calm b m (m.selectApi id mode).1 := by
  unfold Memory.selectApi
  split_ifs
  · exact .refl _ m
  · exact .send m nofun
  · exact .refl _ m
  · exact .refl _ m

theorem Calm.beginOperation (m : Memory) (id : StreamId) (mode : Nat) :
    Calm b m (m.beginOperation id mode).1 := by
  have h : Calm b m (m.selectApi id mode).1 := .selectApi m id mode
  unfold Memory.beginOperation
  split
  · next heq => rwa [heq] at h
  · next heq =>
      rw [heq] at h
      split_ifs
      · exact h
      · exact h.trans (.send _ nofun)

theorem Calm.clone (m : Memory) : Calm b m { m with chan := m.chan.clone.1 } :=
  .ofChan List.prefix_rfl rfl

theorem Calm.writeBuf (m : Memory) (h : Nat) (id : StreamId) (data : List UInt8) :
    Calm b m (m.writeBuf h id data).1 := by
  have hb : Calm b m (m.beginOperation id 1).1 := .beginOperation m id 1
  unfold Memory.writeBuf
  split
  · next heq => rwa [heq] at hb
  · next heq =>
      rw [heq] at hb
      split_ifs
      · exact hb.trans (.endOperation _ _)
      · exact hb.trans (.clone _)

/-- A grant that is given back. -/
theorem Calm.giveUp (m : Memory) (id : StreamId) (n : Nat) :
    Calm b m ((m.release id n).endOperation id) :=
  Calm.trans (.release m id n) (.endOperation _ _)

theorem Calm.pollWriteBuf (m : Memory) (w : Write) : Calm b m (m.pollWriteBuf l w).1 := by
  unfold Memory.pollWriteBuf
  split
  · -- the wait for credit
    split_ifs
    · exact .endOperation m _
    · exact .endOperation m _
    · have h : Calm b m (m.tryReserve w.id (Memory.wanted l w.data.length)).1 := .tryReserve m _ _
      split
      · next heq =>
          rw [heq] at h
          split_ifs
          · exact h.trans (.endOperation _ _)
          · exact h
      · next heq => rwa [heq] at h
  · -- the wait for a slot
    next grant _ =>
    split_ifs
    · exact .giveUp m _ _
    · split
      · exact .refl _ m
      · exact .giveUp m _ _
      · have h : Calm b m (m.startSend l w.outbound (.stream w.id (w.data.take grant) false)).1 :=
          .startSend m _ _
        split
        · next heq => rwa [heq] at h
        · next heq =>
            rw [heq] at h
            exact h.trans (.giveUp _ _ _)

theorem Calm.cancelWriteBuf (m : Memory) (w : Write) : Calm b m (m.cancelWriteBuf w) :=
  Calm.trans (.requestShutdown m) (.endOperation _ _)

theorem Calm.pollWriteBody (m : Memory) (id : StreamId) (tx : Nat) (buf : List UInt8) :
    Calm b m (m.pollWriteBody l id tx buf).1 := by
  unfold Memory.pollWriteBody
  split_ifs
  · exact .refl _ m
  · exact .refl _ m
  · exact .refl _ m
  · have h : Calm b m (m.tryReserve id (Memory.wanted l buf.length)).1 := .tryReserve m _ _
    split
    · next heq =>
        rw [heq] at h
        split_ifs
        · exact h
        · exact h
    · next m' chunk _ heq =>
        rw [heq] at h
        split
        · exact h.trans (.release _ _ _)
        · exact h.trans (.release _ _ _)
        · have hs : Calm b m' (m'.startSend l tx (.stream id (buf.take chunk) false)).1 :=
            .startSend m' _ _
          split
          · next heq =>
              rw [heq] at hs
              exact h.trans hs
          · next heq =>
              rw [heq] at hs
              exact (h.trans hs).trans (.release _ _ _)

theorem Calm.pollWrite (m : Memory) (id : StreamId) (tx : Nat) (buf : List UInt8) :
    Calm b m (m.pollWrite l id tx buf).1 := by
  have h : Calm b m (m.beginOperation id 2).1 := .beginOperation m id 2
  unfold Memory.pollWrite
  split
  · next heq => rwa [heq] at h
  · next heq =>
      rw [heq] at h
      exact (h.trans (.pollWriteBody _ _ _ _)).trans (.endOperation _ _)

theorem Calm.pollFlush (m : Memory) (id : StreamId) (tx : Nat) :
    Calm b m (m.pollFlush id tx).1 := by
  have h : Calm b m (m.selectApi id 2).1 := .selectApi m id 2
  unfold Memory.pollFlush
  split
  · next heq => rwa [heq] at h
  · next heq => rwa [heq] at h

/-! ## Functions of receive streams and of `Session` -/

theorem Calm.read {api : ReadApi} {n : Nat} (h : m.read l id api n = some m') : Calm b m m' := by
  unfold Memory.read at h
  split at h
  · cases h
  · next hp =>
      cases h
      exact .ofRecvs (.poll hp rfl)
  · next hp =>
      cases h
      exact .ofRecvs (.poll hp rfl)
  · next hp =>
      cases h
      refine Calm.trans (.ofRecvs ?_) (.queueCredit _ _ _)
      exact .trans (.poll hp rfl) (.storeMax _ _ _)

theorem Calm.acceptUni {r : Except Error StreamId} (h : m.acceptUni = some (m', r)) :
    Calm b m m' := by
  unfold Memory.acceptUni at h
  split at h
  · cases h
    exact { Calm.refl b m with
      closed := .inl
      streams := fun _ h => h
      recvs := .hold _ _ _ }
  · split_ifs at h
    cases h
    exact .refl _ m

theorem Calm.acceptBi {r : Except Error (Nat × StreamId)} (h : m.acceptBi = some (m', r)) :
    Calm b m m' := by
  unfold Memory.acceptBi at h
  split at h
  · cases h
    exact { Calm.refl b m with
      closed := .inl
      streams := fun _ h => h
      recvs := .hold _ _ _
      handles := by
        refine map_handleKey_modify (fun x => ?_) _ _
        rfl
      offered := List.tail_subset _ }
  · split_ifs at h
    cases h
    exact .refl _ m

/-! ## `handle_frame` on a frame that opens nothing -/

theorem deliver_cases (m : Memory) (id : StreamId) (data : List UInt8) (fin : Bool) :
    (m.deliver l id data fin).1 = m ∨
      (m.deliver l id data fin).1 = { m with recvs := m.recvs.apply (.deliver id ⟨data, fin⟩) } := by
  unfold Memory.deliver
  split_ifs
  · exact .inl rfl
  · exact .inl rfl
  · exact .inl rfl
  · exact .inr rfl

theorem Calm.deliver (m : Memory) (id : StreamId) (data : List UInt8) (fin : Bool) :
    Calm b m (if fin = true then (m.deliver l id data fin).1.removeRecvStream id
      else (m.deliver l id data fin).1) := by
  rcases deliver_cases (l := l) m id data fin with h | h
  · rw [h]
    split_ifs
    · exact .removeRecvStream m id
    · exact .refl b m
  · rw [h]
    cases fin with
    | true => exact .ofRecvs (.deliverFin _ _ _)
    | false => exact .ofRecvs (.deliver _ _ _)

theorem Calm.handleStream (m : Memory) (id : StreamId) (data : List UInt8) (fin : Bool) :
    Calm true m (m.handleStream l id data fin).1 := by
  unfold Memory.handleStream
  split
  · exact .protocolError m _ _
  · split
    · exact .protocolError m _ _
    · have hr : Calm true m { m with
          recvs := (m.recvs.apply (.receive id data.length)).apply (.dropTx id) } :=
        .ofRecvs (.receive _ _ _)
      have hd := hr.trans (.deliver (l := l) _ id data fin)
      split
      next m' full heq =>
      rw [heq] at hd
      cases full with
      | true => exact hd.trans (.protocolError _ _ _)
      | false => exact hd

theorem Calm.handleReset (m : Memory) (id : StreamId) : Calm true m (m.handleReset l id).1 := by
  unfold Memory.handleReset
  split_ifs
  · exact .removeRecvStream m id
  · exact .refl _ m
  · exact .protocolError m _ _

theorem Calm.handleStop (m : Memory) (id : StreamId) (code : Nat) :
    Calm true m (m.handleStop l id code).1 := by
  have h : Calm true m (m.removeSendFlow id).1 := .removeSendFlow m id
  unfold Memory.handleStop
  split
  · next m' heq =>
      rw [heq] at h
      have hs : Calm true m' (m'.sendFrame l (.resetStream id code)).1 := .trySendFrame m' _
      split
      · next heq =>
          rw [heq] at hs
          exact h.trans hs
      · next heq =>
          rw [heq] at hs
          exact h.trans hs
  · next heq =>
      rw [heq] at h
      split_ifs
      · exact h
      · exact h.trans (.protocolError _ _ _)
end WebsockMux.Wasm
