import WebsockMux.Native.Encodable
import WebsockMux.Wasm.Steps

/-!
# What a step of a browser session may send

The functions of a browser session act on its outbound channel and hand out streams in a few ways:
they put a frame into the channel through some sender, clone a sender, close the channel, make or
drop a `SendStream`, hand out a `RecvStream`, and queue credit. `Acts` says that one state comes
from another by such actions, each of them allowed by a `May`; `Session.may` says what each label
allows, in particular every frame that a step may send, and through which sender.
`Session.acts_of_step` connects the two. The bound of the channel and the range of what is sent are
read off it.
-/

set_option autoImplicit false

namespace WebsockMux.Wasm

open WebsockMux.Lib WebsockMux.Proto
open WebsockMux.Native (Limits RecvTable RecvAccess RecvQuiet RecvStream ReadApi RecvEvent SendTable
  ReadResult SmallClose maxWriteChunk)

variable {l : Limits} {m m' m'' : Memory} {id : StreamId}

/-! ## Actions -/

/-- What a function may do: put a frame into the channel through a sender, hand out a stream, drop a
`SendStream`, and queue a limit as credit. -/
structure May where
  put : Nat → Frame → Prop
  handOut : StreamId → Prop
  release : Nat → Prop
  credit : StreamId → Nat → Prop

/-- A change that does none of what a `May` speaks of. -/
structure Quiet (m m' : Memory) : Prop where
  chan : m'.chan = m.chan
  handles : m'.handles = m.handles
  recvs : RecvQuiet m.recvs m'.recvs
  uni : m'.accept.uni ⊆ m.accept.uni
  bi : m'.accept.bi ⊆ m.accept.bi

/-- **What a function does**, one action after the other. -/
inductive Acts (l : Limits) (p : May) : Memory → Memory → Prop where
  | quiet {m m' : Memory} (h : Quiet m m') : Acts l p m m'
  | put {m : Memory} {i : Nat} {f : Frame} (hp : p.put i f) (hs : m.chan.canSend i = true) :
      Acts l p m { m with chan := m.chan.push l.outboundQueueLen i f }
  | close (m : Memory) : Acts l p m { m with chan := m.chan.close }
  | clone (m : Memory) : Acts l p m { m with chan := m.chan.clone.1 }
  | newSend {m : Memory} {id : StreamId} (held : Bool) (hp : p.handOut id) :
      Acts l p m (m.newSend id held).1
  /-- A handle is held, or its FIN is in flight. -/
  | touch {m : Memory} (h : Nat) {g : SendStream → SendStream}
      (hg : ∀ x, (g x).id = x.id ∧ (g x).outbound = x.outbound ∧ (g x).live = x.live) :
      Acts l p m { m with handles := m.handles.modify h g }
  | release {m : Memory} {h : Nat} (hp : p.release h) : Acts l p m (m.releaseSend h)
  | hold {m : Memory} {id : StreamId} (hp : p.handOut id) :
      Acts l p m { m with recvs := m.recvs.apply (.hold id true) }
  | offer {m : Memory} {id : StreamId} (h : Option Nat) (hp : p.handOut id) :
      Acts l p m { m with accept := m.accept.apply (.push id h) }
  | credit {m : Memory} {id : StreamId} {n : Nat} (hp : p.credit id n) :
      Acts l p m { m with recvs := m.recvs.apply (.queueCredit l.maxOpenStreams id n) }
  | trans {m m' m'' : Memory} (h : Acts l p m m') (h' : Acts l p m' m'') : Acts l p m m''

variable {p : May}

theorem Acts.refl (m : Memory) : Acts l p m m :=
  .quiet ⟨rfl, rfl, .refl _, fun _ h => h, fun _ h => h⟩

/-- A change of the identifiers, the send table and the flags of the session. -/
theorem Acts.other (hc : m'.chan = m.chan) (hh : m'.handles = m.handles)
    (hr : m'.recvs = m.recvs) (ha : m'.accept = m.accept) : Acts l p m m' := by
  refine .quiet ⟨hc, hh, ?_, ?_, ?_⟩
  · rw [hr]
    exact .refl _
  · rw [ha]
    exact fun _ h => h
  · rw [ha]
    exact fun _ h => h

theorem Acts.ofSends (m : Memory) (s : SendTable) : Acts l p m { m with sends := s } :=
  .other rfl rfl rfl rfl

theorem Acts.ofRecvs {r : RecvTable} (h : RecvQuiet m.recvs r) :
    Acts l p m { m with recvs := r } :=
  .quiet ⟨rfl, rfl, h, fun _ h => h, fun _ h => h⟩

theorem Acts.recv (m : Memory) {a : RecvAccess} (ha : a.loud = false) :
    Acts l p m { m with recvs := m.recvs.apply a } :=
  .ofRecvs (.apply _ ha)

/-! ## Functions of `SessionInner` -/

/-- `try_send` puts a frame into the channel, or nothing. -/
theorem Acts.trySend (m : Memory) {i : Nat} {f : Frame} (hp : p.put i f) :
    Acts l p m { m with chan := (m.chan.trySend l.outboundQueueLen i f).1 } := by
  rcases ParkingChannel.trySend_cases l.outboundQueueLen m.chan i f with ⟨hs, h⟩ | ⟨-, h, -⟩
  · rw [h]
    exact .put hp hs
  · rw [h]
    exact .refl m

theorem Acts.trySendFrame (m : Memory) {f : Frame} (hp : p.put 0 f) :
    Acts l p m (m.trySendFrame l f).1 :=
  .trySend m hp

theorem Acts.startSend (m : Memory) {tx : Nat} {f : Frame} (hp : p.put tx f) :
    Acts l p m (m.startSend l tx f).1 :=
  .trySend m hp

theorem Acts.requestShutdown (m : Memory) : Acts l p m m.requestShutdown := by
  unfold Memory.requestShutdown
  split_ifs
  · exact .refl m
  · exact .trans (.close m) (.other rfl rfl rfl rfl)

theorem Acts.registerSendFlow (m : Memory) (id : StreamId) :
    Acts l p m (m.registerSendFlow l id).1 := by
  unfold Memory.registerSendFlow
  split
  · exact .refl m
  · exact .ofSends m _

theorem Acts.removeSendFlow (m : Memory) (id : StreamId) : Acts l p m (m.removeSendFlow id).1 :=
  .ofSends m _

theorem Acts.removeRecvStream (m : Memory) (id : StreamId) : Acts l p m (m.removeRecvStream id) :=
  .recv m rfl

theorem Acts.stopRecvStream (m : Memory) (id : StreamId) : Acts l p m (m.stopRecvStream id).1 := by
  unfold Memory.stopRecvStream
  split_ifs
  · exact .recv m rfl
  · exact .refl m

theorem Acts.queueCredit (m : Memory) {n : Nat} (hp : p.credit id n) :
    Acts l p m (m.queueCredit l id n) := by
  unfold Memory.queueCredit
  split_ifs
  · exact .trans (.recv m rfl) (.requestShutdown _)
  · exact .credit hp
  · exact .refl m

theorem Acts.closeAll (m : Memory) : Acts l p m m.closeAll := by
  unfold Memory.closeAll
  split_ifs
  · exact .refl m
  · have hclear : RecvQuiet m.recvs ((m.recvs.apply .clearCredit).apply .clear) :=
      .trans (.apply _ rfl) (.apply _ rfl)
    exact .quiet ⟨rfl, rfl, hclear, fun _ h => h, fun _ h => h⟩

theorem Acts.protocolError (m : Memory) {code : Nat} {reason : String}
    (hp : p.put 0 (.connectionClose code reason)) : Acts l p m (m.protocolError l code reason).1 :=
  .trans (.trySendFrame m hp) (.closeAll _)

theorem Acts.dropSend (m : Memory) {h : Nat} (hr : p.release h)
    (hp : p.put 0 (.resetStream id 0)) : Acts l p m (m.dropSend l h id) := by
  unfold Memory.dropSend
  dsimp only
  split_ifs
  · exact .release hr
  · exact .trans (.removeSendFlow m id) (.release hr)
  · refine .trans (.removeSendFlow m id) ?_
    have hs : Acts l p (m.removeSendFlow id).1
        ((m.removeSendFlow id).1.trySendFrame l (.resetStream id 0)).1 := .trySendFrame _ hp
    split
    · next heq =>
        rw [heq] at hs
        exact .trans hs (.release hr)
    · next heq =>
        rw [heq] at hs
        exact .trans hs (.trans (.requestShutdown _) (.release hr))

theorem Acts.releaseRecv (m : Memory) (id : StreamId) : Acts l p m (m.releaseRecv id) :=
  .ofRecvs (.trans (.apply _ rfl) (.apply _ rfl))

theorem Acts.dropRecv (m : Memory) (hp : p.put 0 (.stopSending id 0)) :
    Acts l p m (m.dropRecv l id) := by
  have hstop : Acts l p m (m.stopRecvStream id).1 := .stopRecvStream m id
  unfold Memory.dropRecv
  split
  · next heq =>
      rw [heq] at hstop
      exact .trans hstop (.releaseRecv _ _)
  · next m₁ heq =>
      rw [heq] at hstop
      refine .trans hstop ?_
      split_ifs
      · exact .releaseRecv _ _
      · exact .releaseRecv _ _
      · have hswap : Acts l p m₁ { m₁ with recvs := m₁.recvs.apply (.swapStop id) } :=
          .recv m₁ rfl
        have hs : Acts l p m₁ ({ m₁ with recvs := m₁.recvs.apply (.swapStop id) }.trySendFrame l
            (.stopSending id 0)).1 := .trans hswap (.trySendFrame _ hp)
        split
        · next heq =>
            rw [heq] at hs
            exact .trans hs (.releaseRecv _ _)
        · next heq =>
            rw [heq] at hs
            exact .trans hs (.trans (.requestShutdown _) (.releaseRecv _ _))

/-! ## Functions of `SendStream` -/

theorem Acts.endOperation (m : Memory) (id : StreamId) : Acts l p m (m.endOperation id) :=
  .ofSends m _

theorem Acts.releaseCredit (m : Memory) (id : StreamId) (n : Nat) : Acts l p m (m.release id n) := by
  unfold Memory.release
  split_ifs
  · exact .refl m
  · exact .ofSends m _

/-- A grant that is given back. -/
theorem Acts.giveUp (m : Memory) (id : StreamId) (n : Nat) :
    Acts l p m ((m.release id n).endOperation id) :=
  .trans (.releaseCredit m id n) (.endOperation _ _)

theorem Acts.tryReserve (m : Memory) (id : StreamId) (n : Nat) :
    Acts l p m (m.tryReserve id n).1 := by
  unfold Memory.tryReserve
  split_ifs
  · exact .refl m
  · exact .refl m
  · exact .ofSends m _

/-- The grant is at most what is asked for. -/
theorem tryReserve_le (m : Memory) (id : StreamId) (n : Nat) : (m.tryReserve id n).2 ≤ n := by
  unfold Memory.tryReserve
  split_ifs
  · exact Nat.zero_le _
  · exact Nat.zero_le _
  · exact Nat.min_le_right _ _

theorem wanted_le (l : Limits) (n : Nat) : Memory.wanted l n ≤ maxWriteChunk :=
  (Nat.min_le_left _ _).trans (Nat.min_le_right _ _)

theorem Acts.selectApi (m : Memory) (id : StreamId) (mode : Nat) :
    Acts l p m (m.selectApi id mode).1 := by
  unfold Memory.selectApi
  split_ifs
  · exact .refl m
  · exact .ofSends m _
  · exact .refl m
  · exact .refl m

theorem Acts.beginOperation (m : Memory) (id : StreamId) (mode : Nat) :
    Acts l p m (m.beginOperation id mode).1 := by
  have h : Acts l p m (m.selectApi id mode).1 := .selectApi m id mode
  unfold Memory.beginOperation
  split
  · next heq => rwa [heq] at h
  · next heq =>
      rw [heq] at h
      split_ifs
      · exact h
      · exact h.trans (.ofSends _ _)

theorem Acts.writeBuf (m : Memory) (h : Nat) (id : StreamId) (data : List UInt8) :
    Acts l p m (m.writeBuf h id data).1 := by
  have hb : Acts l p m (m.beginOperation id 1).1 := .beginOperation m id 1
  unfold Memory.writeBuf
  split
  · next heq => rwa [heq] at hb
  · next heq =>
      rw [heq] at hb
      split_ifs
      · exact hb.trans (.endOperation _ _)
      · exact hb.trans (.clone _)

theorem Acts.pollWriteBuf (m : Memory) {w : Write}
    (hp : ∀ grant ∈ w.grant, p.put w.outbound (.stream w.id (w.data.take grant) false)) :
    Acts l p m (m.pollWriteBuf l w).1 := by
  unfold Memory.pollWriteBuf
  split
  · -- the wait for credit
    split_ifs
    · exact .endOperation m _
    · exact .endOperation m _
    · have h : Acts l p m (m.tryReserve w.id (Memory.wanted l w.data.length)).1 :=
        .tryReserve m _ _
      split
      · next heq =>
          rw [heq] at h
          split_ifs
          · exact h.trans (.endOperation _ _)
          · exact h
      · next heq => rwa [heq] at h
  · -- the wait for a slot
    next grant hg =>
    split_ifs
    · exact .giveUp m _ _
    · split
      · exact .refl m
      · exact .giveUp m _ _
      · have h : Acts l p m (m.startSend l w.outbound (.stream w.id (w.data.take grant) false)).1 :=
          .startSend m (hp grant hg)
        split
        · next heq => rwa [heq] at h
        · next heq =>
            rw [heq] at h
            exact h.trans (.giveUp _ _ _)

theorem Acts.cancelWriteBuf (m : Memory) (w : Write) : Acts l p m (m.cancelWriteBuf w) :=
  .trans (.requestShutdown m) (.endOperation _ _)

theorem Acts.finishBody (m : Memory) (hp : p.put 0 (.stream id [] true)) :
    Acts l p m (m.finishBody l id).1 := by
  unfold Memory.finishBody
  split_ifs
  · exact .refl m
  · exact .refl m
  · have hs : Acts l p m ({ m with sends := m.sends.apply (.finish id) }.sendFrame l
        (.stream id [] true)).1 := .trans (.ofSends m _) (.trySendFrame _ hp)
    split
    · next heq =>
        rw [heq] at hs
        exact hs.trans (.removeSendFlow _ _)
    · next heq => rwa [heq] at hs

theorem Acts.finish (m : Memory) (hp : p.put 0 (.stream id [] true)) :
    Acts l p m (m.finish l id).1 := by
  have hb : Acts l p m (m.beginOperation id 1).1 := .beginOperation m id 1
  unfold Memory.finish
  split
  · next heq => rwa [heq] at hb
  · next heq =>
      rw [heq] at hb
      exact hb.trans (.trans (.finishBody _ hp) (.endOperation _ _))

theorem Acts.resetBody (m : Memory) {code : Nat}
    (hp : code ≤ VarInt.max → p.put 0 (.resetStream id code)) :
    Acts l p m (m.resetBody l id code).1 := by
  unfold Memory.resetBody
  split_ifs with hc
  · exact .refl m
  · have hs : Acts l p m (({ m with sends := m.sends.apply (.finish id) }.removeSendFlow id).1.sendFrame
        l (.resetStream id code)).1 :=
      .trans (.ofSends m _) (.trans (.removeSendFlow _ id)
        (.trySendFrame _ (hp (Nat.le_of_not_lt hc))))
    dsimp only
    split
    · next heq => rwa [heq] at hs
    · next heq => rwa [heq] at hs

theorem Acts.reset (m : Memory) {code : Nat}
    (hp : code ≤ VarInt.max → p.put 0 (.resetStream id code)) :
    Acts l p m (m.reset l id code).1 := by
  have hb : Acts l p m (m.beginOperation id 0).1 := .beginOperation m id 0
  unfold Memory.reset
  split
  · next heq => rwa [heq] at hb
  · next heq =>
      rw [heq] at hb
      exact hb.trans (.trans (.resetBody _ hp) (.endOperation _ _))

theorem Acts.pollWriteBody (m : Memory) {tx : Nat} {buf : List UInt8}
    (hp : ∀ n ≤ maxWriteChunk, p.put tx (.stream id (buf.take n) false)) :
    Acts l p m (m.pollWriteBody l id tx buf).1 := by
  unfold Memory.pollWriteBody
  split_ifs
  · exact .refl m
  · exact .refl m
  · exact .refl m
  · have h : Acts l p m (m.tryReserve id (Memory.wanted l buf.length)).1 := .tryReserve m _ _
    have hle := tryReserve_le m id (Memory.wanted l buf.length)
    split
    · next heq =>
        rw [heq] at h
        split_ifs
        · exact h
        · exact h
    · next m' chunk _ heq =>
        rw [heq] at h hle
        split
        · exact h.trans (.releaseCredit _ _ _)
        · exact h.trans (.releaseCredit _ _ _)
        · have hs : Acts l p m' (m'.startSend l tx (.stream id (buf.take chunk) false)).1 :=
            .startSend m' (hp chunk (hle.trans (wanted_le l _)))
          split
          · next heq =>
              rw [heq] at hs
              exact h.trans hs
          · next heq =>
              rw [heq] at hs
              exact (h.trans hs).trans (.releaseCredit _ _ _)

theorem Acts.pollWrite (m : Memory) {tx : Nat} {buf : List UInt8}
    (hp : ∀ n ≤ maxWriteChunk, p.put tx (.stream id (buf.take n) false)) :
    Acts l p m (m.pollWrite l id tx buf).1 := by
  have h : Acts l p m (m.beginOperation id 2).1 := .beginOperation m id 2
  unfold Memory.pollWrite
  split
  · next heq => rwa [heq] at h
  · next heq =>
      rw [heq] at h
      exact (h.trans (.pollWriteBody _ hp)).trans (.endOperation _ _)

theorem Acts.pollFlush (m : Memory) (id : StreamId) (tx : Nat) :
    Acts l p m (m.pollFlush id tx).1 := by
  have h : Acts l p m (m.selectApi id 2).1 := .selectApi m id 2
  unfold Memory.pollFlush
  split
  · next heq => rwa [heq] at h
  · next heq => rwa [heq] at h

theorem Acts.pollCloseBody (m : Memory) (h : Nat) {x : SendStream}
    (hp : p.put x.outbound (.stream x.id [] true)) : Acts l p m (m.pollCloseBody l h x).1 := by
  unfold Memory.pollCloseBody
  dsimp only
  split_ifs
  · exact .refl m
  · split
    · exact .refl m
    · exact .refl m
    · have hs : Acts l p m (m.startSend l x.outbound (.stream x.id [] true)).1 := .startSend m hp
      split
      · next heq => rwa [heq] at hs
      · next m₁ heq =>
          rw [heq] at hs
          have ht : Acts l p m₁ { m₁ with
              handles := m₁.handles.modify h fun x => { x with closeInFlight := true } } :=
            .touch h fun x => ⟨rfl, rfl, rfl⟩
          exact hs.trans (ht.trans (.other rfl rfl rfl rfl))
  · exact .refl m

theorem Acts.pollClose (m : Memory) (h : Nat) {x : SendStream}
    (hp : p.put x.outbound (.stream x.id [] true)) : Acts l p m (m.pollClose l h x).1 := by
  have ha : Acts l p m (m.selectApi x.id 2).1 := .selectApi m x.id 2
  unfold Memory.pollClose
  split
  · next heq => rwa [heq] at ha
  · next heq =>
      rw [heq] at ha
      exact ha.trans (.pollCloseBody _ h hp)

/-! ## Functions of `RecvStream` and of `Session` -/

theorem Acts.read {api : ReadApi} {n : Nat} (hp : ∀ t ≤ VarInt.max, p.credit id t)
    (h : m.read l id api n = some m') : Acts l p m m' := by
  -- what a read leaves of the reader
  have hread : ∀ {res : ReadResult} {r : RecvStream} {events : List RecvEvent} {target : Option Nat},
      (m.recvs.cell id).reader.poll l (decide (id ∈ m.recvs.streams)) api n
        (m.recvs.cell id).events = res → RecvStream.outcome res = some (r, events, target) →
      (∀ t ∈ target, t ≤ VarInt.max) ∧ RecvQuiet m.recvs (m.recvs.apply (.read id r events)) := by
    intro res r events target hpoll hout
    subst hpoll
    obtain ⟨taken, hr⟩ := RecvStream.reads_of_poll hout
    refine ⟨fun t ht => (hr.grows t ht).2, .ofCell rfl (fun _ h => h) (fun hh => ?_) (Nat.le_refl _)⟩
    exact hr.held ▸ hh
  unfold Memory.read at h
  split at h
  · cases h
  · next hpoll =>
      cases h
      exact .ofRecvs (hread hpoll rfl).2
  · next hpoll =>
      cases h
      exact .ofRecvs (hread hpoll rfl).2
  · next r events target hpoll =>
      cases h
      obtain ⟨hle, hq⟩ := hread hpoll rfl
      exact .trans (.ofRecvs (hq.trans (.apply _ rfl))) (.queueCredit _ (hp target (hle target rfl)))

theorem Acts.stop (m : Memory) {code : Nat}
    (hp : code ≤ VarInt.max → p.put 0 (.stopSending id code)) :
    Acts l p m (m.stop l id code).1 := by
  unfold Memory.stop
  split_ifs with hc
  · exact .refl m
  · exact .refl m
  · have hstop : Acts l p m ({ m with recvs := m.recvs.apply (.swapStop id) }.stopRecvStream id).1 :=
      .trans (.recv m rfl) (.stopRecvStream _ id)
    split
    · next heq => rwa [heq] at hstop
    · next m₁ heq =>
        rw [heq] at hstop
        have hs : Acts l p m₁ (m₁.sendFrame l (.stopSending id code)).1 :=
          .trySendFrame m₁ (hp (Nat.le_of_not_lt hc))
        split
        · next heq =>
            rw [heq] at hs
            exact hstop.trans hs
        · next heq =>
            rw [heq] at hs
            exact hstop.trans hs

/-- What is allowed for a stream that the session opens. -/
theorem Acts.openUni (m : Memory)
    (hp : ∀ id, (m.nextStreamId .uni).2 = .ok id → p.put 0 (.openUni id) ∧ p.handOut id) :
    Acts l p m (m.openUni l).1 := by
  have hids : Acts l p m (m.nextStreamId .uni).1 := .other rfl rfl rfl rfl
  unfold Memory.openUni
  split
  · next heq => rwa [heq] at hids
  · next m₁ i heq =>
      rw [heq] at hids
      obtain ⟨hput, hout⟩ := hp i (by rw [heq])
      have hreg : Acts l p m₁ (m₁.registerSendFlow l i).1 := .registerSendFlow m₁ i
      split
      · next heq =>
          rw [heq] at hreg
          exact hids.trans hreg
      · next m₂ heq =>
          rw [heq] at hreg
          have hs : Acts l p m₂ (m₂.sendFrame l (.openUni i)).1 := .trySendFrame m₂ hput
          split
          · next heq =>
              rw [heq] at hs
              exact (hids.trans hreg).trans (hs.trans (.removeSendFlow _ _))
          · next heq =>
              rw [heq] at hs
              exact (hids.trans hreg).trans (hs.trans (.newSend true hout))

theorem Acts.undoOpenBi (m : Memory) (hp : p.put 0 (.stopSending id 0)) :
    Acts l p m (m.undoOpenBi l id) :=
  .trans (.removeRecvStream m id) (.trans (.removeSendFlow _ id) (.dropRecv _ hp))

theorem Acts.sendOpenBi (m : Memory) (ho : p.put 0 (.openBi id))
    (hc : p.put 0 (.maxStreamData id l.initialStreamWindow)) (hs : p.put 0 (.stopSending id 0))
    (hout : p.handOut id) : Acts l p m (m.sendOpenBi l id).1 := by
  have hopen : Acts l p m (m.sendFrame l (.openBi id)).1 := .trySendFrame m ho
  unfold Memory.sendOpenBi
  split
  · next heq =>
      rw [heq] at hopen
      exact hopen.trans (.undoOpenBi _ hs)
  · next m₁ heq =>
      rw [heq] at hopen
      have hcredit : Acts l p m₁ (m₁.sendFrame l (.maxStreamData id l.initialStreamWindow)).1 :=
        .trySendFrame m₁ hc
      split
      · next heq =>
          rw [heq] at hcredit
          exact (hopen.trans hcredit).trans (.undoOpenBi _ hs)
      · next m₂ heq =>
          rw [heq] at hcredit
          refine (hopen.trans hcredit).trans (.trans (.newSend true hout) ?_)
          exact .hold (m := (m₂.newSend id true).1) hout

theorem Acts.openBi (m : Memory)
    (hp : ∀ id, (m.nextStreamId .bi).2 = .ok id → p.put 0 (.openBi id) ∧
      p.put 0 (.maxStreamData id l.initialStreamWindow) ∧ p.put 0 (.stopSending id 0) ∧
      p.handOut id) : Acts l p m (m.openBi l).1 := by
  have hids : Acts l p m (m.nextStreamId .bi).1 := .other rfl rfl rfl rfl
  unfold Memory.openBi
  split
  · next heq => rwa [heq] at hids
  · next m₁ i heq =>
      rw [heq] at hids
      obtain ⟨ho, hc, hs, hout⟩ := hp i (by rw [heq])
      have hreg : Acts l p m₁ (m₁.registerSendFlow l i).1 := .registerSendFlow m₁ i
      split
      · next heq =>
          rw [heq] at hreg
          exact hids.trans hreg
      · next m₂ heq =>
          rw [heq] at hreg
          have hrecv : Acts l p m₂ (m₂.registerRecvStream l i) := .recv m₂ rfl
          exact (hids.trans hreg).trans (hrecv.trans (.sendOpenBi _ ho hc hs hout))

theorem Acts.acceptUni {r : Except Error StreamId} (hp : ∀ id ∈ m.accept.uni, p.handOut id)
    (h : m.acceptUni = some (m', r)) : Acts l p m m' := by
  unfold Memory.acceptUni at h
  split at h
  · next i rest heq =>
      cases h
      have hpop : Acts l p m { m with accept := m.accept.apply (.pop false) } :=
        .quiet ⟨rfl, rfl, .refl _, List.tail_subset _, fun _ h => h⟩
      exact hpop.trans (.hold (hp i (by rw [heq]; exact List.mem_cons_self)))
  · split_ifs at h
    cases h
    exact .refl m

theorem Acts.acceptBi {r : Except Error (Nat × StreamId)} (hp : ∀ q ∈ m.accept.bi, p.handOut q.2)
    (h : m.acceptBi = some (m', r)) : Acts l p m m' := by
  unfold Memory.acceptBi at h
  split at h
  · next k i rest heq =>
      cases h
      have hpop : Acts l p m { m with accept := m.accept.apply (.pop true) } :=
        .quiet ⟨rfl, rfl, .refl _, fun _ h => h, List.tail_subset _⟩
      have htouch : Acts l p { m with accept := m.accept.apply (.pop true) } { m with
          accept := m.accept.apply (.pop true)
          handles := m.handles.modify k fun x => { x with held := true } } :=
        .touch k fun x => ⟨rfl, rfl, rfl⟩
      exact (hpop.trans htouch).trans (.hold (hp (k, i) (by rw [heq]; exact List.mem_cons_self)))
  · split_ifs at h
    cases h
    exact .refl m

/-- A fold of functions that act. -/
theorem Acts.foldl {α : Type} {f : Memory → α → Memory} {xs : List α}
    (h : ∀ m, ∀ x ∈ xs, Acts l p m (f m x)) (m : Memory) : Acts l p m (xs.foldl f m) := by
  induction xs generalizing m with
  | nil => exact .refl m
  | cons x xs ih =>
      refine .trans (h m x List.mem_cons_self) (ih (fun m y hy => ?_) _)
      exact h m y (List.mem_cons_of_mem x hy)

theorem Acts.dropAcceptUni (m : Memory) (hp : ∀ id ∈ m.accept.uni, p.put 0 (.stopSending id 0)) :
    Acts l p m (m.dropAcceptUni l) := by
  have hclear : Acts l p m { m with accept := { m.accept with uniRx := false, uni := [] } } :=
    .quiet ⟨rfl, rfl, .refl _, List.nil_subset _, fun _ h => h⟩
  exact hclear.trans (.foldl (fun m id hid => .dropRecv m (hp id hid)) _)

/-- The streams that wait in the queue of `accept_bi`. -/
theorem Acts.dropAcceptBi (m : Memory) (hp : ∀ q ∈ m.accept.bi, p.release q.1 ∧
      p.put 0 (.resetStream q.2 0) ∧ p.put 0 (.stopSending q.2 0)) :
    Acts l p m (m.dropAcceptBi l) := by
  have hclear : Acts l p m { m with accept := { m.accept with biRx := false, bi := [] } } :=
    .quiet ⟨rfl, rfl, .refl _, fun _ h => h, List.nil_subset _⟩
  refine hclear.trans (.foldl (fun m q hq => ?_) _)
  obtain ⟨hr, hreset, hstop⟩ := hp q hq
  exact .trans (.dropSend m hr hreset) (.dropRecv _ hstop)

theorem accept_requestShutdown (m : Memory) : m.requestShutdown.accept = m.accept := by
  unfold Memory.requestShutdown
  split_ifs <;> rfl

theorem accept_dropRecv (m : Memory) (id : StreamId) : (m.dropRecv l id).accept = m.accept := by
  have hstop : (m.stopRecvStream id).1.accept = m.accept := by
    unfold Memory.stopRecvStream
    split_ifs <;> rfl
  unfold Memory.dropRecv
  split
  · next heq =>
      rw [heq] at hstop
      exact hstop
  · next m₁ heq =>
      rw [heq] at hstop
      refine Eq.trans ?_ hstop
      have hsend : ({ m₁ with recvs := m₁.recvs.apply (.swapStop id) }.trySendFrame l
          (.stopSending id 0)).1.accept = m₁.accept := rfl
      split_ifs
      · rfl
      · rfl
      · split
        · next heq =>
            rw [heq] at hsend
            exact hsend
        · next heq =>
            rw [heq] at hsend
            exact (accept_requestShutdown _).trans hsend

theorem bi_dropAcceptUni (m : Memory) : (m.dropAcceptUni l).accept.bi = m.accept.bi := by
  have hfold : ∀ (ids : List StreamId) (m : Memory),
      (ids.foldl (fun m id => m.dropRecv l id) m).accept = m.accept := by
    intro ids
    induction ids with
    | nil => exact fun m => rfl
    | cons id ids ih => exact fun m => (ih _).trans (accept_dropRecv m id)
  unfold Memory.dropAcceptUni
  rw [hfold]

theorem Acts.dropSession (m : Memory)
    (hu : ∀ id ∈ m.accept.uni, p.put 0 (.stopSending id 0))
    (hb : ∀ q ∈ m.accept.bi, p.release q.1 ∧ p.put 0 (.resetStream q.2 0) ∧
      p.put 0 (.stopSending q.2 0)) : Acts l p m (m.dropSession l) := by
  have hless : Acts l p m { m with sessionHandles := m.sessionHandles - 1 } :=
    .other rfl rfl rfl rfl
  unfold Memory.dropSession
  dsimp only
  split_ifs
  · refine hless.trans (.trans (.requestShutdown _) (.trans (.dropAcceptUni _ ?_)
      (.dropAcceptBi _ ?_)))
    · rw [accept_requestShutdown]
      exact hu
    · rw [bi_dropAcceptUni, accept_requestShutdown]
      exact hb
  · exact hless

/-! ## `handle_frame` -/

/-- The frame opens a stream. -/
def Opens (f : Frame) (id : StreamId) : Prop := f = .openUni id ∨ f = .openBi id

/-- The frames that `handle_frame` may send when it handles a frame. -/
inductive Reply (l : Limits) : Frame → Frame → Prop where
  /-- The first credit of an inbound stream. -/
  | credit {f : Frame} {id : StreamId} (ho : Opens f id) :
      Reply l f (.maxStreamData id l.initialStreamWindow)
  /-- An inbound stream that cannot be offered is dropped. -/
  | reset {f : Frame} {id : StreamId} (ho : Opens f id) : Reply l f (.resetStream id 0)
  | stop {f : Frame} {id : StreamId} (ho : Opens f id) : Reply l f (.stopSending id 0)
  /-- The answer to a `StopSending`. -/
  | echo (id : StreamId) (code : Nat) : Reply l (.stopSending id code) (.resetStream id code)
  | close {f : Frame} {code : Nat} {reason : String} (h : SmallClose code reason) :
      Reply l f (.connectionClose code reason)

section Handling

variable {f : Frame}

theorem Acts.refuse (m : Memory) {code : Nat} {reason : String}
    (hp : ∀ g, Reply l f g → p.put 0 g) (h : SmallClose code reason) :
    Acts l p m (m.protocolError l code reason).1 :=
  .protocolError m (hp _ (.close h))

theorem Acts.registerInbound (m : Memory) (hp : ∀ g, Reply l f g → p.put 0 g)
    (ho : Opens f id) : Acts l p m (m.registerInbound l id) :=
  .trans (.recv m rfl) (.trySendFrame _ (hp _ (.credit ho)))

theorem Acts.offerUni (m : Memory) (hp : ∀ g, Reply l f g → p.put 0 g) (ho : Opens f id)
    (hout : p.handOut id) : Acts l p m (m.offerUni l id).1 := by
  have hdrop : ∀ m, Acts l p m (m.dropRecv l id) := fun m => .dropRecv m (hp _ (.stop ho))
  unfold Memory.offerUni
  split_ifs
  · exact .trans (.refuse m hp (by decide)) (hdrop _)
  · exact .offer none hout
  · exact hdrop m

theorem Acts.offerBi (m : Memory) {h : Nat} (hp : ∀ g, Reply l f g → p.put 0 g)
    (ho : Opens f id) (hout : p.handOut id) (hr : p.release h) :
    Acts l p m (m.offerBi l id h).1 := by
  have hdrop : ∀ m, Acts l p m ((m.dropSend l h id).dropRecv l id) := by
    intro m
    exact .trans (.dropSend m hr (hp _ (.reset ho))) (.dropRecv _ (hp _ (.stop ho)))
  unfold Memory.offerBi
  split_ifs
  · exact .trans (.refuse m hp (by decide)) (hdrop _)
  · exact .offer (some h) hout
  · exact hdrop m

theorem smallClose_refusesOpen {dir : StreamDir} {s₁ s₂ s₃ reason : String} {code : Nat}
    (h₁ : SmallClose 1 s₁) (h₂ : SmallClose 1 s₂) (h₃ : SmallClose 1 s₃)
    (h : m.refusesOpen dir s₁ s₂ s₃ id = some (code, reason)) : SmallClose code reason := by
  unfold Memory.refusesOpen at h
  split_ifs at h <;> cases h <;> assumption

theorem Acts.acceptPeerId (m : Memory) (id : StreamId) : Acts l p m (m.acceptPeerId id) :=
  .other rfl rfl rfl rfl

theorem Acts.handleOpenUni (m : Memory) (hp : ∀ g, Reply l (.openUni id) g → p.put 0 g)
    (hout : p.handOut id) : Acts l p m (m.handleOpenUni l id).1 := by
  unfold Memory.handleOpenUni
  split
  · next heq =>
      exact .refuse m hp (smallClose_refusesOpen (by decide) (by decide) (by decide) heq)
  · dsimp only
    refine .trans (.acceptPeerId m id) ?_
    split
    · next heq => exact .refuse _ hp (Native.RecvTable.small_refuses heq)
    · exact .trans (.registerInbound _ hp (.inl rfl)) (.offerUni _ hp (.inl rfl) hout)

theorem Acts.handleOpenBi (m : Memory) (hp : ∀ g, Reply l (.openBi id) g → p.put 0 g)
    (hout : p.handOut id) (hr : p.release m.handles.length) :
    Acts l p m (m.handleOpenBi l id).1 := by
  have ho : Opens (.openBi id) id := .inr rfl
  unfold Memory.handleOpenBi
  split
  · next heq =>
      exact .refuse m hp (smallClose_refusesOpen (by decide) (by decide) (by decide) heq)
  · dsimp only
    refine .trans (.acceptPeerId m id) ?_
    split
    · next heq => exact .refuse _ hp (Native.RecvTable.small_refuses heq)
    · refine .trans (.registerInbound _ hp ho) ?_
      have hflow : Acts l p ((m.acceptPeerId id).registerInbound l id)
          (((m.acceptPeerId id).registerInbound l id).registerSendFlow l id).1 :=
        .registerSendFlow _ id
      have hlen : (((m.acceptPeerId id).registerInbound l id).registerSendFlow l id).1.handles =
          m.handles := by
        unfold Memory.registerSendFlow
        split <;> rfl
      split
      · next m₁ e heq =>
          rw [heq] at hflow
          have hsmall : SmallClose 3 e.toText := by
            unfold Memory.registerSendFlow at heq
            split at heq
            · next hreason =>
                cases heq
                exact Native.SendTable.small_refuses hreason
            · cases heq
          exact hflow.trans (.trans (.refuse _ hp hsmall) (.dropRecv _ (hp _ (.stop ho))))
      · next m₁ heq =>
          rw [heq] at hflow hlen
          have hnew : (m₁.newSend id false).2 = m.handles.length := congrArg List.length hlen
          refine hflow.trans (.trans (.newSend false hout) (.offerBi _ hp ho hout ?_))
          rw [hnew]
          exact hr

theorem Acts.handleStream (m : Memory) {data : List UInt8} {fin : Bool}
    (hp : ∀ g, Reply l f g → p.put 0 g) : Acts l p m (m.handleStream l id data fin).1 := by
  unfold Memory.handleStream
  split
  · exact .refuse m hp (by decide)
  · split
    · next heq => exact .refuse m hp (Native.RecvTable.small_refusesData heq)
    · -- the bytes are counted, and the event is delivered unless the stream is stopped
      have hcount : Acts l p m { m with
          recvs := (m.recvs.apply (.receive id data.length)).apply (.dropTx id) } :=
        .ofRecvs (.trans (.apply _ rfl) (.apply _ rfl))
      have hdeliver : Acts l p m ({ m with
          recvs := (m.recvs.apply (.receive id data.length)).apply (.dropTx id) }.deliver l id data
            fin).1 := by
        rcases deliver_cases (l := l) { m with
          recvs := (m.recvs.apply (.receive id data.length)).apply (.dropTx id) } id data fin
          with h | h
        · rw [h]
          exact hcount
        · rw [h]
          exact hcount.trans (.recv _ rfl)
      split
      next m₁ full heq =>
      rw [heq] at hdeliver
      have hfin : Acts l p m (if fin = true then m₁.removeRecvStream id else m₁) := by
        split_ifs
        · exact hdeliver.trans (.removeRecvStream _ _)
        · exact hdeliver
      dsimp only
      cases full with
      | true => exact hfin.trans (.refuse _ hp (by decide))
      | false => exact hfin

theorem Acts.handleReset (m : Memory) (hp : ∀ g, Reply l f g → p.put 0 g) :
    Acts l p m (m.handleReset l id).1 := by
  unfold Memory.handleReset
  split_ifs
  · exact .removeRecvStream m id
  · exact .refl m
  · exact .refuse m hp (by decide)

theorem Acts.handleStop (m : Memory) {code : Nat}
    (hp : ∀ g, Reply l (.stopSending id code) g → p.put 0 g) :
    Acts l p m (m.handleStop l id code).1 := by
  have h : Acts l p m (m.removeSendFlow id).1 := .removeSendFlow m id
  unfold Memory.handleStop
  split
  · next m₁ heq =>
      rw [heq] at h
      have hs : Acts l p m₁ (m₁.sendFrame l (.resetStream id code)).1 :=
        .trySendFrame m₁ (hp _ (.echo id code))
      split
      · next heq =>
          rw [heq] at hs
          exact h.trans hs
      · next heq =>
          rw [heq] at hs
          exact h.trans hs
  · next heq =>
      rw [heq] at h
      split_ifs
      · exact h
      · exact h.trans (.refuse _ hp (by decide))

theorem Acts.handleFrame (m : Memory) (hp : ∀ g, Reply l f g → p.put 0 g)
    (hout : ∀ id, Opens f id → p.handOut id) (hr : p.release m.handles.length) :
    Acts l p m (m.handleFrame l f).1 := by
  cases f with
  | openUni id => exact .handleOpenUni m hp (hout id (.inl rfl))
  | openBi id => exact .handleOpenBi m hp (hout id (.inr rfl)) hr
  | stream id data fin => exact .handleStream m hp
  | resetStream id code => exact .handleReset m hp
  | stopSending id code => exact .handleStop m hp
  | maxStreamData id max => exact .ofSends m _
  | connectionClose code reason => exact .closeAll m

end Handling

/-! ## Every step -/

/-- **The frames that a step may put into the channel**, and the sender that it puts them in
through: the session's own sender is number 0. -/
inductive Puts (l : Limits) (s : Session) : Label → Nat → Frame → Prop where
  | openUni {id : StreamId} (h : (s.mem.nextStreamId .uni).2 = .ok id) :
      Puts l s .openUni 0 (.openUni id)
  | openBi {id : StreamId} (h : (s.mem.nextStreamId .bi).2 = .ok id) :
      Puts l s .openBi 0 (.openBi id)
  | openCredit {id : StreamId} (h : (s.mem.nextStreamId .bi).2 = .ok id) :
      Puts l s .openBi 0 (.maxStreamData id l.initialStreamWindow)
  | openStop {id : StreamId} (h : (s.mem.nextStreamId .bi).2 = .ok id) :
      Puts l s .openBi 0 (.stopSending id 0)
  | sessionUni {id : StreamId} (h : id ∈ s.mem.accept.uni) :
      Puts l s .dropSession 0 (.stopSending id 0)
  | sessionReset {q : Nat × StreamId} (h : q ∈ s.mem.accept.bi) :
      Puts l s .dropSession 0 (.resetStream q.2 0)
  | sessionStop {q : Nat × StreamId} (h : q ∈ s.mem.accept.bi) :
      Puts l s .dropSession 0 (.stopSending q.2 0)
  | chunk {i grant : Nat} {w : Write} (hw : s.writes[i]? = some (some w))
      (hg : w.grant = some grant) :
      Puts l s (.pollWriteBuf i) w.outbound (.stream w.id (w.data.take grant) false)
  | finish {h : Nat} {x : SendStream} (hx : s.held h = some x) :
      Puts l s (.finish h) 0 (.stream x.id [] true)
  | reset {h code : Nat} {x : SendStream} (hx : s.held h = some x) (hc : code ≤ VarInt.max) :
      Puts l s (.reset h code) 0 (.resetStream x.id code)
  | write {h n : Nat} {x : SendStream} {buf : List UInt8} (hx : s.held h = some x)
      (hn : n ≤ maxWriteChunk) :
      Puts l s (.pollWrite h buf) x.outbound (.stream x.id (buf.take n) false)
  | pollClose {h : Nat} {x : SendStream} (hx : s.held h = some x) :
      Puts l s (.pollClose h) x.outbound (.stream x.id [] true)
  | dropSend {h : Nat} {x : SendStream} (hx : s.held h = some x) :
      Puts l s (.dropSend h) 0 (.resetStream x.id 0)
  | stop {id : StreamId} {code : Nat} (hh : (s.mem.recvs.cell id).reader.held = true)
      (hc : code ≤ VarInt.max) : Puts l s (.stop id code) 0 (.stopSending id code)
  | dropRecv {id : StreamId} (hh : (s.mem.recvs.cell id).reader.held = true) :
      Puts l s (.dropRecv id) 0 (.stopSending id 0)
  | refuse {label : Label} {code : Nat} {reason : String} (h : SmallClose code reason) :
      Puts l s label 0 (.connectionClose code reason)
  | reply {cursor rest : List UInt8} {f g : Frame} (hp : s.phase = .decoding cursor)
      (hd : Frame.decode 32 cursor = .ok (f, rest)) (hr : Reply l f g) : Puts l s .frame 0 g

/-- The streams that a step may hand out. -/
inductive HandsOut (s : Session) : Label → StreamId → Prop where
  | openUni {id : StreamId} (h : (s.mem.nextStreamId .uni).2 = .ok id) : HandsOut s .openUni id
  | openBi {id : StreamId} (h : (s.mem.nextStreamId .bi).2 = .ok id) : HandsOut s .openBi id
  | acceptUni {id : StreamId} (h : id ∈ s.mem.accept.uni) : HandsOut s .acceptUni id
  | acceptBi {q : Nat × StreamId} (h : q ∈ s.mem.accept.bi) : HandsOut s .acceptBi q.2
  | clone {h : Nat} {x : SendStream} (hx : s.held h = some x) : HandsOut s (.cloneSend h) x.id
  | frame {cursor rest : List UInt8} {f : Frame} {id : StreamId} (hp : s.phase = .decoding cursor)
      (hd : Frame.decode 32 cursor = .ok (f, rest)) (ho : Opens f id) : HandsOut s .frame id

/-- The `SendStream`s that a step may drop: one that the application drops, those that wait in the
queue of `accept_bi`, and one that was just made and cannot be offered. -/
def Session.releases (s : Session) : Label → List Nat
  | .dropSend h => [h]
  | .dropSession => s.mem.accept.bi.map Prod.fst
  | .frame => [s.mem.handles.length]
  | _ => []

/-- What a step may do. -/
def Session.may (l : Limits) (s : Session) (label : Label) : May where
  put := Puts l s label
  handOut := HandsOut s label
  release h := h ∈ s.releases label
  credit id n := (s.mem.recvs.cell id).reader.held = true ∧ n ≤ VarInt.max

variable {s s' : Session} {label : Label}

theorem mem_of_held {h : Nat} {x : SendStream} (hx : s.held h = some x) :
    x ∈ s.mem.handles ∧ x.live = true := by
  unfold Session.held at hx
  split at hx
  · next heq =>
      split_ifs at hx with hlive
      cases hx
      exact ⟨List.mem_of_getElem? heq, (Bool.and_eq_true_iff.1 hlive).1⟩
  · cases hx

theorem held_of_onSend {h : Nat} {k : SendStream → Session} (hs : s.onSend h k = some s') :
    ∃ x, s.held h = some x ∧ k x = s' :=
  Option.map_eq_some_iff.1 hs

theorem held_of_onSendMut {h : Nat} {k : SendStream → Session} (hs : s.onSendMut h k = some s') :
    ∃ x, s.held h = some x ∧ k x = s' := by
  unfold Session.onSendMut at hs
  split_ifs at hs
  exact held_of_onSend hs

theorem held_of_onRecv {o : Option Session} (hs : s.onRecv id o = some s') :
    (s.mem.recvs.cell id).reader.held = true ∧ o = some s' := by
  unfold Session.onRecv at hs
  split_ifs at hs with hh
  exact ⟨hh, hs⟩

theorem Acts.handled {rest : List UInt8} {r : Memory × Except Error Unit}
    (h : Acts l p s.mem r.1) : Acts l p s.mem (s.handled rest r).mem := by
  obtain ⟨m, r⟩ := r
  cases r with
  | ok u => exact h
  | error e => exact h

/-- A step of the session task that takes something from the channel. -/
def Label.takes : Label → Bool
  | .out _ | .connClosed => true
  | _ => false

/-- **What a step does to the channel and to the streams**, unless it takes from the channel. -/
theorem Session.acts_of_step (ht : label.takes = false) (h : s.step l label = some s') :
    Acts l (s.may l label) s.mem s'.mem := by
  cases label with
  | openUni =>
      cases exists_onSession h
      exact .openUni _ fun id hid => ⟨.openUni hid, .openUni hid⟩
  | openBi =>
      cases exists_onSession h
      exact .openBi _ fun id hid => ⟨.openBi hid, .openCredit hid, .openStop hid, .openBi hid⟩
  | acceptUni =>
      obtain ⟨r, hr, rfl⟩ := Option.map_eq_some_iff.1 (exists_onSession h)
      exact .acceptUni (fun id hid => .acceptUni hid) hr
  | acceptBi =>
      obtain ⟨r, hr, rfl⟩ := Option.map_eq_some_iff.1 (exists_onSession h)
      exact .acceptBi (fun q hq => .acceptBi hq) hr
  | shutdown =>
      cases exists_onSession h
      exact .requestShutdown _
  | cloneSession =>
      cases exists_onSession h
      exact .other rfl rfl rfl rfl
  | dropSession =>
      cases exists_onSession h
      exact .dropSession _ (fun id hid => .sessionUni hid)
        fun q hq => ⟨List.mem_map_of_mem hq, .sessionReset hq, .sessionStop hq⟩
  | write i data =>
      obtain ⟨x, -, rfl⟩ := held_of_onSend h
      have hw : Acts l (s.may l (.write i data)) s.mem (s.mem.writeBuf i x.id data).1 :=
        .writeBuf _ _ _ _
      split
      · next heq => rwa [heq] at hw
      · next heq => rwa [heq] at hw
  | pollWriteBuf i =>
      simp only [Session.step] at h
      split at h
      · next w hi =>
          cases h
          have hw : Acts l (s.may l (.pollWriteBuf i)) s.mem (s.mem.pollWriteBuf l w).1 :=
            .pollWriteBuf _ fun grant hg => .chunk hi hg
          unfold Session.pollWriteBuf
          split
          all_goals
            next heq => rwa [heq] at hw
      · cases h
  | cancelWriteBuf i =>
      simp only [Session.step] at h
      split at h
      · cases h
        exact .cancelWriteBuf _ _
      · cases h
  | finish i =>
      obtain ⟨x, hx, rfl⟩ := held_of_onSend h
      exact .finish _ (.finish hx)
  | reset i code =>
      obtain ⟨x, hx, rfl⟩ := held_of_onSend h
      exact .reset _ fun hc => .reset hx hc
  | pollWrite i buf =>
      obtain ⟨x, hx, rfl⟩ := held_of_onSendMut h
      exact .pollWrite _ fun n hn => .write hx hn
  | pollFlush i =>
      obtain ⟨x, hx, rfl⟩ := held_of_onSendMut h
      exact .pollFlush _ _ _
  | pollClose i =>
      obtain ⟨x, hx, rfl⟩ := held_of_onSendMut h
      exact .pollClose _ i (.pollClose hx)
  | cloneSend i =>
      obtain ⟨x, hx, rfl⟩ := held_of_onSend h
      exact .newSend (m := s.mem) true (.clone hx)
  | dropSend i =>
      obtain ⟨x, hx, rfl⟩ := held_of_onSendMut h
      exact .dropSend _ (List.mem_singleton_self _) (.dropSend hx)
  | read id api n =>
      obtain ⟨hh, h⟩ := held_of_onRecv h
      obtain ⟨m, hm, rfl⟩ := Option.map_eq_some_iff.1 h
      exact .read (fun t ht => ⟨hh, ht⟩) hm
  | stop id code =>
      obtain ⟨hh, h⟩ := held_of_onRecv h
      cases h
      exact .stop _ fun hc => .stop hh hc
  | dropRecv id =>
      obtain ⟨hh, h⟩ := held_of_onRecv h
      cases h
      exact .dropRecv _ (.dropRecv hh)
  | receive msg =>
      simp only [Session.step] at h
      split at h
      · cases h
        unfold Session.receive
        split
        · split_ifs
          · exact .handled (.protocolError _ (.refuse (by decide)))
          · exact .refl _
        · exact .handled (.protocolError _ (.refuse (by decide)))
      · cases h
  | receiveErr =>
      simp only [Session.step] at h
      split at h
      · cases h
        exact .refl _
      · cases h
  | frame =>
      simp only [Session.step] at h
      split at h
      · next cursor hp =>
          cases h
          unfold Session.frame
          split
          · exact .refl _
          · split
            · next f rest hf =>
                exact .handled (.handleFrame _ (fun g hg => .reply hp hf hg)
                  (fun id ho => .frame hp hf ho) (List.mem_singleton_self _))
            · exact .handled (.protocolError _ (.refuse (by decide)))
      · cases h
  | out credit => cases ht
  | sent ok =>
      simp only [Session.step] at h
      split at h
      · split_ifs at h
        · cases h
          exact .refl _
        · cases h
          exact .refl _
      · cases h
  | connClosed => cases ht

end WebsockMux.Wasm
