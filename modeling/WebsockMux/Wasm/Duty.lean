import WebsockMux.Wasm.Calm

/-!
# Terminal frames of a browser session

What a browser session owes to the peer when handles go away: a FIN or a `ResetStream` when the last
`SendStream` of a direction is dropped, a `StopSending` when a receive stream is stopped or dropped
before its end; or a request for shutdown. The invariants are `SendDuty` and `RecvDuty`. They are
kept by every function but `finish`, `reset` and `stop`: these set `finished` or `stop_sent` before
they try to send, and give up when the outbound channel has no slot.
-/

set_option autoImplicit false

namespace WebsockMux.Wasm

open WebsockMux.Lib WebsockMux.Proto
open WebsockMux.Native (Limits RecvTable RecvCell SendTable Accept)

variable {l : Limits} {m m' : Memory} {id : StreamId} {b : Bool}

/-! ## Definitions -/

/-- A FIN or a `ResetStream` of the stream. -/
def ends (id : StreamId) : Frame → Bool
  | .stream i _ fin => fin && decide (i = id)
  | .resetStream i _ => decide (i = id)
  | _ => false

/-- A `StopSending` of the stream. -/
def stops (id : StreamId) : Frame → Bool
  | .stopSending i _ => decide (i = id)
  | _ => false

/-- Shutdown was requested, or a frame of the kind was put into the outbound channel. -/
def Announced (m : Memory) (kind : Frame → Bool) : Prop :=
  m.shutdownStarted = true ∨ ∃ f ∈ m.chan.admitted, kind f = true

instance (m : Memory) (kind : Frame → Bool) : Decidable (Announced m kind) :=
  inferInstanceAs (Decidable (_ ∨ _))

/-- The duties of the send directions: a finished direction was announced, and so was one whose
handles are all dropped. -/
structure SendDuty (m : Memory) : Prop where
  finished : ∀ id, (m.sends.cell id).finished = true → Announced m (ends id)
  live : ∀ x ∈ m.handles, Announced m (ends x.id) ∨ ∃ y ∈ m.handles, y.live = true ∧ y.id = x.id
  offered : ∀ p ∈ m.accept.bi, ∃ x, m.handles[p.1]? = some x ∧ x.id = p.2

/-- The duties of the receive directions: a stopped direction was announced, and a direction in the
table has not ended. -/
structure RecvDuty (m : Memory) : Prop where
  stopped : ∀ id, (m.recvs.cell id).stopped = true → Announced m (stops id)
  stopSent : ∀ id ∈ m.recvs.streams, (m.recvs.cell id).reader.stopSent = true →
    (m.recvs.cell id).stopped = true
  running : ∀ id ∈ m.recvs.streams, ¬ Ended (m.recvs.cell id)

/-! ## Calm changes -/

theorem Announced.keeps {kind : Frame → Bool} (h : Announced m kind) (hk : Keeps b m m') :
    Announced m' kind := by
  rcases h with h | ⟨f, hf, hkind⟩
  · exact .inl (hk.shutdown h)
  · exact .inr ⟨f, hk.admitted.subset hf, hkind⟩

/-- **What `try_send_frame` does**: it finds a slot, or changes nothing. -/
theorem trySendFrame_cases (l : Limits) (m : Memory) (f : Frame) :
    (m.chan.canSend 0 = true ∧
      m.trySendFrame l f = ({ m with chan := m.chan.push l.outboundQueueLen 0 f }, true)) ∨
    (m.chan.canSend 0 = false ∧ m.trySendFrame l f = (m, false)) := by
  unfold Memory.trySendFrame
  rcases ParkingChannel.trySend_cases l.outboundQueueLen m.chan 0 f with ⟨hc, h⟩ | ⟨hc, h, hne⟩
  · refine .inl ⟨hc, ?_⟩
    rw [h]
    rfl
  · refine .inr ⟨hc, ?_⟩
    rw [h, decide_eq_false hne]

theorem announced_push {kind : Frame → Bool} {i : Nat} {f : Frame} (hkind : kind f = true) :
    Announced { m with chan := m.chan.push l.outboundQueueLen i f } kind := by
  refine .inr ⟨f, ?_, hkind⟩
  rw [ParkingChannel.admitted_push]
  exact List.mem_append_right _ (List.mem_singleton_self f)

theorem announced_requestShutdown (m : Memory) (kind : Frame → Bool) :
    Announced m.requestShutdown kind := by
  unfold Memory.requestShutdown
  split_ifs with h
  · exact .inl h
  · exact .inl rfl

/-- What the keys of the handles say. -/
theorem exists_handle_of_key {p : StreamId × Bool} :
    p ∈ m.handles.map handleKey ↔ ∃ x ∈ m.handles, x.id = p.1 ∧ x.live = p.2 := by
  rw [List.mem_map]
  constructor
  · rintro ⟨x, hx, rfl⟩
    exact ⟨x, hx, rfl, rfl⟩
  · rintro ⟨x, hx, hid, hlive⟩
    exact ⟨x, hx, by rw [handleKey, hid, hlive]⟩

theorem SendDuty.calm (hd : SendDuty m) (h : Calm b m m') : SendDuty m' where
  finished id hf := (hd.finished id (h.finished id hf)).keeps h.toKeeps
  live x hx := by
    have hkey : handleKey x ∈ m.handles.map handleKey := by
      rw [← h.handles]
      exact List.mem_map_of_mem hx
    obtain ⟨x', hx', hid, -⟩ := exists_handle_of_key.1 hkey
    rw [show x.id = x'.id from hid.symm]
    rcases hd.live x' hx' with hdone | ⟨y, hy, hlive, hyid⟩
    · exact .inl (hdone.keeps h.toKeeps)
    · have hkey : (y.id, true) ∈ m'.handles.map handleKey := by
        rw [h.handles]
        exact exists_handle_of_key.2 ⟨y, hy, rfl, hlive⟩
      obtain ⟨y', hy', hid', hlive'⟩ := exists_handle_of_key.1 hkey
      exact .inr ⟨y', hy', hlive', hid'.trans hyid⟩
  offered p hp := by
    obtain ⟨x, hx, hid⟩ := hd.offered p (h.offered hp)
    have hkey : (m'.handles.map handleKey)[p.1]? = some (handleKey x) := by
      rw [h.handles, List.getElem?_map, hx]
      rfl
    rw [List.getElem?_map, Option.map_eq_some_iff] at hkey
    obtain ⟨x', hx', hkey⟩ := hkey
    exact ⟨x', hx', (congrArg Prod.fst hkey).trans hid⟩

theorem RecvDuty.keeps (hd : RecvDuty m) (hk : Keeps b m m') (h : RecvCalm m.recvs m'.recvs) :
    RecvDuty m' where
  stopped id hs := by
    have hflag : (m'.recvs.cell id).stopped = (m.recvs.cell id).stopped :=
      congrArg Prod.fst (h.flags id)
    exact (hd.stopped id (hflag ▸ hs)).keeps hk
  stopSent id hid hs := by
    have hstopped : (m'.recvs.cell id).stopped = (m.recvs.cell id).stopped :=
      congrArg Prod.fst (h.flags id)
    have hsent : (m'.recvs.cell id).reader.stopSent = (m.recvs.cell id).reader.stopSent :=
      congrArg Prod.snd (h.flags id)
    rw [hstopped]
    exact hd.stopSent id (h.streams hid) (hsent ▸ hs)
  running id hid he := hd.running id (h.streams hid) (h.ended id hid he)

theorem RecvDuty.calm (hd : RecvDuty m) (h : Calm b m m') : RecvDuty m' :=
  hd.keeps h.toKeeps h.recvs

/-- A change that keeps both duties. -/
structure Safe (task : Bool) (m m' : Memory) : Prop extends Keeps task m m' where
  sends : SendDuty m → SendDuty m'
  recvs : RecvDuty m → RecvDuty m'

theorem Calm.safe (h : Calm b m m') : Safe b m m' :=
  ⟨h.toKeeps, fun hd => hd.calm h, fun hd => hd.calm h⟩

theorem Safe.trans {m'' : Memory} (h : Safe b m m') (h' : Safe b m' m'') : Safe b m m'' :=
  ⟨h.toKeeps.trans h'.toKeeps, fun hd => h'.sends (h.sends hd), fun hd => h'.recvs (h.recvs hd)⟩

theorem Keeps.ofSends {s : SendTable} : Keeps b m { m with sends := s } :=
  { Keeps.refl b m with taskFinished := rfl }

theorem Keeps.ofHandles {hs : List SendStream} : Keeps b m { m with handles := hs } :=
  { Keeps.refl b m with taskFinished := rfl }

/-! ## Send streams -/

/-- The flag `finished` may be set once the end is announced. -/
theorem SendDuty.finish (hd : SendDuty m) (h : Announced m (ends id)) :
    SendDuty { m with sends := m.sends.apply (.finish id) } where
  finished i hf := by
    by_cases hi : i = id
    · rw [hi]
      exact h
    · simp only [SendTable.apply, SendTable.modify, Function.update_apply, if_neg hi] at hf
      exact hd.finished i hf
  live := hd.live
  offered := hd.offered

/-- A new handle. -/
theorem SendDuty.newHandle (hd : SendDuty m) (x : SendStream) (hx : x.live = true) :
    SendDuty { m with handles := m.handles ++ [x] } where
  finished := hd.finished
  live y hy := by
    rcases List.mem_append.1 hy with hy | hy
    · rcases hd.live y hy with h | ⟨z, hz, h⟩
      · exact .inl h
      · exact .inr ⟨z, List.mem_append_left _ hz, h⟩
    · cases List.mem_singleton.1 hy
      exact .inr ⟨x, List.mem_append_right _ hy, hx, rfl⟩
  offered p hp := by
    obtain ⟨y, hy, hid⟩ := hd.offered p hp
    obtain ⟨hlt, -⟩ := List.getElem?_eq_some_iff.1 hy
    exact ⟨y, by rw [List.getElem?_append_left hlt, hy], hid⟩

/-- A change of one item of a list changes a count by at most one. -/
theorem countP_le_modify {α : Type} (p : α → Bool) (g : α → α) (xs : List α) (i : Nat) :
    xs.countP p ≤ (xs.modify i g).countP p + 1 := by
  induction xs generalizing i with
  | nil => simp
  | cons x xs ih =>
      cases i with
      | zero =>
          rw [List.modify_zero_cons, List.countP_cons, List.countP_cons]
          split_ifs <;> omega
      | succ i =>
          have := ih i
          rw [List.modify_succ_cons, List.countP_cons, List.countP_cons]
          omega

/-- A handle that is not the last one may be released, or any one when the end is announced. -/
theorem SendDuty.releaseSend {h : Nat} (hd : SendDuty m)
    (hh : ∀ x, m.handles[h]? = some x → x.id = id)
    (hlast : Announced m (ends id) ∨ m.strongCount id ≠ 1) : SendDuty (m.releaseSend h) where
  finished := hd.finished
  live x hx := by
    obtain ⟨j, hj⟩ := List.getElem?_of_mem hx
    simp only [Memory.releaseSend, List.getElem?_modify, Option.map_eq_map,
      Option.map_eq_some_iff] at hj
    obtain ⟨x', hx', rfl⟩ := hj
    have hid : (if h = j then { x' with live := false, held := false } else x').id = x'.id := by
      split_ifs <;> rfl
    rw [hid]
    rcases hd.live x' (List.mem_of_getElem? hx') with hdone | ⟨y, hy, hlive, hyid⟩
    · exact .inl hdone
    by_cases hx : x'.id = id
    · -- the handle is one of several
      rcases hlast with hdone | hcount
      · exact .inl (hx ▸ hdone)
      have hpos : 0 < m.strongCount id := by
        refine List.countP_pos_iff.2 ⟨y, hy, ?_⟩
        simp [hlive, hyid, hx]
      have hle := countP_le_modify (fun x => x.live && decide (x.id = id))
        (fun x => { x with live := false, held := false }) m.handles h
      have hpos' : 0 < (m.releaseSend h).strongCount id := by
        unfold Memory.strongCount at hcount hpos ⊢
        simp only [Memory.releaseSend]
        omega
      obtain ⟨z, hz, hkey⟩ := List.countP_pos_iff.1 hpos'
      simp only [Bool.and_eq_true, decide_eq_true_eq] at hkey
      exact .inr ⟨z, hz, hkey.1, hkey.2.trans hx.symm⟩
    · -- the handle belongs to another stream
      obtain ⟨k, hk⟩ := List.getElem?_of_mem hy
      have hne : h ≠ k := by
        rintro rfl
        exact hx (hyid ▸ hh y hk)
      refine .inr ⟨y, List.mem_of_getElem? (i := k) ?_, hlive, hyid⟩
      simp [Memory.releaseSend, hk, hne]
  offered p hp := by
    obtain ⟨x, hx, hid⟩ := hd.offered p hp
    refine ⟨if h = p.1 then { x with live := false, held := false } else x, ?_, ?_⟩
    · simp [Memory.releaseSend, List.getElem?_modify, hx]
    · split_ifs <;> exact hid

theorem handles_requestShutdown (m : Memory) : m.requestShutdown.handles = m.handles := by
  unfold Memory.requestShutdown
  split_ifs <;> rfl

/-- **What the drop of a handle does**: a calm change, after which the handle may be released. -/
theorem exists_dropSend (l : Limits) (m : Memory) (h : Nat) (id : StreamId) :
    ∃ m₁, (∀ b, Calm b m m₁) ∧ m₁.handles = m.handles ∧ m.dropSend l h id = m₁.releaseSend h ∧
      (SendDuty m → Announced m₁ (ends id) ∨ m₁.strongCount id ≠ 1) := by
  unfold Memory.dropSend
  split
  · next hcount => exact ⟨m, fun b => .refl b m, rfl, rfl, fun _ => .inr hcount⟩
  · have hrm : ∀ b, Calm b m (m.removeSendFlow id).1 := fun b => .removeSendFlow m id
    dsimp only
    split
    · next hfin =>
        refine ⟨_, hrm, rfl, rfl, fun hd => .inl ?_⟩
        exact (hd.calm (hrm true)).finished id hfin
    · rcases trySendFrame_cases l (m.removeSendFlow id).1 (.resetStream id 0) with
        ⟨-, heq⟩ | ⟨-, heq⟩
      · have hsend : ∀ b, Calm b (m.removeSendFlow id).1
            ((m.removeSendFlow id).1.trySendFrame l (.resetStream id 0)).1 :=
          fun b => .trySendFrame _ _
        rw [heq] at hsend ⊢
        refine ⟨_, fun b => (hrm b).trans (hsend b), rfl, rfl, fun _ => .inl (announced_push ?_)⟩
        simp [ends]
      · rw [heq]
        refine ⟨_, fun b => (hrm b).trans (.requestShutdown _), ?_, rfl, fun _ => .inl ?_⟩
        · rw [handles_requestShutdown]
          rfl
        · exact announced_requestShutdown _ _

theorem Keeps.dropSend (m : Memory) (h : Nat) (id : StreamId) : Keeps b m (m.dropSend l h id) := by
  obtain ⟨m₁, hc, -, heq, -⟩ := exists_dropSend l m h id
  rw [heq]
  exact (hc b).toKeeps.trans .ofHandles

theorem SendDuty.dropSend {h : Nat} (hd : SendDuty m)
    (hh : ∀ x, m.handles[h]? = some x → x.id = id) : SendDuty (m.dropSend l h id) := by
  obtain ⟨m₁, hc, hhs, heq, hlast⟩ := exists_dropSend l m h id
  rw [heq]
  refine (hd.calm (hc true)).releaseSend ?_ (hlast hd)
  rw [hhs]
  exact hh

theorem RecvDuty.dropSend {h : Nat} (hd : RecvDuty m) : RecvDuty (m.dropSend l h id) := by
  obtain ⟨m₁, hc, -, heq, -⟩ := exists_dropSend l m h id
  rw [heq]
  exact (hd.calm (hc true)).keeps (b := true) .ofHandles (.refl _)

theorem Safe.dropSend {h : Nat} (hh : ∀ x, m.handles[h]? = some x → x.id = id) :
    Safe b m (m.dropSend l h id) :=
  ⟨.dropSend m h id, fun hd => hd.dropSend hh, fun hd => hd.dropSend⟩

/-! ### `finish`, `reset` and `poll_close` -/

/-- Where `finish`, `reset` and `stop` do not fail: the session's sender has a slot, or shutdown was
requested. -/
def hasSlot (m : Memory) : Bool := m.shutdownStarted || m.chan.canSend 0

/-- Sending does not read the send flows. -/
theorem sendFrame_sends (l : Limits) (m : Memory) (s : SendTable) (f : Frame) :
    { m with sends := s }.sendFrame l f =
      ({ (m.trySendFrame l f).1 with sends := s }, (m.trySendFrame l f).2) := rfl

theorem announced_trySendFrame {kind : Frame → Bool} {f : Frame} (hkind : kind f = true)
    (hslot : hasSlot m = true) : Announced (m.trySendFrame l f).1 kind := by
  rcases trySendFrame_cases l m f with ⟨-, h⟩ | ⟨hc, h⟩
  · rw [h]
    exact announced_push hkind
  · rw [h]
    simp only [hasSlot, hc, Bool.or_false] at hslot
    exact .inl hslot

theorem Keeps.finishBody (m : Memory) (id : StreamId) : Keeps b m (m.finishBody l id).1 := by
  have hsend : Keeps b m (m.trySendFrame l (.stream id [] true)).1 := (Calm.trySendFrame m _).toKeeps
  unfold Memory.finishBody
  split_ifs
  · exact .refl b m
  · exact .refl b m
  · rw [sendFrame_sends]
    have h := hsend.trans (.ofSends (s := m.sends.apply (.finish id)))
    split
    · next heq =>
        obtain ⟨rfl, -⟩ := Prod.mk.inj heq
        exact h.trans (Calm.removeSendFlow _ _).toKeeps
    · next heq =>
        obtain ⟨rfl, -⟩ := Prod.mk.inj heq
        exact h

theorem SendDuty.finishBody (hd : SendDuty m) (hslot : hasSlot m = true) :
    SendDuty (m.finishBody l id).1 := by
  have hsend : SendDuty (m.trySendFrame l (.stream id [] true)).1 :=
    hd.calm (Calm.trySendFrame (b := true) m _)
  have hdone : Announced (m.trySendFrame l (.stream id [] true)).1 (ends id) :=
    announced_trySendFrame (by simp [ends]) hslot
  have h := hsend.finish hdone
  unfold Memory.finishBody
  split_ifs
  · exact hd
  · exact hd
  · rw [sendFrame_sends]
    split
    · next heq =>
        obtain ⟨rfl, -⟩ := Prod.mk.inj heq
        exact h.calm (Calm.removeSendFlow (b := true) _ id)
    · next heq =>
        obtain ⟨rfl, -⟩ := Prod.mk.inj heq
        exact h

theorem Keeps.resetBody (m : Memory) (id : StreamId) (code : Nat) :
    Keeps b m (m.resetBody l id code).1 := by
  have hsend : Keeps b m (m.trySendFrame l (.resetStream id code)).1 :=
    (Calm.trySendFrame m _).toKeeps
  unfold Memory.resetBody Memory.removeSendFlow
  dsimp only
  split_ifs
  · exact .refl b m
  · rw [sendFrame_sends]
    have h := hsend.trans (.ofSends (s := (m.sends.apply (.finish id)).apply (.remove id)))
    split
    · next heq =>
        obtain ⟨rfl, -⟩ := Prod.mk.inj heq
        exact h
    · next heq =>
        obtain ⟨rfl, -⟩ := Prod.mk.inj heq
        exact h

theorem SendDuty.resetBody {code : Nat} (hd : SendDuty m) (hslot : hasSlot m = true) :
    SendDuty (m.resetBody l id code).1 := by
  have hsend : SendDuty (m.trySendFrame l (.resetStream id code)).1 :=
    hd.calm (Calm.trySendFrame (b := true) m _)
  have hdone : Announced (m.trySendFrame l (.resetStream id code)).1 (ends id) :=
    announced_trySendFrame (by simp [ends]) hslot
  have h := (hsend.finish hdone).calm (Calm.removeSendFlow (b := true) _ id)
  unfold Memory.resetBody Memory.removeSendFlow
  dsimp only
  split_ifs
  · exact hd
  · rw [sendFrame_sends]
    split
    · next heq =>
        obtain ⟨rfl, -⟩ := Prod.mk.inj heq
        exact h
    · next heq =>
        obtain ⟨rfl, -⟩ := Prod.mk.inj heq
        exact h

/-- Only the cell of the stream changes. -/
theorem beginOperation_eq (m : Memory) (id : StreamId) (mode : Nat) :
    (m.beginOperation id mode).1 = { m with sends := (m.beginOperation id mode).1.sends } := by
  unfold Memory.beginOperation Memory.selectApi
  split_ifs
  all_goals dsimp only
  all_goals split_ifs <;> rfl

theorem hasSlot_beginOperation (m : Memory) (id : StreamId) (mode : Nat) :
    hasSlot (m.beginOperation id mode).1 = hasSlot m := by
  rw [beginOperation_eq]
  rfl

theorem Keeps.finish (m : Memory) (id : StreamId) : Keeps b m (m.finish l id).1 := by
  have hb : Keeps b m (m.beginOperation id 1).1 := (Calm.beginOperation m id 1).toKeeps
  unfold Memory.finish
  split
  · next heq => rwa [heq] at hb
  · next heq =>
      rw [heq] at hb
      exact (hb.trans (.finishBody _ id)).trans (Calm.endOperation _ id).toKeeps

theorem SendDuty.finishCall (hd : SendDuty m) (hslot : hasSlot m = true) :
    SendDuty (m.finish l id).1 := by
  have hb : SendDuty (m.beginOperation id 1).1 := hd.calm (Calm.beginOperation (b := true) m id 1)
  rw [← hasSlot_beginOperation m id 1] at hslot
  unfold Memory.finish
  split
  · next heq => rwa [heq] at hb
  · next heq =>
      rw [heq] at hb hslot
      exact (hb.finishBody hslot).calm (Calm.endOperation (b := true) _ id)

theorem Keeps.reset (m : Memory) (id : StreamId) (code : Nat) : Keeps b m (m.reset l id code).1 := by
  have hb : Keeps b m (m.beginOperation id 0).1 := (Calm.beginOperation m id 0).toKeeps
  unfold Memory.reset
  split
  · next heq => rwa [heq] at hb
  · next heq =>
      rw [heq] at hb
      exact (hb.trans (.resetBody _ id code)).trans (Calm.endOperation _ id).toKeeps

theorem SendDuty.resetCall {code : Nat} (hd : SendDuty m) (hslot : hasSlot m = true) :
    SendDuty (m.reset l id code).1 := by
  have hb : SendDuty (m.beginOperation id 0).1 := hd.calm (Calm.beginOperation (b := true) m id 0)
  rw [← hasSlot_beginOperation m id 0] at hslot
  unfold Memory.reset
  split
  · next heq => rwa [heq] at hb
  · next heq =>
      rw [heq] at hb hslot
      exact (hb.resetBody hslot).calm (Calm.endOperation (b := true) _ id)

theorem recvs_beginOperation (m : Memory) (id : StreamId) (mode : Nat) :
    (m.beginOperation id mode).1.recvs = m.recvs := by
  rw [beginOperation_eq]

theorem recvs_finish (m : Memory) (id : StreamId) : (m.finish l id).1.recvs = m.recvs := by
  rw [← recvs_beginOperation m id 1]
  unfold Memory.finish Memory.finishBody
  split
  · next heq => rw [heq]
  · next heq =>
      rw [heq]
      split_ifs
      · rfl
      · rfl
      · rw [sendFrame_sends]
        split
        all_goals
          next heq =>
            obtain ⟨rfl, -⟩ := Prod.mk.inj heq
            rfl

theorem recvs_reset (m : Memory) (id : StreamId) (code : Nat) :
    (m.reset l id code).1.recvs = m.recvs := by
  rw [← recvs_beginOperation m id 0]
  unfold Memory.reset Memory.resetBody Memory.removeSendFlow
  split
  · next heq => rw [heq]
  · next heq =>
      rw [heq]
      dsimp only
      split_ifs
      · rfl
      · rw [sendFrame_sends]
        split
        all_goals
          next heq =>
            obtain ⟨rfl, -⟩ := Prod.mk.inj heq
            rfl

theorem Safe.finishCall (hslot : hasSlot m = true) : Safe b m (m.finish l id).1 where
  toKeeps := .finish m id
  sends hd := hd.finishCall hslot
  recvs hd := hd.keeps (Keeps.finish (b := b) m id) (.fields (by rw [recvs_finish]) (by rw [recvs_finish]))

theorem Safe.resetCall {code : Nat} (hslot : hasSlot m = true) : Safe b m (m.reset l id code).1 where
  toKeeps := .reset m id code
  sends hd := hd.resetCall hslot
  recvs hd := hd.keeps (Keeps.reset (b := b) m id code)
    (.fields (by rw [recvs_reset]) (by rw [recvs_reset]))

/-- The handle `h` was used for the FIN of `poll_close`. -/
theorem Calm.markClose (m : Memory) (h : Nat) :
    Calm b m { m with
      handles := m.handles.modify h fun x => { x with closeInFlight := true } } :=
  { Calm.refl b m with
    handles := by
      refine map_handleKey_modify (fun x => ?_) _ _
      rfl }

theorem Safe.finish {f : Frame} {tx : Nat} (hf : ends id f = true) (hc : m.chan.canSend tx = true) :
    Safe b m { (m.startSend l tx f).1 with
      sends := (m.startSend l tx f).1.sends.apply (.finish id) } := by
  have hs : Calm b m (m.startSend l tx f).1 := .startSend m tx f
  have hdone : Announced (m.startSend l tx f).1 (ends id) := by
    unfold Memory.startSend
    rw [ParkingChannel.trySend_of_canSend hc]
    exact announced_push hf
  refine hs.safe.trans ⟨.ofSends, fun hd => hd.finish hdone, fun hd => ?_⟩
  exact hd.keeps (b := b) .ofSends (.refl _)

/-- `poll_close` sets `finished` after it has sent the FIN. -/
theorem Safe.pollCloseBody (m : Memory) (h : Nat) (x : SendStream) :
    Safe b m (m.pollCloseBody l h x).1 := by
  unfold Memory.pollCloseBody
  dsimp only
  split
  · exact (Calm.refl b m).safe
  split
  · split
    · exact (Calm.refl b m).safe
    · exact (Calm.refl b m).safe
    · next hready =>
        have hc := ParkingChannel.canSend_of_pollReady hready
        have hs : Calm b m (m.startSend l x.outbound (.stream x.id [] true)).1 := .startSend m _ _
        have hends : ends x.id (.stream x.id [] true) = true := by simp [ends]
        have hfin : Safe b m _ := .finish (l := l) hends hc
        split
        · next heq =>
            rw [heq] at hs
            exact hs.safe
        · next heq =>
            rw [heq] at hfin
            exact (hfin.trans (Calm.markClose _ h).safe).trans (Calm.removeSendFlow _ x.id).safe
  · exact (Calm.refl b m).safe

theorem Safe.pollClose (m : Memory) (h : Nat) (x : SendStream) :
    Safe b m (m.pollClose l h x).1 := by
  have hs : Calm b m (m.selectApi x.id 2).1 := .selectApi m x.id 2
  unfold Memory.pollClose
  split
  · next heq =>
      rw [heq] at hs
      exact hs.safe
  · next heq =>
      rw [heq] at hs
      exact hs.safe.trans (.pollCloseBody _ h x)

theorem Safe.newHandle (x : SendStream) (hx : x.live = true) :
    Safe b m { m with handles := m.handles ++ [x] } where
  toKeeps := .ofHandles
  sends hd := hd.newHandle x hx
  recvs hd := hd.keeps (b := b) .ofHandles (.refl _)

theorem Safe.newSend (m : Memory) (id : StreamId) (held : Bool) :
    Safe b m (m.newSend id held).1 :=
  (Calm.clone m).safe.trans (.newHandle _ rfl)

theorem Safe.cloneSend (m : Memory) (x : SendStream) : Safe b m (m.cloneSend x) :=
  (Calm.clone m).safe.trans (.newHandle _ rfl)

/-! ## Receive streams -/

/-- A change of one cell. -/
theorem RecvDuty.modify {i : StreamId} {g : RecvCell → RecvCell} (hd : RecvDuty m)
    (hstopped : (g (m.recvs.cell i)).stopped = true → Announced m (stops i))
    (hsent : i ∈ m.recvs.streams → (g (m.recvs.cell i)).reader.stopSent = true →
      (g (m.recvs.cell i)).stopped = true)
    (hrun : i ∈ m.recvs.streams → ¬ Ended (g (m.recvs.cell i))) :
    RecvDuty { m with recvs := m.recvs.modify i g } := by
  have hcell : ∀ id, (m.recvs.modify i g).cell id =
      if id = i then g (m.recvs.cell i) else m.recvs.cell id := by
    intro id
    simp only [RecvTable.modify, Function.update_apply]
  refine ⟨fun id h => ?_, fun id hid h => ?_, fun id hid h => ?_⟩
  · rw [hcell] at h
    split_ifs at h with hi
    · rw [hi]
      exact hstopped h
    · exact hd.stopped id h
  · rw [hcell] at h ⊢
    split_ifs at h ⊢ with hi
    · exact hsent (hi ▸ hid) h
    · exact hd.stopSent id hid h
  · rw [hcell] at h
    split_ifs at h with hi
    · exact hrun (hi ▸ hid) h
    · exact hd.running id hid h

theorem Keeps.ofRecvs {r : RecvTable} (h : r.streams ⊆ m.recvs.streams) :
    Keeps b m { m with recvs := r } :=
  { Keeps.refl b m with
    closed := .inl
    streams := h }

/-- A change of one cell of the receive directions changes nothing else. -/
theorem SendDuty.ofRecvs {r : RecvTable} (hd : SendDuty m) : SendDuty { m with recvs := r } :=
  ⟨hd.finished, hd.live, hd.offered⟩

/-- The state of `stop` and of the drop between their two accesses to the table and the send. -/
def Memory.stopping (m : Memory) (id : StreamId) : Memory :=
  { m with recvs := (m.recvs.apply (.swapStop id)).apply (.stop id) }

theorem RecvDuty.stopping (hd : RecvDuty m) (h : Announced m (stops id)) :
    RecvDuty (m.stopping id) := by
  have hcell := RecvDuty.modify (i := id) (g := fun c =>
      { c with stopped := true, reader := { c.reader with stopSent := true } }) hd
    (fun _ => h) (fun _ _ => rfl) (fun hid he => hd.running id hid he)
  refine RecvDuty.keeps (b := true) hcell ?_ (.fields (fun _ h => h) ?_)
  · exact .ofRecvs fun _ h => h
  · simp [Memory.stopping, RecvTable.apply, RecvTable.stopRecvStream, RecvTable.modify]

/-- Sending does not read the receive directions. -/
theorem trySendFrame_stopping (l : Limits) (m : Memory) (id : StreamId) (f : Frame) :
    (m.stopping id).trySendFrame l f =
      ((m.trySendFrame l f).1.stopping id, (m.trySendFrame l f).2) := rfl

theorem Keeps.stopping (m : Memory) (id : StreamId) : Keeps b m (m.stopping id) :=
  .ofRecvs fun _ h => h

/-- `stop` either finds the stream in the table, or only sets `stop_sent`. -/
theorem stop_cases (l : Limits) (m : Memory) (id : StreamId) (code : Nat) :
    (m.stop l id code).1 = m ∨
    (id ∉ m.recvs.streams ∧
      (m.stop l id code).1 = { m with recvs := m.recvs.apply (.swapStop id) }) ∨
    (m.stop l id code).1 = ((m.stopping id).trySendFrame l (.stopSending id code)).1 := by
  unfold Memory.stop Memory.stopRecvStream
  split_ifs with hcode hsent hmem
  · exact .inl rfl
  · exact .inl rfl
  · refine .inr (.inr ?_)
    rcases trySendFrame_cases l (m.stopping id) (.stopSending id code) with ⟨-, h⟩ | ⟨-, h⟩
    all_goals
      rw [h]
      simp only [Memory.stopping, Memory.sendFrame] at h ⊢
      rw [h]
  · exact .inr (.inl ⟨hmem, rfl⟩)

theorem Keeps.stop (m : Memory) (id : StreamId) (code : Nat) : Keeps b m (m.stop l id code).1 := by
  rcases stop_cases l m id code with h | ⟨-, h⟩ | h
  · rw [h]
    exact .refl b m
  · rw [h]
    exact .ofRecvs fun _ h => h
  · rw [h]
    exact (Keeps.stopping m id).trans (Calm.trySendFrame _ _).toKeeps

theorem SendDuty.stop {code : Nat} (hd : SendDuty m) : SendDuty (m.stop l id code).1 := by
  rcases stop_cases l m id code with h | ⟨-, h⟩ | h
  · rw [h]
    exact hd
  · rw [h]
    exact hd.ofRecvs
  · rw [h]
    have hs : SendDuty (m.stopping id) := hd.ofRecvs
    exact hs.calm (Calm.trySendFrame (b := true) _ _)

/-- The stop flags may be set once the stop is announced, here with the frame already sent. -/
theorem RecvDuty.stopCall {code : Nat} (hd : RecvDuty m) (hslot : hasSlot m = true) :
    RecvDuty (m.stop l id code).1 := by
  rcases stop_cases l m id code with h | ⟨hid, h⟩ | h
  · rw [h]
    exact hd
  · rw [h]
    simp only [RecvTable.apply]
    refine hd.modify (fun hs => hd.stopped id hs) ?_ ?_
    · exact fun hmem => absurd hmem hid
    · exact fun hmem => absurd hmem hid
  · rw [h, trySendFrame_stopping]
    refine (hd.calm (Calm.trySendFrame (b := true) m _)).stopping ?_
    exact announced_trySendFrame (by simp [stops]) hslot

theorem Safe.stopCall {code : Nat} (hslot : hasSlot m = true) : Safe b m (m.stop l id code).1 where
  toKeeps := .stop m id code
  sends hd := hd.stop
  recvs hd := hd.stopCall hslot

/-- The stop flags may be set in either order. -/
theorem stop_swapStop (r : RecvTable) (id : StreamId) :
    (r.apply (.stop id)).apply (.swapStop id) = (r.apply (.swapStop id)).apply (.stop id) := by
  simp [RecvTable.apply, RecvTable.stopRecvStream, RecvTable.modify]

theorem requestShutdown_stopping (m : Memory) (id : StreamId) :
    (m.stopping id).requestShutdown = m.requestShutdown.stopping id := by
  unfold Memory.requestShutdown Memory.stopping
  split_ifs <;> rfl

/-- A frame for the stop is sent, or shutdown requested, in the drop of a receive stream. -/
theorem Safe.stopOrShutdown (m : Memory) (id : StreamId) :
    Safe b m (match (m.stopping id).trySendFrame l (.stopSending id 0) with
      | (m, true) => m
      | (m, false) => m.requestShutdown) := by
  rcases trySendFrame_cases l m (.stopSending id 0) with ⟨-, h⟩ | ⟨-, h⟩
  · have hs : Calm b m (m.trySendFrame l (.stopSending id 0)).1 := .trySendFrame m _
    rw [h] at hs
    rw [trySendFrame_stopping, h]
    refine hs.safe.trans ⟨.stopping _ id, fun hd => hd.ofRecvs, fun hd => hd.stopping ?_⟩
    exact announced_push (by simp [stops])
  · rw [trySendFrame_stopping, h]
    dsimp only
    rw [requestShutdown_stopping]
    have hs : Calm b m m.requestShutdown := .requestShutdown m
    refine hs.safe.trans ⟨.stopping _ id, fun hd => hd.ofRecvs, fun hd => hd.stopping ?_⟩
    exact announced_requestShutdown m _

/-- The stream in the table is marked as stopped, when that was announced before. -/
theorem Safe.stopped (m : Memory) (h : RecvDuty m → Announced m (stops id)) :
    Safe b m { m with recvs := m.recvs.apply (.stop id) } where
  toKeeps := .ofRecvs fun _ h => h
  sends hd := hd.ofRecvs
  recvs hd := by
    have hcell := RecvDuty.modify (i := id) (g := fun c => { c with stopped := true }) hd
      (fun _ => h hd) (fun _ _ => rfl) (fun hid he => hd.running id hid he)
    exact RecvDuty.keeps (b := true) hcell (.ofRecvs fun _ h => h) (.fields (fun _ h => h) rfl)

theorem Safe.dropRecv (m : Memory) (id : StreamId) : Safe b m (m.dropRecv l id) := by
  have hreader : ((m.recvs.apply (.stop id)).cell id).reader = (m.recvs.cell id).reader := by
    simp [RecvTable.apply, RecvTable.stopRecvStream, RecvTable.modify]
  unfold Memory.dropRecv Memory.stopRecvStream
  split_ifs with hmem
  · dsimp only
    rw [hreader]
    split_ifs with hfin hsent
    · -- a stream in the table has not ended
      refine (Safe.stopped m fun hd => ?_).trans (Calm.releaseRecv _ id).safe
      exact absurd (.inl hfin) (hd.running id hmem)
    · refine (Safe.stopped m fun hd => ?_).trans (Calm.releaseRecv _ id).safe
      exact hd.stopped id (hd.stopSent id hmem hsent)
    · rw [stop_swapStop]
      have h : Safe b m _ := .stopOrShutdown (l := l) m id
      rcases hsend : (m.stopping id).trySendFrame l (.stopSending id 0) with ⟨m', ok⟩
      unfold Memory.stopping at h hsend
      rw [hsend] at h ⊢
      cases ok with
      | true => exact h.trans (Calm.releaseRecv _ id).safe
      | false => exact h.trans (Calm.releaseRecv _ id).safe
  · exact (Calm.releaseRecv m id).safe

/-- A fresh receive stream has no duties yet. -/
theorem RecvDuty.register (hd : RecvDuty m) : RecvDuty (m.registerRecvStream l id) := by
  have hcell : ∀ i, (m.registerRecvStream l id).recvs.cell i = if i = id then
      { maxData := l.initialStreamWindow
        reader := { granted := l.initialStreamWindow, receiverOpen := true } }
      else m.recvs.cell i := by
    intro i
    simp only [Memory.registerRecvStream, RecvTable.apply, RecvTable.register,
      Function.update_apply]
  have hmem : ∀ i, i ∈ (m.registerRecvStream l id).recvs.streams → i ≠ id → i ∈ m.recvs.streams :=
    fun i h hne => Finset.mem_of_mem_insert_of_ne h hne
  refine ⟨fun i h => ?_, fun i hi h => ?_, fun i hi h => ?_⟩
  · rw [hcell] at h
    split_ifs at h with heq
    exact hd.stopped i h
  · rw [hcell] at h ⊢
    split_ifs at h ⊢ with heq
    exact hd.stopSent i (hmem i hi heq) h
  · rw [hcell] at h
    split_ifs at h with heq
    · rcases h with h | ⟨e, he, -⟩
      · cases h
      · cases he
    · exact hd.running i (hmem i hi heq) h

/-! ## Functions of `Session` -/

theorem Safe.openUni (m : Memory) : Safe b m (m.openUni l).1 := by
  have hid : Calm b m (m.nextStreamId .uni).1 := .nextStreamId m .uni
  unfold Memory.openUni
  split
  · next heq =>
      rw [heq] at hid
      exact hid.safe
  · next m₁ id heq =>
      rw [heq] at hid
      have hreg : Calm b m₁ (m₁.registerSendFlow l id).1 := .registerSendFlow m₁ id
      split
      · next heq =>
          rw [heq] at hreg
          exact (hid.trans hreg).safe
      · next m₂ heq =>
          rw [heq] at hreg
          have hsend : Calm b m₂ (m₂.sendFrame l (.openUni id)).1 := .trySendFrame m₂ _
          split
          · next heq =>
              rw [heq] at hsend
              exact ((hid.trans hreg).trans (hsend.trans (.removeSendFlow _ _))).safe
          · next heq =>
              rw [heq] at hsend
              exact ((hid.trans hreg).trans hsend).safe.trans (.newSend _ id true)

theorem Safe.undoOpenBi (m : Memory) (id : StreamId) : Safe b m (m.undoOpenBi l id) := by
  have h : Calm b m ((m.removeRecvStream id).removeSendFlow id).1 :=
    Calm.trans (.removeRecvStream m id) (.removeSendFlow _ id)
  exact h.safe.trans (.dropRecv _ id)

theorem not_mem_undoOpenBi (m : Memory) (id : StreamId) :
    id ∉ (m.undoOpenBi l id).recvs.streams := by
  intro h
  have hdrop : Safe true ((m.removeRecvStream id).removeSendFlow id).1 (m.undoOpenBi l id) :=
    .dropRecv _ id
  exact Finset.notMem_erase id _ (hdrop.streams h)

/-- `open_bi` behind its registrations: both frames are in the channel, or the registration is taken
back. -/
theorem sendOpenBi_spec (l : Limits) (m : Memory) (id : StreamId) :
    Safe b m (m.sendOpenBi l id).1 ∧
      (id ∉ (m.sendOpenBi l id).1.recvs.streams ∨ m.chan.isOpen = true ∧
        .maxStreamData id l.initialStreamWindow ∈ (m.sendOpenBi l id).1.chan.admitted) := by
  have hundo : ∀ m₁, Calm b m m₁ → Safe b m (m₁.undoOpenBi l id) ∧
      (id ∉ (m₁.undoOpenBi l id).recvs.streams ∨ m.chan.isOpen = true ∧
        .maxStreamData id l.initialStreamWindow ∈ (m₁.undoOpenBi l id).chan.admitted) :=
    fun m₁ h => ⟨h.safe.trans (.undoOpenBi m₁ id), .inl (not_mem_undoOpenBi m₁ id)⟩
  unfold Memory.sendOpenBi Memory.sendFrame
  have hopen : Calm b m (m.trySendFrame l (.openBi id)).1 := .trySendFrame m _
  rcases trySendFrame_cases l m (.openBi id) with ⟨hc, heq⟩ | ⟨-, heq⟩
  · rw [heq] at hopen ⊢
    dsimp only
    generalize { m with chan := m.chan.push l.outboundQueueLen 0 (.openBi id) } = m₁ at hopen
    have hmax : Calm b m₁ (m₁.trySendFrame l (.maxStreamData id l.initialStreamWindow)).1 :=
      .trySendFrame m₁ _
    rcases trySendFrame_cases l m₁ (.maxStreamData id l.initialStreamWindow) with
      ⟨-, heq⟩ | ⟨-, heq⟩
    · rw [heq] at hmax ⊢
      dsimp only
      refine ⟨?_, .inr ⟨?_, ?_⟩⟩
      · refine ((hopen.trans hmax).safe.trans (.newSend _ id true)).trans (Calm.safe ?_)
        exact .ofRecvs (.hold _ _ _)
      · exact (Bool.and_eq_true_iff.1 hc).1
      · simp only [Memory.newSend, ParkingChannel.clone, ParkingChannel.admitted_push]
        exact List.mem_append_right _ (List.mem_singleton_self _)
    · rw [heq]
      exact hundo m₁ hopen
  · rw [heq]
    exact hundo m (.refl b m)

/-- **What `open_bi` does**: it registers no receive stream, or it registers one and announces its
first credit, unless it takes the registration back. -/
theorem openBi_cases (b : Bool) (l : Limits) (m : Memory) :
    Calm b m (m.openBi l).1 ∨ ∃ id m₁, Calm b m m₁ ∧ m₁.chan = m.chan ∧
      Safe b (m₁.registerRecvStream l id) (m.openBi l).1 ∧
      (id ∉ (m.openBi l).1.recvs.streams ∨ m.chan.isOpen = true ∧
        .maxStreamData id l.initialStreamWindow ∈ (m.openBi l).1.chan.admitted) := by
  have hid : Calm b m (m.nextStreamId .bi).1 := .nextStreamId m .bi
  unfold Memory.openBi
  split
  · next heq =>
      rw [heq] at hid
      exact .inl hid
  · next m₁ id heq =>
      have hchan₁ : m₁.chan = m.chan := by
        rw [show m₁ = (m.nextStreamId .bi).1 by rw [heq]]
        rfl
      rw [heq] at hid
      have hreg : Calm b m₁ (m₁.registerSendFlow l id).1 := .registerSendFlow m₁ id
      split
      · next heq =>
          rw [heq] at hreg
          exact .inl (hid.trans hreg)
      · next m₂ heq =>
          have hchan : m₂.chan = m.chan := by
            rw [← hchan₁, show m₂ = (m₁.registerSendFlow l id).1 by rw [heq]]
            unfold Memory.registerSendFlow
            split <;> rfl
          rw [heq] at hreg
          obtain ⟨hsafe, hcase⟩ := sendOpenBi_spec (b := b) l (m₂.registerRecvStream l id) id
          refine .inr ⟨id, m₂, hid.trans hreg, hchan, hsafe, ?_⟩
          rw [← hchan]
          exact hcase

/-! ### Handles in the accept queues -/

/-- What every step of a fold keeps, the fold keeps. -/
theorem foldl_trans {σ α : Type} {R : σ → σ → Prop} (hrefl : ∀ s, R s s)
    (htrans : ∀ {s s' s''}, R s s' → R s' s'' → R s s'') {f : σ → α → σ} (hf : ∀ s x, R s (f s x))
    (xs : List α) (s : σ) : R s (xs.foldl f s) := by
  induction xs generalizing s with
  | nil => exact hrefl s
  | cons x xs ih => exact htrans (hf s x) (ih (f s x))

/-- A queued pair names a handle. -/
def Named (m : Memory) (p : Nat × StreamId) : Prop := ∃ x, m.handles[p.1]? = some x ∧ x.id = p.2

theorem Named.id_eq {p : Nat × StreamId} (h : Named m p) (x : SendStream)
    (hx : m.handles[p.1]? = some x) : x.id = p.2 := by
  obtain ⟨y, hy, hid⟩ := h
  rw [hx] at hy
  cases hy
  exact hid

theorem Named.dropSend {p : Nat × StreamId} (hn : Named m p) (h : Nat) (id : StreamId) :
    Named (m.dropSend l h id) p := by
  obtain ⟨m₁, -, hhs, heq, -⟩ := exists_dropSend l m h id
  obtain ⟨x, hx, hid⟩ := hn
  rw [heq]
  refine ⟨if h = p.1 then { x with live := false, held := false } else x, ?_, ?_⟩
  · simp [Memory.releaseSend, List.getElem?_modify, hhs, hx]
  · split_ifs <;> exact hid

theorem handles_dropRecv (m : Memory) (id : StreamId) : (m.dropRecv l id).handles = m.handles := by
  unfold Memory.dropRecv Memory.stopRecvStream
  split_ifs with hmem
  · dsimp only
    split_ifs
    · rfl
    · rfl
    · split
      · next heq =>
          obtain ⟨rfl, -⟩ := Prod.mk.inj heq
          rfl
      · next heq =>
          obtain ⟨rfl, -⟩ := Prod.mk.inj heq
          exact handles_requestShutdown _
  · rfl

/-- A pair left in the queue for `accept_bi` is dropped. -/
def Memory.dropBoth (l : Limits) (m : Memory) (p : Nat × StreamId) : Memory :=
  (m.dropSend l p.1 p.2).dropRecv l p.2

theorem Keeps.dropBoth (m : Memory) (p : Nat × StreamId) : Keeps b m (m.dropBoth l p) :=
  (Keeps.dropSend m p.1 p.2).trans (Safe.dropRecv _ p.2).toKeeps

theorem RecvDuty.dropBoth (hd : RecvDuty m) (p : Nat × StreamId) : RecvDuty (m.dropBoth l p) :=
  (Safe.dropRecv (b := true) _ p.2).recvs hd.dropSend

theorem SendDuty.dropAll (hd : SendDuty m) (ps : List (Nat × StreamId)) (hn : ∀ p ∈ ps, Named m p) :
    SendDuty (ps.foldl (Memory.dropBoth l) m) := by
  induction ps generalizing m with
  | nil => exact hd
  | cons p ps ih =>
      have hp : SendDuty (m.dropSend l p.1 p.2) := hd.dropSend (hn p (.head _)).id_eq
      refine ih ((Safe.dropRecv (b := true) _ p.2).sends hp) fun q hq => ?_
      have hq : Named (m.dropSend l p.1 p.2) q := (hn q (.tail _ hq)).dropSend _ _
      unfold Named Memory.dropBoth
      rw [handles_dropRecv]
      exact hq

theorem Safe.dropAcceptUni (m : Memory) : Safe b m (m.dropAcceptUni l) := by
  have h : Calm b m { m with accept := { m.accept with uniRx := false, uni := [] } } :=
    { Calm.refl b m with taskFinished := rfl }
  exact h.safe.trans (foldl_trans (fun m => (Calm.refl b m).safe) Safe.trans
    (fun m id => .dropRecv m id) _ _)

theorem Safe.dropAcceptBi (m : Memory) : Safe b m (m.dropAcceptBi l) := by
  have hclose : ∀ b, Calm b m { m with accept := { m.accept with biRx := false, bi := [] } } :=
    fun b => { Calm.refl b m with offered := List.nil_subset _ }
  have heq : m.dropAcceptBi l = m.accept.bi.foldl (Memory.dropBoth l)
    { m with accept := { m.accept with biRx := false, bi := [] } } := rfl
  rw [heq]
  refine ⟨(hclose b).toKeeps.trans ?_, fun hd => ?_, fun hd => ?_⟩
  · exact foldl_trans (Keeps.refl b) Keeps.trans Keeps.dropBoth _ _
  · exact (hd.calm (hclose b)).dropAll _ hd.offered
  · refine foldl_trans (R := fun m m' => RecvDuty m → RecvDuty m') (fun _ h => h)
      (fun h h' hd => h' (h hd)) (fun m p hd => hd.dropBoth p) _ _ ?_
    exact hd.calm (hclose b)

theorem Safe.dropSession (m : Memory) : Safe b m (m.dropSession l) := by
  have h : Calm b m { m with sessionHandles := m.sessionHandles - 1 } :=
    { Calm.refl b m with taskFinished := rfl }
  unfold Memory.dropSession
  dsimp only
  split_ifs
  · have hreq := (h.trans (.requestShutdown _)).safe
    exact (hreq.trans (.dropAcceptUni _)).trans (.dropAcceptBi _)
  · exact h.safe

/-! ## `handle_frame` -/

theorem Safe.offerUni (m : Memory) (id : StreamId) : Safe true m (m.offerUni l id).1 := by
  unfold Memory.offerUni
  split_ifs
  · exact (Calm.protocolError m _ _).safe.trans (.dropRecv _ id)
  · exact Calm.safe { Calm.refl true m with taskFinished := rfl }
  · exact .dropRecv m id

theorem handles_protocolError (m : Memory) (code : Nat) (reason : String) :
    (m.protocolError l code reason).1.handles = m.handles := by
  unfold Memory.protocolError Memory.closeAll
  split_ifs <;> rfl

theorem Safe.offerBi {h : Nat} (hn : Named m (h, id)) : Safe true m (m.offerBi l id h).1 := by
  unfold Memory.offerBi
  split_ifs
  · have hid : ∀ x, (m.protocolError l 3 "accept queue full").1.handles[h]? = some x → x.id = id := by
      rw [handles_protocolError]
      exact hn.id_eq
    exact ((Calm.protocolError m _ _).safe.trans (.dropSend hid)).trans (.dropRecv _ id)
  · refine ⟨{ Keeps.refl true m with taskFinished := rfl }, fun hd => ?_, fun hd => ?_⟩
    · refine ⟨hd.finished, hd.live, fun p hp => ?_⟩
      rcases List.mem_append.1 hp with hp | hp
      · exact hd.offered p hp
      · cases List.mem_singleton.1 hp
        exact hn
    · exact hd.keeps (b := true) { Keeps.refl true m with taskFinished := rfl } (.refl _)
  · exact (Safe.dropSend hn.id_eq).trans (.dropRecv _ id)

/-- The first part of an inbound open. -/
theorem RecvDuty.registerInbound (hd : RecvDuty m) : RecvDuty (m.registerInbound l id) :=
  (RecvDuty.register hd).calm (Calm.trySendFrame (b := true) _ _)

/-- **What `handle_frame` does**: it registers no stream, or it registers one and tries to announce
its first credit. -/
theorem handleFrame_cases (l : Limits) (m : Memory) (f : Frame) :
    Calm true m (m.handleFrame l f).1 ∨ ∃ id, (f = .openUni id ∨ f = .openBi id) ∧
      Safe true ((m.acceptPeerId id).registerInbound l id) (m.handleFrame l f).1 := by
  cases f with
  | openUni id =>
      simp only [Memory.handleFrame, Memory.handleOpenUni]
      split
      · exact .inl (.protocolError m _ _)
      · split
        · refine .inl (Calm.trans ?_ (.protocolError _ _ _))
          exact { Calm.refl true m with taskFinished := rfl }
        · exact .inr ⟨id, .inl rfl, .offerUni _ id⟩
  | openBi id =>
      simp only [Memory.handleFrame, Memory.handleOpenBi]
      split
      · exact .inl (.protocolError m _ _)
      · split
        · refine .inl (Calm.trans ?_ (.protocolError _ _ _))
          exact { Calm.refl true m with taskFinished := rfl }
        · refine .inr ⟨id, .inr rfl, ?_⟩
          generalize (m.acceptPeerId id).registerInbound l id = m₁
          have hreg : Calm true m₁ (m₁.registerSendFlow l id).1 := .registerSendFlow m₁ id
          split
          · next heq =>
              rw [heq] at hreg
              exact (hreg.trans (.protocolError _ _ _)).safe.trans (.dropRecv _ id)
          · next m₂ heq =>
              rw [heq] at hreg
              refine (hreg.safe.trans (.newSend m₂ id false)).trans (.offerBi ?_)
              refine ⟨_, List.getElem?_concat_length, rfl⟩
  | stream id data fin => exact .inl (.handleStream m id data fin)
  | resetStream id code => exact .inl (.handleReset m id)
  | stopSending id code => exact .inl (.handleStop m id code)
  | maxStreamData id max => exact .inl (.send m nofun)
  | connectionClose code reason => exact .inl (.closeAll m)
end WebsockMux.Wasm
