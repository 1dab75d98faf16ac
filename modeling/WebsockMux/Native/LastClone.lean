import WebsockMux.Native.Closing

/-!
# The last clone of a send stream

The destructor of a `SendStream` reads the strong count of its flags, and only the clone that finds
itself alone removes the flow and resets the stream; the `Arc` is released afterwards. Between the
read and the release the clone is still counted, so two destructors that overlap may each find the
other one and neither cleans up (`overlapping_drops_leak`). Where no destructor reads the count
while another one of the same stream is about to release its `Arc`, the last clone cleans up
(`last_clone_cleans_up`).
-/

set_option autoImplicit false

namespace WebsockMux.Native

open WebsockMux.Lib WebsockMux.Proto

variable {cfg : Config} {m : Memory} {v v' : View} {who : Option Nat} {id : StreamId}

/-! ## What was cleaned up stays so -/

/-- The flow is removed, and the direction is finished, reset or given up with the session. -/
def SendDirection.Clean (d : SendDirection) : Prop :=
  d.isOpen = false ∧ (d.cell.finished = true ∨ .reset ∈ d.log ∨ d.dead = true)

/-- A registered flow that has left the table is never put into it again. -/
theorem SendInv.removed_stable {d d' : SendDirection} {rs rs' : List SendRole} (hinv : SendInv d rs)
    (hs : d.PoolStep rs d' rs') (hreg : 0 < d.registered) (ho : d.isOpen = false) :
    d'.isOpen = false := by
  cases hs with
  | act hi hs =>
      cases hs with
      | register h =>
          have hz := hinv.unregistered_of_token hi
          omega
      | _ => first | exact ho | rfl
  | _ => exact ho

theorem SendInv.clean_stable {d d' : SendDirection} {rs rs' : List SendRole} (hinv : SendInv d rs)
    (hs : d.PoolStep rs d' rs') (hreg : 0 < d.registered) (hc : d.Clean) : d'.Clean := by
  refine ⟨hinv.removed_stable hs hreg hc.1, ?_⟩
  have hgrow : ∀ x, .reset ∈ d.log → .reset ∈ d.log ++ [x] := fun x h => List.mem_append_left _ h
  cases hs with
  | act hi hs =>
      cases hs with
      | register h =>
          have hz := hinv.unregistered_of_token hi
          omega
      | updateMax r max =>
          have hcell := (SendDirection.updateMax_cell d max).1
          simp only [SendDirection.apply]
          rw [hcell]
          exact hc.2
      | finish => exact .inl rfl
      | shutFinish => exact .inl rfl
      | data => exact hc.2.imp_right (Or.imp_left (hgrow _))
      | fin => exact hc.2.imp_right (Or.imp_left (hgrow _))
      | shutFin => exact hc.2.imp_right (Or.imp_left (hgrow _))
      | reset => exact hc.2.imp_right (Or.imp_left (hgrow _))
      | resetBare => exact hc.2.imp_right (Or.imp_left (hgrow _))
      | leak => exact .inr (.inr rfl)
      | shutdown => exact .inr (.inr rfl)
      | _ => exact hc.2
  | shutdown => exact .inr (.inr rfl)
  | _ => exact hc.2

/-! ## How far a drop has got -/

/-- How far the drop of a handle has got: the handle was the last one and its flow is removed, the
reset could not be queued and shutdown is to be requested, it is requested, or the handle only has
to be released. -/
inductive DropPhase where
  | cleared (h : Nat) (id : StreamId)
  | asks (h : Nat)
  | asked (h : Nat)
  | leaves (h : Nat)

/-- The phase of the drop that a function is in. -/
def Task.dropPhase : Task → Option DropPhase
  | .anyOf _ (.dropSend h id _) => some (.cleared h id)
  | .anyOf _ (.trySend (.dropSend h id) _) => some (.cleared h id)
  | .trySend (.dropSend h id) _ => some (.cleared h id)
  | .storeShutdown (.releaseHandle h _) => some (.asks h)
  | .cancel (.releaseHandle h _) => some (.asked h)
  | .releaseHandle h _ => some (.leaves h)
  | _ => none

/-- Nothing is left to release when a function returns. -/
def Ret.Tidy : Ret → Prop
  | .releaseHandle _ _ => False
  | .requestShutdown k => k.Tidy
  | .protocolError _ _ k => k.Tidy
  | .closeReceiver _ k => k.Tidy
  | .dropRecv _ k => k.Tidy
  | .dropSend _ _ k => k.Tidy
  | .dropTx _ k => k.Tidy
  | _ => True

/-- A handle is released only at the end of its own drop. -/
def Task.Tidy : Task → Prop
  | .anyOf fs (.dropSend _ id k) => fs = [.finished id] ∧ k.Tidy
  | .anyOf _ (.trySend _ k) => k.Tidy
  | .trySend _ k => k.Tidy
  | .storeShutdown (.releaseHandle _ k) => k.Tidy
  | .storeShutdown k => k.Tidy
  | .cancel (.releaseHandle _ k) => k.Tidy
  | .cancel k => k.Tidy
  | .closeAll _ k => k.Tidy
  | .dropSend _ _ k => k.Tidy
  | .dropSendRemove _ _ k => k.Tidy
  | .releaseHandle _ k => k.Tidy
  | .dropRecv _ k => k.Tidy
  | .dropRecvSwap _ k => k.Tidy
  | .closeReceiver _ k => k.Tidy
  | .dropTx _ k => k.Tidy
  | _ => True

/-- How a function comes to a phase of a drop: its access, and the phase after it. -/
inductive Task.Comes (m : Memory) (t : Task) : Access → DropPhase → Prop where
  /-- The strong count is not one. -/
  | shared {h : Nat} {id : StreamId} {k : Ret} (ht : t = .dropSend h id k)
      (hc : SendHandle.strongCount m.handles id ≠ 1) : Comes m t .skip (.leaves h)
  | remove {h : Nat} {id : StreamId} {k : Ret} (ht : t = .dropSendRemove h id k) :
      Comes m t (.send (.remove id)) (.cleared h id)
  | check {h : Nat} {id : StreamId} (ht : t.dropPhase = some (.cleared h id)) :
      Comes m t .skip (.cleared h id)
  | finished {h : Nat} {id : StreamId} (ht : t.dropPhase = some (.cleared h id))
      (hf : (m.sends.cell id).finished = true) : Comes m t .skip (.leaves h)
  | reset {h : Nat} {id : StreamId} (ht : t.dropPhase = some (.cleared h id)) :
      Comes m t (.chan (.trySend (.resetStream id 0))) (.leaves h)
  | fail {h : Nat} {id : StreamId} (ht : t.dropPhase = some (.cleared h id)) :
      Comes m t .skip (.asks h)
  | store {h : Nat} (ht : t.dropPhase = some (.asks h)) :
      Comes m t (.flag .shutdownStarted) (.asked h)
  | cancel {h : Nat} (ht : t.dropPhase = some (.asked h)) :
      Comes m t (.flag .cancelled) (.leaves h)

/-- A step of a function that keeps the order of a drop. -/
structure Task.DropStep (m : Memory) (t : Task) (a : Access) (t' : Task) : Prop where
  tidy : t'.Tidy
  comes : ∀ p, t'.dropPhase = some p → t.Comes m a p

/-- A function that is in no drop. -/
def Task.Apart (t : Task) : Prop := t.Tidy ∧ t.dropPhase = none

theorem Task.Apart.dropStep {t t' : Task} {a : Access} (h : t'.Apart) : t.DropStep m a t' where
  tidy := h.1
  comes p hp := by
    rw [h.2] at hp
    cases hp

theorem Ret.Tidy.resume {k : Ret} (hk : k.Tidy) : k.resume.Apart := by
  cases k with
  | releaseHandle h k => exact hk.elim
  | requestShutdown k =>
      refine ⟨?_, ?_⟩
      · cases k with
        | releaseHandle h k => exact False.elim hk
        | _ => exact hk
      · cases k with
        | releaseHandle h k => exact False.elim hk
        | _ => rfl
  | _ => exact ⟨hk, rfl⟩

theorem SendSite.apart_resume (s : SendSite) (b : Bool) : (s.resume cfg b).Apart := by
  cases s with
  | inboundCredit id bi => cases bi <;> cases b <;> exact ⟨trivial, rfl⟩
  | write c =>
      cases b with
      | false => exact ⟨trivial, rfl⟩
      | true =>
          simp only [SendSite.resume, writeLoop]
          split_ifs <;> exact ⟨trivial, rfl⟩
  | _ => cases b <;> exact ⟨trivial, rfl⟩

theorem acceptDrop_tidy (id : StreamId) (x : Option Nat) : (acceptDrop id x).Tidy := by
  cases x <;> trivial

/-- The reset of a drop could not be queued, or the frame of another call was. -/
theorem TrySite.dropStep_failed {t : Task} {s : TrySite} {k : Ret} (hk : k.Tidy)
    (ht : ∀ h id, s = .dropSend h id → t.dropPhase = some (.cleared h id)) :
    t.DropStep m .skip (s.resume k false) := by
  cases s with
  | dropSend h id =>
      refine ⟨hk, fun p hp => ?_⟩
      cases hp
      exact .fail (ht h id rfl)
  | dropRecv i => exact Task.Apart.dropStep ⟨hk, rfl⟩
  | protocolError code reason => exact Task.Apart.dropStep ⟨hk, rfl⟩

theorem Check.dropStep {fs : List Flag} {c : Check} (ht : (Task.anyOf fs c).Tidy) (b : Bool)
    (hb : ∀ h id k, c = .dropSend h id k → b = true → (m.sends.cell id).finished = true) :
    (Task.anyOf fs c).DropStep m .skip (c.resume cfg b) := by
  cases c with
  | send s =>
      cases b with
      | false => exact Task.Apart.dropStep ⟨trivial, rfl⟩
      | true => exact (s.apart_resume false).dropStep
  | trySend s k =>
      cases b with
      | false =>
          refine ⟨ht, fun p hp => ?_⟩
          cases s with
          | dropSend h id =>
              cases hp
              exact .check rfl
          | _ => cases hp
      | true =>
          refine TrySite.dropStep_failed ht ?_
          rintro h id rfl
          rfl
  | dropSend h id k =>
      cases b with
      | false =>
          refine ⟨ht.2, fun p hp => ?_⟩
          cases hp
          exact .check rfl
      | true =>
          refine ⟨ht.2, fun p hp => ?_⟩
          cases hp
          exact .finished rfl (hb h id k rfl rfl)
  | writeStart w =>
      refine Task.Apart.dropStep ?_
      cases b with
      | false =>
          simp only [Check.resume, writeLoop]
          split_ifs <;> exact ⟨trivial, rfl⟩
      | true => exact ⟨trivial, rfl⟩
  | reserveOpen w =>
      refine Task.Apart.dropStep ?_
      cases b with
      | false => exact ⟨trivial, rfl⟩
      | true =>
          simp only [Check.resume, outOfCredit]
          split_ifs <;> exact ⟨trivial, rfl⟩
  | noCredit w =>
      refine Task.Apart.dropStep ?_
      cases b with
      | false =>
          simp only [Check.resume]
          split_ifs <;> exact ⟨trivial, rfl⟩
      | true => exact ⟨trivial, rfl⟩
  | _ => cases b <;> exact Task.Apart.dropStep ⟨trivial, rfl⟩

/-- **A step keeps the order of a drop.** -/
theorem Task.drop_next {t t' : Task} {a : Access} (ht : t.Tidy)
    (hn : t.next cfg m = some (a, t')) : t.DropStep m a t' := by
  replace hn := Task.steps_of_next hn
  induction hn with
  | anyOfNil | anyOfLast => exact Check.dropStep ht _ fun _ _ _ _ h => absurd h Bool.false_ne_true
  | anyOfSet f fs c hf =>
      refine Check.dropStep ht _ ?_
      rintro h id k rfl -
      -- the only flag that a drop loads is `finished`
      cases ht.1
      exact hf
  | anyOf f fs c hf hfs =>
      cases c with
      | dropSend h id k =>
          cases ht.1
          exact absurd rfl hfs
      | trySend s k =>
          refine ⟨ht, fun p hp => ?_⟩
          cases s with
          | dropSend h id =>
              cases hp
              exact .check rfl
          | _ => cases hp
      | _ => exact Task.Apart.dropStep ⟨trivial, rfl⟩
  | reserveClosed s | publish s | unpublished s => exact (s.apart_resume _).dropStep
  | trySend s k =>
      cases s with
      | dropSend h id =>
          refine ⟨ht, fun p hp => ?_⟩
          cases hp
          exact .reset rfl
      | _ => exact Task.Apart.dropStep ⟨ht, rfl⟩
  | trySendFull s k =>
      refine TrySite.dropStep_failed ht ?_
      rintro h id rfl
      rfl
  | storeShutdown k =>
      cases k with
      | releaseHandle h k =>
          refine ⟨ht, fun p hp => ?_⟩
          cases hp
          exact .store rfl
      | _ => exact Task.Apart.dropStep ⟨ht, rfl⟩
  | cancel k =>
      cases k with
      | releaseHandle h k =>
          refine ⟨ht, fun p hp => ?_⟩
          cases hp
          exact .cancel rfl
      | _ => exact (Ret.Tidy.resume ht).dropStep
  | closeAll c k =>
      cases c with
      | closeFlows => exact (Ret.Tidy.resume ht).dropStep
      | _ => exact Task.Apart.dropStep ⟨ht, rfl⟩
  | closeAllAgain | releaseHandle | closeReceiver | dropTx => exact (Ret.Tidy.resume ht).dropStep
  | dropSend h id k hc =>
      refine ⟨ht, fun p hp => ?_⟩
      cases hp
      exact .shared rfl hc
  | dropSendRemove h id k =>
      refine ⟨⟨rfl, ht⟩, fun p hp => ?_⟩
      cases hp
      exact .remove rfl
  | dropSendLast | dropRecvFinished | dropRecv | dropRecvGone | dropRecvAgain | dropRecvSwap =>
      exact Task.Apart.dropStep ⟨ht, rfl⟩
  | acceptLockGone i x | acceptClosed i x => exact (Ret.Tidy.resume (acceptDrop_tidy i x)).dropStep
  | acceptFull i x => exact Task.Apart.dropStep ⟨acceptDrop_tidy i x, rfl⟩
  | selectApi c | selectApiSame c => cases c <;> exact Task.Apart.dropStep ⟨trivial, rfl⟩
  | swapOperation c =>
      refine Task.Apart.dropStep ?_
      cases c <;> simp only [SendCall.body] <;> (try split_ifs) <;> exact ⟨trivial, rfl⟩
  | outOfCredit w => exact outOfCredit_elim w fun _ => Task.Apart.dropStep ⟨trivial, rfl⟩
  | casSent =>
      exact granted_elim _ (Task.Apart.dropStep ⟨trivial, rfl⟩) (Task.Apart.dropStep ⟨trivial, rfl⟩)
  | _ => exact Task.Apart.dropStep ⟨trivial, rfl⟩

theorem Task.apart_cancelled {t t' : Task} (hc : t.cancelled = some t') : t'.Apart := by
  cases t with
  | reserve s => cases s <;> cases hc <;> exact ⟨trivial, rfl⟩
  | _ => cases hc <;> exact ⟨trivial, rfl⟩

theorem Task.apart_timedOut {t t' : Task} (hc : t.timedOut = some t') : t'.Apart := by
  cases t <;> cases hc <;> exact ⟨trivial, rfl⟩

theorem Task.apart_aborted {t t' : Task} (ht : t.Tidy) (ha : t.aborted = some t') : t'.Apart := by
  cases t with
  | reserve s => cases s <;> cases ha <;> exact ⟨trivial, rfl⟩
  | acceptLock i x =>
      cases ha
      exact Ret.Tidy.resume (acceptDrop_tidy i x)
  | closeAll c k => cases c <;> cases ha <;> exact Ret.Tidy.resume ht
  | _ => cases ha

theorem Turn.apart {t t' : Task} {fs : List Frame} {b : Bool} (ht : Turn cfg v t t' fs b) :
    t'.Apart := by
  cases ht with
  | @frame f hl hf =>
      cases f <;> simp only [handleFrame] <;> (try split_ifs) <;> exact ⟨trivial, rfl⟩
  | _ => exact ⟨trivial, rfl⟩

theorem Call.apart_start {c : Call} {u : Use} {a : Access} {t : Task}
    (hc : c.start m = some (u, a, t)) : t.Apart := by
  cases Call.starts_of_start hc <;> exact ⟨trivial, rfl⟩

/-! ## Handles -/

theorem SendHandle.Is.eq {hs : List SendHandle} {h : Nat} {x : SendHandle}
    (hi : SendHandle.Is hs h id) (hx : hs[h]? = some x) : x.id = id := by
  obtain ⟨y, hy, hid⟩ := hi
  rw [hx] at hy
  cases hy
  exact hid

theorem SendHandle.Is.lt {hs : List SendHandle} {h : Nat} (hi : SendHandle.Is hs h id) :
    h < hs.length := by
  obtain ⟨y, hy, -⟩ := hi
  exact (List.getElem?_eq_some_iff.1 hy).1

/-- The handle with the index `j` is alive and one of the stream `id`. -/
def SendHandle.Alive (hs : List SendHandle) (j : Nat) (id : StreamId) : Prop :=
  ∃ y, hs[j]? = some y ∧ y.alive = true ∧ y.id = id

theorem SendHandle.Alive.is {hs : List SendHandle} {j : Nat} (ha : SendHandle.Alive hs j id) :
    SendHandle.Is hs j id := by
  obtain ⟨y, hy, -, hid⟩ := ha
  exact ⟨y, hy, hid⟩

theorem SendHandle.Alive.modify {hs : List SendHandle} {j i : Nat} {g : SendHandle → SendHandle}
    (ha : SendHandle.Alive hs j id) (hg : ∀ x, (g x).id = x.id)
    (hl : i = j → ∀ x, (g x).alive = x.alive) : SendHandle.Alive (hs.modify i g) j id := by
  obtain ⟨y, hy, hlive, hid⟩ := ha
  by_cases hi : i = j
  · refine ⟨g y, ?_, (hl hi y).trans hlive, (hg y).trans hid⟩
    rw [hi, List.getElem?_modify_eq, hy]
    rfl
  · refine ⟨y, ?_, hlive, hid⟩
    rw [List.getElem?_modify, hy]
    simp [hi]

/-- A handle is alive until it is released. -/
theorem SendHandle.Alive.apply {j : Nat} {a : Access} (ha : SendHandle.Alive m.handles j id)
    (hr : a ≠ .handle (.release j)) : SendHandle.Alive (m.apply a).handles j id := by
  cases a with
  | handle b =>
      cases b with
      | new i held =>
          obtain ⟨y, hy, hlive⟩ := ha
          exact ⟨y, (List.getElem?_append_left (List.getElem?_eq_some_iff.1 hy).1).trans hy, hlive⟩
      | release h =>
          refine SendHandle.Alive.modify ha (fun _ => rfl) ?_
          rintro rfl
          exact absurd rfl hr
      | _ => exact SendHandle.Alive.modify ha (fun _ => rfl) fun _ _ => rfl
  | session clone => cases clone <;> exact ha
  | _ => exact ha

/-- A handle is an old one, or a new one, which is alive. -/
theorem SendHandle.old_or_new {a : Access} {i : Nat} (h : SendHandle.Is (m.apply a).handles i id) :
    SendHandle.Is m.handles i id ∨
      i = m.handles.length ∧ SendHandle.Alive (m.apply a).handles i id := by
  have hmod : ∀ {j : Nat} {g : SendHandle → SendHandle},
      SendHandle.Is (m.handles.modify j g) i id → (∀ x, (g x).id = x.id) →
      SendHandle.Is m.handles i id := by
    rintro j g ⟨x, hx, rfl⟩ hg
    rw [List.getElem?_modify] at hx
    obtain ⟨y, hy, rfl⟩ := Option.map_eq_some_iff.1 hx
    refine ⟨y, hy, ?_⟩
    split_ifs
    · exact (hg y).symm
    · rfl
  cases a with
  | handle b =>
      cases b with
      | new i' held =>
          obtain ⟨x, hx, hid⟩ := h
          rcases Nat.lt_or_ge i m.handles.length with hlt | hge
          · exact .inl ⟨x, by
              rw [← hx]
              exact (List.getElem?_append_left hlt).symm, hid⟩
          · have hi : i = m.handles.length := by
              have hlen := (List.getElem?_eq_some_iff.1 hx).1
              simp only [Memory.apply, SendHandle.apply, List.length_append,
                List.length_singleton] at hlen
              omega
            refine .inr ⟨hi, x, hx, ?_, hid⟩
            rw [hi] at hx
            simp only [Memory.apply, SendHandle.apply, List.getElem?_concat_length,
              Option.some.injEq] at hx
            rw [← hx]
      | _ => exact .inl (hmod h fun _ => rfl)
  | session clone => cases clone <;> exact .inl h
  | _ => exact .inl h

/-- Only the last step of a drop releases a handle. -/
theorem Task.leaves_of_release {t t' : Task} {j : Nat}
    (hn : t.next cfg m = some (.handle (.release j), t')) : t.dropPhase = some (.leaves j) := by
  generalize ha : Access.handle (.release j) = a at hn
  replace hn := Task.steps_of_next hn
  induction hn with
  | releaseHandle h k =>
      cases ha
      rfl
  | closeAll c k => cases c <;> cases ha
  | _ => cases ha

theorem Call.start_ne_release {c : Call} {u : Use} {a : Access} {t : Task} {j : Nat}
    (hc : c.start m = some (u, a, t)) : a ≠ .handle (.release j) := by
  rintro rfl
  cases Call.starts_of_start hc

/-- Another clone is counted too. -/
theorem SendHandle.exists_other {hs : List SendHandle} {j : Nat} (ha : SendHandle.Alive hs j id)
    (hc : SendHandle.strongCount hs id ≠ 1) : ∃ i, i ≠ j ∧ SendHandle.Alive hs i id := by
  obtain ⟨y, hy, hlive, hid⟩ := ha
  obtain ⟨i, hi, z, hz, hp⟩ := exists_ne_of_countP_ne_one hy (by simp [hlive, hid]) hc
  have hzp := Bool.and_eq_true_iff.1 hp
  exact ⟨i, hi, z, hz, hzp.1, of_decide_eq_true hzp.2⟩

/-! ## Whole runs -/

/-- What is known in a phase of a drop. -/
def DropPhase.Holds (m : Memory) : DropPhase → Prop
  | .cleared h id => SendHandle.Is m.handles h id ∧ id ∉ m.sends.flows
  | .asks h => ∃ id, SendHandle.Is m.handles h id ∧ id ∉ m.sends.flows
  | .asked h =>
      ∃ id, SendHandle.Is m.handles h id ∧ id ∉ m.sends.flows ∧ m.flags.shutdownStarted = true
  | .leaves h => ∃ id, SendHandle.Is m.handles h id

/-- A handle that is about to be released is not the last one, or its stream is clean. -/
structure LastClone (cfg : Config) (v : View) : Prop where
  tidy : ∀ t ∈ v.tasks, t.Tidy
  phase : ∀ t ∈ v.tasks, ∀ p, t.dropPhase = some p → p.Holds v.mem
  owner : ∀ i id, SendHandle.Is v.mem.handles i id → (v.mem.sendDirection cfg id).Clean ∨
    ∃ j, SendHandle.Alive v.mem.handles j id ∧ ∀ t ∈ v.tasks, t.dropPhase ≠ some (.leaves j)

/-- No drop reads the strong count while another one of the same stream has only to release its
handle. -/
def View.DropsAlone (v : View) (who : Option Nat) : Prop :=
  ∀ i h id k, who = some i → v.tasks[i]? = some (.dropSend h id k) →
    ∀ t ∈ v.tasks, ∀ j, t.dropPhase = some (.leaves j) → ¬ SendHandle.Is v.mem.handles j id

theorem Memory.shutdownStarted_apply (a : Access) (h : m.flags.shutdownStarted = true) :
    (m.apply a).flags.shutdownStarted = true := by
  cases a with
  | flag b => cases b <;> first | exact h | rfl
  | session clone => cases clone <;> exact h
  | _ => exact h

/-- What a move means for the drops in progress. -/
theorem Moves.drops (hm : Moves cfg v who v') (htidy : ∀ t ∈ v.tasks, t.Tidy) :
    ∃ a, v'.mem = v.mem.apply a ∧
      (∀ t' ∈ v'.tasks, t' ∈ v.tasks ∨ t'.Apart ∨
        ∃ i t, who = some i ∧ v.tasks[i]? = some t ∧ t.next cfg v.mem = some (a, t')) ∧
      ∀ j, a = .handle (.release j) → ∃ t ∈ v.tasks, t.dropPhase = some (.leaves j) := by
  have hset : ∀ {i : Nat} {x t' : Task} {Q : Prop}, x ∈ v.tasks.set i t' → (x = t' → Q) →
      x ∈ v.tasks ∨ Q := by
    intro i x t' Q hx hq
    exact (List.mem_or_eq_of_mem_set hx).imp_right hq
  cases hm with
  | @next i t t' a hi hn =>
      refine ⟨a, rfl, fun x hx => hset hx ?_, ?_⟩
      · rintro rfl
        exact .inr ⟨i, t, rfl, hi, hn⟩
      · rintro j rfl
        exact ⟨t, List.mem_of_getElem? hi, Task.leaves_of_release hn⟩
  | cancel hi hc =>
      exact ⟨.skip, rfl, fun x hx => hset hx fun h => .inl (h ▸ Task.apart_cancelled hc), nofun⟩
  | timeout hi hc =>
      exact ⟨.skip, rfl, fun x hx => hset hx fun h => .inl (h ▸ Task.apart_timedOut hc), nofun⟩
  | abort hi ha =>
      have ht := Task.apart_aborted (htidy _ (List.mem_of_getElem? hi)) ha
      exact ⟨.skip, rfl, fun x hx => hset hx fun h => .inl (h ▸ ht), nofun⟩
  | turn hi ht => exact ⟨.skip, rfl, fun x hx => hset hx fun h => .inl (h ▸ ht.apart), nofun⟩
  | exit hi =>
      exact ⟨.chan .dropRx, rfl, fun x hx => hset hx fun h => .inl (h ▸ ⟨trivial, rfl⟩), nofun⟩
  | @spawn who c u a t hc =>
      refine ⟨a, rfl, fun x hx => ?_, fun j hj => absurd hj (Call.start_ne_release hc)⟩
      rcases List.mem_append.1 hx with hx | hx
      · exact .inl hx
      · cases List.mem_singleton.1 hx
        exact .inr (.inl (Call.apart_start hc))
  | @loop who a b ha hb =>
      refine ⟨a, rfl, fun x hx => .inl hx, ?_⟩
      rintro j rfl
      cases ha

/-- What is known in a phase of a drop stays true. -/
theorem DropPhase.Holds.apply {p : DropPhase} {a : Access} (hp : p.Holds m)
    (hgone : ∀ i id, SendHandle.Is m.handles i id → id ∉ m.sends.flows →
      id ∉ (m.apply a).sends.flows) : p.Holds (m.apply a) := by
  cases p with
  | cleared h id => exact ⟨hp.1.apply a, hgone h id hp.1 hp.2⟩
  | asks h =>
      obtain ⟨id, hi, hf⟩ := hp
      exact ⟨id, hi.apply a, hgone h id hi hf⟩
  | asked h =>
      obtain ⟨id, hi, hf, hs⟩ := hp
      exact ⟨id, hi.apply a, hgone h id hi hf, Memory.shutdownStarted_apply a hs⟩
  | leaves h =>
      obtain ⟨id, hi⟩ := hp
      exact ⟨id, hi.apply a⟩

/-- A handle that is about to be released exists. -/
theorem Task.Comes.is {t : Task} {a : Access} {h : Nat} (hc : t.Comes m a (.leaves h))
    (hnm : t.Named m.handles) (hph : ∀ p, t.dropPhase = some p → p.Holds m) :
    ∃ id, SendHandle.Is m.handles h id := by
  cases hc with
  | @shared _ id k ht hc =>
      subst ht
      exact ⟨id, hnm.1⟩
  | finished ht hf => exact ⟨_, (hph _ ht).1⟩
  | reset ht => exact ⟨_, (hph _ ht).1⟩
  | cancel ht =>
      obtain ⟨id, hi, -⟩ := hph _ ht
      exact ⟨id, hi⟩

/-- A function that comes to a phase of a drop makes true what is known in it. -/
theorem Task.Comes.holds {t : Task} {a : Access} {p : DropPhase} (hc : t.Comes m a p)
    (hnm : t.Named m.handles) (hph : ∀ p, t.dropPhase = some p → p.Holds m)
    (hgone : ∀ i id, SendHandle.Is m.handles i id → id ∉ m.sends.flows →
      id ∉ (m.apply a).sends.flows) : p.Holds (m.apply a) := by
  cases p with
  | cleared h id =>
      cases hc with
      | @remove _ _ k ht =>
          subst ht
          exact ⟨hnm.1.apply _, Finset.notMem_erase id _⟩
      | check ht => exact (hph _ ht).apply hgone
  | asks h =>
      cases hc with
      | fail ht => exact ⟨_, (hph _ ht).1.apply _, hgone _ _ (hph _ ht).1 (hph _ ht).2⟩
  | asked h =>
      cases hc with
      | store ht =>
          obtain ⟨id, hi, hf⟩ := hph _ ht
          exact ⟨id, hi.apply _, hgone _ _ hi hf, rfl⟩
  | leaves h =>
      obtain ⟨id, hi⟩ := hc.is hnm hph
      exact ⟨id, hi.apply _⟩

/-- A handle is about to be released: another clone was counted, or the stream is clean. -/
theorem Task.Comes.shared_or_clean {t : Task} {a : Access} {j : Nat}
    (hc : t.Comes m a (.leaves j)) (hnm : t.Named m.handles)
    (hph : ∀ p, t.dropPhase = some p → p.Holds m) (hj : SendHandle.Is m.handles j id) :
    (∃ k, t = .dropSend j id k ∧ SendHandle.strongCount m.handles id ≠ 1) ∨
      ((m.apply a).sendDirection cfg id).Clean := by
  obtain ⟨x, hx, rfl⟩ := hj
  cases hc with
  | @shared _ i k ht hc =>
      subst ht
      cases hnm.1.eq hx
      exact .inl ⟨k, rfl, hc⟩
  | finished ht hf =>
      obtain ⟨hi, hflow⟩ := hph _ ht
      cases hi.eq hx
      exact .inr ⟨decide_eq_false hflow, .inl hf⟩
  | reset ht =>
      obtain ⟨hi, hflow⟩ := hph _ ht
      cases hi.eq hx
      refine .inr ⟨decide_eq_false hflow, .inr (.inl ?_)⟩
      simp [Memory.sendDirection, SendTable.direction, Memory.apply, Channel.apply,
        Channel.enqueue, sendItem]
  | cancel ht =>
      obtain ⟨i, hi, hflow, hs⟩ := hph _ ht
      cases hi.eq hx
      exact .inr ⟨decide_eq_false hflow, .inr (.inr hs)⟩

/-- A function comes to a phase of a drop in a move, or was in it before. -/
theorem LastClone.comes (hl : LastClone cfg v) {a : Access} {t' : Task} {p : DropPhase}
    (ht : t' ∈ v.tasks ∨ t'.Apart ∨
      ∃ i t, who = some i ∧ v.tasks[i]? = some t ∧ t.next cfg v.mem = some (a, t'))
    (hp : t'.dropPhase = some p) :
    t' ∈ v.tasks ∨ ∃ i t, who = some i ∧ v.tasks[i]? = some t ∧
      t.next cfg v.mem = some (a, t') ∧ t.Comes v.mem a p := by
  rcases ht with ht | ht | ⟨i, t, hi, hti, hn⟩
  · exact .inl ht
  · rw [ht.2] at hp
    cases hp
  · have hstep := Task.drop_next (hl.tidy t (List.mem_of_getElem? hti)) hn
    exact .inr ⟨i, t, hi, hti, hn, hstep.comes p hp⟩

section Move

variable {a : Access} {ts : List Task} {i j : Nat}

/-- The clone `j` was not being released: after the move it still is not, or it was found not to be
alone, or its stream is clean. -/
theorem LastClone.owner_kept (hl : LastClone cfg v) (hnm : HandleNames v) (hal : v.DropsAlone who)
    (htasks : ∀ t' ∈ ts, t' ∈ v.tasks ∨ t'.Apart ∨
      ∃ i t, who = some i ∧ v.tasks[i]? = some t ∧ t.next cfg v.mem = some (a, t'))
    (hrel : ∀ j, a = .handle (.release j) → ∃ t ∈ v.tasks, t.dropPhase = some (.leaves j))
    (hj : SendHandle.Alive v.mem.handles j id)
    (hno : ∀ t ∈ v.tasks, t.dropPhase ≠ some (.leaves j)) :
    ((v.mem.apply a).sendDirection cfg id).Clean ∨
      ∃ j, SendHandle.Alive (v.mem.apply a).handles j id ∧
        ∀ t ∈ ts, t.dropPhase ≠ some (.leaves j) := by
  by_cases hex : ∃ t' ∈ ts, t'.dropPhase = some (.leaves j)
  · obtain ⟨t', ht', hp⟩ := hex
    rcases hl.comes (htasks t' ht') hp with ht | ⟨n, t, hn, hti, hnext, hc⟩
    · exact absurd hp (hno t' ht)
    · have hmem := List.mem_of_getElem? hti
      rcases hc.shared_or_clean (hnm.tasks t hmem) (hl.phase t hmem) hj.is with
        ⟨k, rfl, hcount⟩ | hclean
      · -- the other clone that was counted is not being released, since drops do not overlap
        obtain ⟨j', hne, hj'⟩ := SendHandle.exists_other hj hcount
        have hidle : ∀ t ∈ v.tasks, t.dropPhase ≠ some (.leaves j') := fun x hx hxp =>
          hal n j id k hn hti x hx j' hxp hj'.is
        refine .inr ⟨j', hj'.apply ?_, ?_⟩
        · rintro rfl
          obtain ⟨x, hx, hxp⟩ := hrel j' rfl
          exact hidle x hx hxp
        · intro x hx hxp
          rcases hl.comes (htasks x hx) hxp with hx | ⟨n', t₂, hn', hti', hnext', -⟩
          · exact hidle x hx hxp
          · cases hn.symm.trans hn'
            cases hti.symm.trans hti'
            cases hnext.symm.trans hnext'
            cases hp.symm.trans hxp
            exact hne rfl
      · exact .inl hclean
  · refine .inr ⟨j, hj.apply ?_, fun t' ht' hp => hex ⟨t', ht', hp⟩⟩
    rintro rfl
    obtain ⟨x, hx, hxp⟩ := hrel j rfl
    exact hno x hx hxp

/-- **A move keeps the last clone**, if drops do not overlap. -/
theorem LastClone.moves (hl : LastClone cfg v) (hnm : HandleNames v) (hm : Moves cfg v who v')
    (hal : v.DropsAlone who)
    (hgone : ∀ i id, SendHandle.Is v.mem.handles i id → id ∉ v.mem.sends.flows →
      id ∉ v'.mem.sends.flows)
    (hclean : ∀ i id, SendHandle.Is v.mem.handles i id → (v.mem.sendDirection cfg id).Clean →
      (v'.mem.sendDirection cfg id).Clean) : LastClone cfg v' := by
  obtain ⟨a, ha, htasks, hrel⟩ := hm.drops hl.tidy
  rw [ha] at hgone hclean
  refine ⟨?_, ?_, ?_⟩
  · intro t' ht
    rcases htasks t' ht with ht | ht | ⟨i, t, -, hti, hn⟩
    · exact hl.tidy t' ht
    · exact ht.1
    · exact (Task.drop_next (hl.tidy t (List.mem_of_getElem? hti)) hn).tidy
  · intro t' ht p hp
    rw [ha]
    rcases hl.comes (htasks t' ht) hp with ht | ⟨i, t, -, hti, -, hc⟩
    · exact (hl.phase t' ht p hp).apply hgone
    · have hmem := List.mem_of_getElem? hti
      exact hc.holds (hnm.tasks t hmem) (hl.phase t hmem) hgone
  · intro i id hi
    rw [ha] at hi ⊢
    rcases SendHandle.old_or_new hi with hi | ⟨hlen, halive⟩
    · rcases hl.owner i id hi with hc | ⟨j, hj, hno⟩
      · exact .inl (hclean i id hi hc)
      · exact hl.owner_kept hnm hal htasks hrel hj hno
    · -- a new handle is not being dropped
      refine .inr ⟨i, halive, ?_⟩
      intro t' ht' hp
      obtain ⟨_, hold⟩ : ∃ id, SendHandle.Is v.mem.handles i id := by
        rcases hl.comes (htasks t' ht') hp with ht | ⟨n, t, -, hti, -, hc⟩
        · exact hl.phase t' ht _ hp
        · have hmem := List.mem_of_getElem? hti
          exact hc.is (hnm.tasks t hmem) (hl.phase t hmem)
      have hlt := hold.lt
      omega

end Move

/-- Whether a function only has to release a handle of the stream `id`. -/
def Task.releases (hs : List SendHandle) (id : StreamId) : Task → Bool
  | .releaseHandle h _ => (hs[h]?).any fun x => x.id = id
  | _ => false

/-- The condition that drops do not overlap: a step that reads the strong count of a stream comes
when no other drop has read it and has still to release its handle. -/
def Session.dropsAlone (s : Session) (l : Label) : Bool :=
  match s.acting l with
  | some (.dropSend _ id _) => s.tasks.all fun t => !t.releases s.mem.handles id
  | _ => true

theorem Session.dropsAlone_view {s : Session} {l : Label} (h : s.dropsAlone l = true) :
    s.view.DropsAlone l.actor := by
  intro i x id k hi hti t ht j hp his
  have hact : s.acting l = some (.dropSend x id k) := Session.acting_eq hi hti
  unfold Session.dropsAlone at h
  rw [hact] at h
  have hnot := List.all_eq_true.1 h t ht
  cases t with
  | releaseHandle j' k' =>
      cases hp
      obtain ⟨y, hy, rfl⟩ := his
      have hy' : s.mem.handles[j]? = some y := hy
      simp [Task.releases, hy'] at hnot
  | anyOf fs c =>
      cases c with
      | trySend site k' => cases site <;> cases hp
      | _ => cases hp
  | trySend site k' => cases site <;> cases hp
  | storeShutdown k' => cases k' <;> cases hp
  | cancel k' => cases k' <;> cases hp
  | _ => cases hp

/-- **The last clone in every run** without overlapping drops. -/
theorem lastClone_of_reachable {s : Session}
    (hr : Reachable (Session.step cfg) (fun s l => s.dropsAlone l = true) {} s) :
    LastClone cfg s.view := by
  refine hr.invariant (I := fun s => LastClone cfg s.view) ?_ ?_
  · refine ⟨?_, ?_, ?_⟩
    · intro t ht
      rcases List.mem_cons.1 ht with rfl | ht
      · trivial
      · cases List.mem_singleton.1 ht
        trivial
    · intro t ht p hp
      rcases List.mem_cons.1 ht with rfl | ht
      · cases hp
      · cases List.mem_singleton.1 ht
        cases hp
    · rintro i id ⟨x, hx, -⟩
      cases hx
  · intro s l s' hr hl hok hs
    have hinv := sendsInv_of_reachable hr
    have hreg : ∀ {i id}, SendHandle.Is s.mem.handles i id →
        0 < (s.mem.sendDirection cfg id).registered := by
      rintro i id ⟨x, hx, rfl⟩
      exact List.count_pos_iff.2 (hinv.shared.handles x (List.mem_of_getElem? hx))
    refine hl.moves (handleNames_of_reachable hr) (Session.moves_of_step hs)
      (Session.dropsAlone_view hok) ?_ ?_
    · intro i id hi hf
      have hstep := sendPoolStep_of_step hr hs id
      exact of_decide_eq_false
        ((hinv.send id).removed_stable hstep (hreg hi) (decide_eq_false hf))
    · intro i id hi hc
      exact (hinv.send id).clean_stable (sendPoolStep_of_step hr hs id) (hreg hi) hc

theorem exists_reset_of_mem {fs : List Frame} (h : .reset ∈ fs.filterMap (sendItem id)) :
    ∃ code, .resetStream id code ∈ fs := by
  obtain ⟨f, hf, hi⟩ := List.mem_filterMap.1 h
  cases f with
  | resetStream i code =>
      simp only [sendItem] at hi
      split_ifs at hi with hid
      exact ⟨code, hid ▸ hf⟩
  | stream i data fin =>
      simp only [sendItem] at hi
      split_ifs at hi
      cases hi
  | _ => cases hi

/-- **The last clone cleans up.** In a run in which no drop reads the strong count while another one
of the same stream has only to release its handle, once all clones of a stream are gone its flow is
removed, and, unless `finish` or `reset` has marked the stream finished, a reset is queued or
shutdown is requested. -/
theorem last_clone_cleans_up {s : Session}
    (hr : Reachable (Session.step cfg) (fun s l => s.dropsAlone l = true) {} s)
    (hex : ∃ x ∈ s.mem.handles, x.id = id)
    (hgone : ∀ x ∈ s.mem.handles, x.id = id → x.alive = false) :
    id ∉ s.mem.sends.flows ∧
      ((s.mem.sends.cell id).finished = false →
        (∃ code, .resetStream id code ∈ s.mem.chan.admitted) ∨
          s.mem.flags.shutdownStarted = true) := by
  obtain ⟨x, hx, hid⟩ := hex
  obtain ⟨i, hi⟩ := List.getElem?_of_mem hx
  rcases (lastClone_of_reachable hr).owner i id ⟨x, hi, hid⟩ with hc | ⟨j, ⟨y, hy, hlive, hyid⟩, -⟩
  · refine ⟨of_decide_eq_false hc.1, fun hfin => ?_⟩
    rcases hc.2 with hf | hreset | hdead
    · have hf : (s.mem.sends.cell id).finished = true := hf
      rw [hfin] at hf
      cases hf
    · exact .inl (exists_reset_of_mem hreset)
    · exact .inr hdead
  · have hdead := hgone y (List.mem_of_getElem? hy) hyid
    rw [hlive] at hdead
    cases hdead

/-- The only handle of an open stream is dropped: the stream is reset. -/
theorem last_clone_cleans_up_run :
    ∃ s, Reachable (Session.step ⟨false, {}⟩) (fun s l => s.dropsAlone l = true) {} s ∧
      (⟨2⟩ : StreamId) ∉ s.mem.sends.flows ∧
        ((∃ code, .resetStream ⟨2⟩ code ∈ s.mem.chan.admitted) ∨
          s.mem.flags.shutdownStarted = true) := by
  obtain ⟨s, hr, hex, hgone, hfin⟩ :
      ∃ s, Reachable (Session.step ⟨false, {}⟩) (fun s l => s.dropsAlone l = true) {} s ∧
        (∃ x ∈ s.mem.handles, x.id = ⟨2⟩) ∧
        (∀ x ∈ s.mem.handles, x.id = ⟨2⟩ → x.alive = false) ∧
        (s.mem.sends.cell ⟨2⟩).finished = false :=
    Reachable.exists_of_run (List.flatten [[.call .openUni], List.replicate 7 (.op 0),
      [.call (.dropSend 0)], List.replicate 7 (.op 1)]) (by decide +kernel)
  have h := last_clone_cleans_up hr hex hgone
  exact ⟨s, hr, h.1, h.2 hfin⟩

/-- **Overlapping drops leak.** Two clones are dropped, and both drops read a strong count of two
before either releases its handle: all clones are gone, and the flow is still in the table, without
a reset and without a shutdown. -/
theorem overlapping_drops_leak :
    ∃ s, Reachable (Session.step ⟨false, {}⟩) anyStep {} s ∧
      (s.mem.handles.map fun x => (x.id, x.alive)) = [(⟨2⟩, false), (⟨2⟩, false)] ∧
      (s.tasks.all Task.isDone) = true ∧ (⟨2⟩ : StreamId) ∈ s.mem.sends.flows ∧
      s.mem.chan.admitted = [.openUni ⟨2⟩] ∧ s.mem.flags.shutdownStarted = false :=
  Reachable.exists_of_run (List.flatten [[.call .openUni], List.replicate 7 (.op 0),
    [.call (.cloneSend 0), .call (.dropSend 0), .call (.dropSend 1), .op 2, .op 3, .op 2,
    .op 3]])
    (by decide +kernel)

end WebsockMux.Native
