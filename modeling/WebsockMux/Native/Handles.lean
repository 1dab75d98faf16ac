import WebsockMux.Native.RecvInvariant

/-!
# Handles and the streams they name

A function that passes a `SendStream` on, or drops one, carries the index of the handle together
with the identifier of its stream. Handles keep their identifier, so the two agree wherever they
meet again (`handleNames_of_reachable`).
-/

set_option autoImplicit false

namespace WebsockMux.Native

open WebsockMux.Lib WebsockMux.Proto

variable {cfg : Config} {m : Memory} {hs : List SendHandle} {v v' : View} {who : Option Nat}
  {h : Nat} {id : StreamId}

/-- The handle with the index `h` is one of the stream `id`. -/
def SendHandle.Is (hs : List SendHandle) (h : Nat) (id : StreamId) : Prop :=
  ∃ x, hs[h]? = some x ∧ x.id = id

theorem SendHandle.Is.concat (hx : SendHandle.Is hs h id) (y : SendHandle) :
    SendHandle.Is (hs ++ [y]) h id := by
  obtain ⟨x, hx, hid⟩ := hx
  exact ⟨x, (List.getElem?_append_left (List.getElem?_eq_some_iff.1 hx).1).trans hx, hid⟩

theorem SendHandle.Is.modify (hx : SendHandle.Is hs h id) {g : SendHandle → SendHandle}
    (hg : ∀ x, (g x).id = x.id) (i : Nat) : SendHandle.Is (hs.modify i g) h id := by
  obtain ⟨x, hx, hid⟩ := hx
  by_cases hi : i = h
  · refine ⟨g x, ?_, (hg x).trans hid⟩
    rw [hi, List.getElem?_modify_eq, hx]
    rfl
  · refine ⟨x, ?_, hid⟩
    rw [List.getElem?_modify, hx]
    simp [hi]

/-- A handle keeps its identifier. -/
theorem SendHandle.Is.apply (hx : SendHandle.Is m.handles h id) (a : Access) :
    SendHandle.Is (m.apply a).handles h id := by
  cases a with
  | handle b =>
      cases b with
      | new i held => exact hx.concat _
      | _ =>
          refine SendHandle.Is.modify hx ?_ _
          intro x
          rfl
  | session clone => cases clone <;> exact hx
  | _ => exact hx

/-! ## The handles that a function names -/

/-- The handles that are dropped before a function returns are those of the named streams. -/
def Ret.Named (hs : List SendHandle) : Ret → Prop
  | .dropSend h id k => SendHandle.Is hs h id ∧ k.Named hs
  | .requestShutdown k => k.Named hs
  | .protocolError _ _ k => k.Named hs
  | .releaseHandle _ k => k.Named hs
  | .closeReceiver _ k => k.Named hs
  | .dropRecv _ k => k.Named hs
  | .dropTx _ k => k.Named hs
  | _ => True

def TrySite.Named (hs : List SendHandle) : TrySite → Prop
  | .dropSend h id => SendHandle.Is hs h id
  | _ => True

/-- The handles that a function passes on or drops are those of the named streams. -/
def Task.Named (hs : List SendHandle) : Task → Prop
  | .anyOf _ (.trySend s k) => s.Named hs ∧ k.Named hs
  | .anyOf _ (.dropSend h id k) => SendHandle.Is hs h id ∧ k.Named hs
  | .trySend s k => s.Named hs ∧ k.Named hs
  | .storeShutdown k => k.Named hs
  | .cancel k => k.Named hs
  | .closeAll _ k => k.Named hs
  | .dropSend h id k => SendHandle.Is hs h id ∧ k.Named hs
  | .dropSendRemove h id k => SendHandle.Is hs h id ∧ k.Named hs
  | .releaseHandle _ k => k.Named hs
  | .dropRecv _ k => k.Named hs
  | .dropRecvSwap _ k => k.Named hs
  | .closeReceiver _ k => k.Named hs
  | .dropTx _ k => k.Named hs
  | .acceptLock id (some h) => SendHandle.Is hs h id
  | .acceptSend id (some h) => SendHandle.Is hs h id
  | .holdSend h id => SendHandle.Is hs h id
  | _ => True

theorem Ret.Named.apply {k : Ret} (hk : k.Named m.handles) (a : Access) :
    k.Named (m.apply a).handles := by
  induction k with
  | dropSend h id k ih => exact ⟨hk.1.apply a, ih hk.2⟩
  | requestShutdown k ih => exact ih hk
  | protocolError code reason k ih => exact ih hk
  | releaseHandle h k ih => exact ih hk
  | closeReceiver id k ih => exact ih hk
  | dropRecv id k ih => exact ih hk
  | dropTx id k ih => exact ih hk
  | _ => trivial

theorem TrySite.Named.apply {s : TrySite} (hs : s.Named m.handles) (a : Access) :
    s.Named (m.apply a).handles := by
  cases s with
  | dropSend h id => exact SendHandle.Is.apply hs a
  | _ => trivial

theorem Task.Named.apply {t : Task} (ht : t.Named m.handles) (a : Access) :
    t.Named (m.apply a).handles := by
  cases t with
  | anyOf flags c =>
      cases c with
      | trySend s k => exact ⟨ht.1.apply a, ht.2.apply a⟩
      | dropSend h id k => exact ⟨ht.1.apply a, ht.2.apply a⟩
      | _ => trivial
  | trySend s k => exact ⟨ht.1.apply a, ht.2.apply a⟩
  | dropSend h id k => exact ⟨ht.1.apply a, ht.2.apply a⟩
  | dropSendRemove h id k => exact ⟨ht.1.apply a, ht.2.apply a⟩
  | storeShutdown k => exact Ret.Named.apply ht a
  | cancel k => exact Ret.Named.apply ht a
  | closeAll c k => exact Ret.Named.apply ht a
  | releaseHandle h k => exact Ret.Named.apply ht a
  | dropRecv i k => exact Ret.Named.apply ht a
  | dropRecvSwap i k => exact Ret.Named.apply ht a
  | closeReceiver i k => exact Ret.Named.apply ht a
  | dropTx i k => exact Ret.Named.apply ht a
  | holdSend h id => exact SendHandle.Is.apply ht a
  | acceptLock id x =>
      cases x with
      | none => trivial
      | some h => exact SendHandle.Is.apply ht a
  | acceptSend id x =>
      cases x with
      | none => trivial
      | some h => exact SendHandle.Is.apply ht a
  | _ => trivial

/-! ## Steps -/

theorem Ret.named_resume {k : Ret} (hk : k.Named hs) : k.resume.Named hs := by
  cases k with
  | protocolError code reason k => exact ⟨trivial, hk⟩
  | _ => exact hk

theorem TrySite.named_resume {s : TrySite} {k : Ret} (hs' : s.Named hs) (hk : k.Named hs)
    (b : Bool) : (s.resume k b).Named hs := by
  cases s <;> cases b <;> exact hk

theorem SendSite.named_resume (s : SendSite) (b : Bool) : (s.resume cfg b).Named hs := by
  cases s with
  | inboundCredit id bi => cases bi <;> cases b <;> trivial
  | write c =>
      cases b with
      | false => trivial
      | true =>
          simp only [SendSite.resume, writeLoop]
          split_ifs <;> trivial
  | _ => cases b <;> trivial

theorem acceptDrop_named {x : Option Nat} (hx : ∀ h, x = some h → SendHandle.Is hs h id) :
    (acceptDrop id x).Named hs := by
  cases x with
  | none => trivial
  | some h => exact ⟨hx h rfl, trivial⟩

theorem Check.named_resume {c : Check} {fs : List Flag} (hc : (Task.anyOf fs c).Named hs)
    (b : Bool) : (c.resume cfg b).Named hs := by
  cases c with
  | send s =>
      cases b with
      | false => trivial
      | true => exact s.named_resume false
  | trySend s k =>
      cases b with
      | false => exact hc
      | true => exact TrySite.named_resume hc.1 hc.2 false
  | dropSend h id k =>
      cases b with
      | false => exact hc
      | true => exact hc.2
  | writeStart w =>
      cases b with
      | false =>
          simp only [Check.resume, writeLoop]
          split_ifs <;> trivial
      | true => trivial
  | reserveOpen w =>
      cases b with
      | false => trivial
      | true =>
          simp only [Check.resume, outOfCredit]
          split_ifs <;> trivial
  | noCredit w =>
      cases b with
      | false =>
          simp only [Check.resume]
          split_ifs <;> trivial
      | true => trivial
  | _ => cases b <;> trivial

/-- A step passes the handles of a function on under the same names. -/
theorem Task.named_next {t t' : Task} {a : Access} (ht : t.Named m.handles)
    (hq : ∀ p ∈ m.accept.bi, SendHandle.Is m.handles p.1 p.2) (hnew : ∀ i, t ≠ .newSend i)
    (hn : t.next cfg m = some (a, t')) : t'.Named m.handles := by
  replace hn := Task.steps_of_next hn
  induction hn with
  | newSend i => exact absurd rfl (hnew i)
  | anyOfNil | anyOfSet | anyOfLast => exact Check.named_resume ht _
  | anyOf f fs c => cases c <;> exact ht
  | reserveClosed s | publish s | unpublished s => exact s.named_resume _
  | trySend | trySendFull => exact TrySite.named_resume ht.1 ht.2 _
  | closeAll c k =>
      cases c with
      | closeFlows => exact Ret.named_resume ht
      | _ => exact ht
  | cancel | closeAllAgain | releaseHandle | closeReceiver | dropTx => exact Ret.named_resume ht
  | selectApi c | selectApiSame c => cases c <;> trivial
  | swapOperation c => cases c <;> simp only [SendCall.body] <;> (try split_ifs) <;> trivial
  | outOfCredit w => exact outOfCredit_elim w fun _ => trivial
  | casSent => exact granted_elim _ trivial trivial
  | storeShutdown | dropSendLast | dropSendRemove | dropRecvFinished | dropRecv | dropRecvGone
  | dropRecvAgain => exact ht
  | dropSend => exact ht.2
  | dropRecvSwap => exact ⟨trivial, ht⟩
  | acceptLock i x => cases x <;> exact ht
  | acceptLockGone i x | acceptClosed i x =>
      exact Ret.named_resume (acceptDrop_named (by rintro h rfl; exact ht))
  | acceptFull i x => exact ⟨trivial, acceptDrop_named (by rintro h rfl; exact ht)⟩
  | acceptBi h i rest hbi => exact hq (h, i) (by rw [hbi]; exact List.mem_cons_self)
  | drainBi h i rest hbi => exact ⟨hq (h, i) (by rw [hbi]; exact List.mem_cons_self), trivial⟩
  | _ => trivial

theorem Task.named_cancelled {t t' : Task} (hc : t.cancelled = some t') : t'.Named hs := by
  cases t with
  | reserve s => cases s <;> cases hc <;> trivial
  | _ => cases hc <;> trivial

theorem Task.named_timedOut {t t' : Task} (hc : t.timedOut = some t') : t'.Named hs := by
  cases t <;> cases hc <;> trivial

theorem Task.named_aborted {t t' : Task} (ht : t.Named hs) (ha : t.aborted = some t') :
    t'.Named hs := by
  cases t with
  | reserve s => cases s <;> cases ha <;> trivial
  | acceptLock i x =>
      cases ha
      exact Ret.named_resume (acceptDrop_named (by rintro h rfl; exact ht))
  | closeAll c k => cases c <;> cases ha <;> exact Ret.named_resume ht
  | _ => cases ha

theorem Turn.named {t t' : Task} {fs : List Frame} {b : Bool} (ht : Turn cfg v t t' fs b) :
    t'.Named hs := by
  cases ht with
  | @frame f hl hf =>
      cases f <;> simp only [handleFrame] <;> (try split_ifs) <;> trivial
  | _ => trivial

/-- The call of `drop` names the stream of its handle. -/
theorem Call.named_start {c : Call} {u : Use} {a : Access} {t : Task}
    (hc : c.start m = some (u, a, t)) : t.Named m.handles := by
  cases Call.starts_of_start hc with
  | @dropSend h x hx hh => exact ⟨⟨x, hx, rfl⟩, trivial⟩
  | _ => trivial

/-! ## Whole runs -/

/-- Handles and streams agree, in the functions in progress and in the accept queue. -/
structure HandleNames (v : View) : Prop where
  tasks : ∀ t ∈ v.tasks, t.Named v.mem.handles
  queue : ∀ p ∈ v.mem.accept.bi, SendHandle.Is v.mem.handles p.1 p.2

theorem Memory.queue_named (hq : ∀ p ∈ m.accept.bi, SendHandle.Is m.handles p.1 p.2) {a : Access}
    (hpush : ∀ i h, a = .accept (.push i (some h)) → SendHandle.Is m.handles h i) :
    ∀ p ∈ (m.apply a).accept.bi, SendHandle.Is (m.apply a).handles p.1 p.2 := by
  intro p hp
  refine SendHandle.Is.apply ?_ a
  cases a with
  | accept b =>
      rcases Accept.mem_bi_apply hp with hp | rfl
      · exact hq p hp
      · exact hpush _ _ rfl
  | session clone => cases clone <;> exact hq p hp
  | _ => exact hq p hp

theorem HandleNames.moves (hinv : HandleNames v) (hm : Moves cfg v who v') : HandleNames v' := by
  have hkeep : ∀ (a : Access), ∀ t ∈ v.tasks, t.Named (v.mem.apply a).handles :=
    fun a t ht => (hinv.tasks t ht).apply a
  cases hm with
  | @next i t t' a hi hn =>
      have ht := hinv.tasks t (List.mem_of_getElem? hi)
      refine ⟨forall_mem_set (hkeep a) ?_, Memory.queue_named hinv.queue ?_⟩
      · by_cases hnew : ∃ j, t = .newSend j
        · obtain ⟨j, rfl⟩ := hnew
          cases hn
          exact ⟨_, List.getElem?_concat_length, rfl⟩
        · exact (Task.named_next ht hinv.queue (fun j hj => hnew ⟨j, hj⟩) hn).apply a
      · rintro j x rfl
        rw [Task.eq_acceptSend hn] at ht
        exact ht
  | cancel hi hc => exact ⟨forall_mem_set hinv.tasks (Task.named_cancelled hc), hinv.queue⟩
  | timeout hi hc => exact ⟨forall_mem_set hinv.tasks (Task.named_timedOut hc), hinv.queue⟩
  | abort hi ha =>
      have ht := hinv.tasks _ (List.mem_of_getElem? hi)
      exact ⟨forall_mem_set hinv.tasks (Task.named_aborted ht ha), hinv.queue⟩
  | turn hi ht => exact ⟨forall_mem_set hinv.tasks ht.named, hinv.queue⟩
  | exit hi => exact ⟨forall_mem_set (hkeep _) trivial, hinv.queue⟩
  | @spawn who c u a t hc =>
      refine ⟨forall_mem_concat (hkeep a) ((Call.named_start hc).apply a),
        Memory.queue_named hinv.queue ?_⟩
      rintro j x rfl
      exact absurd rfl (Call.start_ne_push hc)
  | loop ha hb =>
      refine ⟨hkeep _, Memory.queue_named hinv.queue ?_⟩
      rintro j x rfl
      cases ha

/-- **Handles and streams agree** in every state of every run. -/
theorem handleNames_of_reachable {ok : Session → Label → Prop} {s : Session}
    (hr : Reachable (Session.step cfg) ok {} s) : HandleNames s.view := by
  induction hr with
  | init =>
      constructor
      · intro t ht
        simp only [Session.view, Session.tasks, List.map_nil, List.mem_cons, List.not_mem_nil,
          or_false] at ht
        rcases ht with rfl | rfl <;> trivial
      · intro p hp
        cases hp
  | step hr _ hs ih => exact ih.moves (Session.moves_of_step hs)

end WebsockMux.Native
