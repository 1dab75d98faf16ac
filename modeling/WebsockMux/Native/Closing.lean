import WebsockMux.Native.EventSender
import WebsockMux.Native.Promises

/-!
# Closing a session

`close_all` runs step by step beside the functions that open or accept streams. A stream that the
application has, or that a function will hand to it, was registered before the function checked
`closed` or found the sender of the accept queue; so the steps of `close_all` that clear the tables
come later and reach it. What `close_all` has closed stays closed (`closing_strands_no_handle`).
-/

set_option autoImplicit false

namespace WebsockMux.Native

open WebsockMux.Lib WebsockMux.Proto

variable {cfg : Config} {m : Memory} {v v' : View} {who : Option Nat} {b : Bool} {id : StreamId}

/-! ## What is closed stays closed -/

/-- A registered flow that is closed is never opened again. -/
theorem SendInv.closed_stable {d d' : SendDirection} {rs rs' : List SendRole} (hinv : SendInv d rs)
    (hs : d.PoolStep rs d' rs') (hreg : 0 < d.registered) (hc : d.cell.flowClosed = true) :
    d'.cell.flowClosed = true := by
  cases hs with
  | act hi hs =>
      cases hs with
      | register h =>
          have hz := hinv.unregistered_of_token hi
          omega
      | updateMax r max =>
          have hcell := (SendDirection.updateMax_cell d max).1
          simp only [SendDirection.apply]
          rw [hcell]
          exact hc
      | finRemove => simp [SendDirection.apply, SendDirection.close, hc]
      | shutRemove => simp [SendDirection.apply, SendDirection.close, hc]
      | resetRemove => simp [SendDirection.apply, SendDirection.close, hc]
      | dropRemove => simp [SendDirection.apply, SendDirection.close, hc]
      | undoRemove => simp [SendDirection.apply, SendDirection.close, hc]
      | stopRemove h => simp [SendDirection.apply, SendDirection.close, hc]
      | clear r => simp [SendDirection.apply, SendDirection.close, hc]
      | _ => exact hc
  | _ => exact hc

/-- A registered flow is in the table or closed. -/
theorem SendDirection.PoolStep.open_or_closed {d d' : SendDirection} {rs rs' : List SendRole}
    (hs : d.PoolStep rs d' rs')
    (h : 0 < d.registered → d.isOpen = true ∨ d.cell.flowClosed = true) :
    0 < d'.registered → d'.isOpen = true ∨ d'.cell.flowClosed = true := by
  have hclose : 0 < d.registered → d.close.isOpen = true ∨ d.close.cell.flowClosed = true := by
    intro hreg
    rcases h hreg with ho | hc
    · exact .inr (by simp [SendDirection.close, ho])
    · exact .inr (by simp [SendDirection.close, hc])
  cases hs with
  | act hi hs =>
      cases hs with
      | register _ => exact fun _ => .inl rfl
      | updateMax r max =>
          intro hreg
          have hcell := (SendDirection.updateMax_cell d max).1
          rcases h hreg with ho | hc
          · exact .inl ho
          · refine .inr ?_
            simp only [SendDirection.apply]
            rw [hcell]
            exact hc
      | finRemove => exact hclose
      | shutRemove => exact hclose
      | resetRemove => exact hclose
      | dropRemove => exact hclose
      | undoRemove => exact hclose
      | stopRemove _ => exact hclose
      | clear r => exact hclose
      | _ => exact h
  | _ => exact h

/-- A registered receive stream that is not in the table is never put into it again. -/
theorem RecvOwner.removed_stable {l : Limits} {d d' : RecvDirection} {rs rs' : List RecvRole}
    {dead blocked : Prop} (hinv : RecvOwner d rs) (hs : d.PoolStep l rs dead blocked d' rs')
    (hreg : 0 < d.registered) (hin : d.inTable = false) : d'.inTable = false := by
  cases hs with
  | act hi hs =>
      cases hs with
      | register h =>
          have hz := hinv.unregistered_of_token hi
          omega
      | registerPeer =>
          have hz := hinv.unregistered_of_token hi
          omega
      | _ => first | exact hin | rfl
  | borrow hr he hh hone => rcases he with rfl | rfl <;> exact hin
  | _ => exact hin

/-! ## The steps of `close_all` -/

/-- A direction that `close_all` has reached: the flow is closed, or the table has no sender of
events any more. -/
def Memory.Gone (m : Memory) (b : Bool) (id : StreamId) : Prop :=
  if b then id ∉ m.recvs.streams else (m.sends.cell id).flowClosed = true

/-- `close_all` has reached every direction that the application has or will get. -/
structure Cleared (b : Bool) (v : View) : Prop where
  closed : v.mem.flags.closed = true
  accept : ∀ bi, v.mem.accept.hasTx bi = false
  gone : ∀ id, v.concerns b id → v.mem.Gone b id

theorem Memory.hasTx_apply {bi : Bool} (a : Access) (h : m.accept.hasTx bi = false) :
    (m.apply a).accept.hasTx bi = false := by
  cases a with
  | accept x =>
      cases x with
      | takeTx c => cases c <;> cases bi <;> first | rfl | exact h
      | push i k => cases k <;> exact h
      | pop c => cases c <;> exact h
      | closeRx c => cases c <;> exact h
  | session clone => cases clone <;> exact h
  | _ => exact h

section Run

variable {ok : Session → Label → Prop} {s s' : Session} {l : Label}

/-- What is closed stays closed. -/
theorem Memory.Gone.step (hr : Reachable (Session.step cfg) ok {} s) (hok : ok s l)
    (hs : s.step cfg l = some s') (hc : s.view.concerns b id) (hg : s.mem.Gone b id) :
    s'.mem.Gone b id := by
  cases b with
  | false =>
      exact ((sendsInv_of_reachable hr).send id).closed_stable (sendPoolStep_of_step hr hs id)
        (send_registered_of_concerns hr hc) hg
  | true =>
      have hin := ((recvsInv_of_reachable hr).owner id).removed_stable
        (recvPoolStep_of_step hr hok hs id) (recv_registered_of_concerns hr hc)
        (decide_eq_false hg)
      exact of_decide_eq_false hin

/-- **A step keeps what `close_all` has cleared.** -/
theorem Cleared.step (hr : Reachable (Session.step cfg) ok {} s) (hok : ok s l)
    (hs : s.step cfg l = some s') (hc : Cleared b s.view) : Cleared b s'.view := by
  have hm := Session.moves_of_step hs
  obtain ⟨a, ha⟩ := hm.mem_eq
  refine ⟨?_, ?_, ?_⟩
  · rw [ha]
    exact Memory.closed_apply a hc.closed
  · intro bi
    rw [ha]
    exact Memory.hasTx_apply a (hc.accept bi)
  · intro id hid
    have hid' := View.concerns_moves (handleNames_of_reachable hr) hc.closed hc.accept hm hid
    exact Memory.Gone.step hr hok hs hid' (hc.gone id hid')

end Run

/-- What has happened before a step of `close_all`. -/
def CloseStep.Reached (v : View) : CloseStep → Prop
  | .takeBi => v.mem.accept.hasTx false = false
  | .clearStreams => ∀ bi, v.mem.accept.hasTx bi = false
  | .closeFlows => Cleared true v
  | _ => True

/-- The step of `close_all` that a function has still to take, once `closed` is set. -/
def Task.closing : Task → Option CloseStep
  | .closeAll .swapClosed _ => none
  | .closeAll c _ => some c
  | _ => none

theorem Ret.closing_resume (k : Ret) : k.resume.closing = none := by
  cases k <;> rfl

theorem SendSite.closing_resume (s : SendSite) (sent : Bool) :
    (s.resume cfg sent).closing = none := by
  cases s with
  | inboundCredit i bi => cases bi <;> cases sent <;> rfl
  | write c =>
      cases sent with
      | false => rfl
      | true =>
          simp only [SendSite.resume, writeLoop]
          split_ifs <;> rfl
  | _ => cases sent <;> rfl

theorem TrySite.closing_resume (s : TrySite) (k : Ret) (sent : Bool) :
    (s.resume k sent).closing = none := by
  cases s <;> cases sent <;> rfl

theorem Check.closing_resume (c : Check) (found : Bool) :
    (c.resume cfg found).closing = none := by
  cases c with
  | send s =>
      cases found with
      | false => rfl
      | true => exact s.closing_resume false
  | trySend s k =>
      cases found with
      | false => rfl
      | true => exact s.closing_resume k false
  | writeStart w =>
      cases found with
      | false =>
          simp only [Check.resume, writeLoop]
          split_ifs <;> rfl
      | true => rfl
  | reserveOpen w =>
      cases found with
      | false => rfl
      | true =>
          simp only [Check.resume, outOfCredit]
          split_ifs <;> rfl
  | noCredit w =>
      cases found with
      | false =>
          simp only [Check.resume]
          split_ifs <;> rfl
      | true => rfl
  | _ => cases found <;> rfl

/-- A step of `close_all` follows the one before it. -/
theorem Task.closing_next {t t' : Task} {a : Access} {c : CloseStep}
    (hn : t.next cfg m = some (a, t')) (hc : t'.closing = some c) :
    ∃ p k, t = .closeAll p k ∧ a = p.access ∧ t' = p.next k := by
  replace hn := Task.steps_of_next hn
  induction hn with
  | closeAll p k => exact ⟨p, k, rfl, rfl, rfl⟩
  | anyOfNil | anyOfSet | anyOfLast =>
      rw [Check.closing_resume] at hc
      cases hc
  | reserveClosed | publish | unpublished =>
      rw [SendSite.closing_resume] at hc
      cases hc
  | trySend | trySendFull =>
      rw [TrySite.closing_resume] at hc
      cases hc
  | selectApi d | selectApiSame d => cases d <;> cases hc
  | swapOperation d =>
      cases d <;> simp only [SendCall.body] at hc <;> (try split_ifs at hc) <;> cases hc
  | outOfCredit w =>
      unfold outOfCredit at hc
      split_ifs at hc <;> cases hc
  | casSent w sent max =>
      unfold granted at hc
      split_ifs at hc <;> cases hc
  | cancel | closeAllAgain | releaseHandle | closeReceiver | dropTx | acceptLockGone
  | acceptClosed =>
      rw [Ret.closing_resume] at hc
      cases hc
  | _ => contradiction

theorem Task.closing_cancelled {t t' : Task} (h : t.cancelled = some t') : t'.closing = none := by
  cases t with
  | reserve s => cases s <;> cases h <;> rfl
  | _ => cases h <;> rfl

theorem Task.closing_timedOut {t t' : Task} (h : t.timedOut = some t') : t'.closing = none := by
  cases t <;> cases h <;> rfl

theorem Task.closing_aborted {t t' : Task} (h : t.aborted = some t') : t'.closing = none := by
  cases t with
  | reserve s => cases s <;> cases h <;> rfl
  | acceptLock i x =>
      cases h
      exact Ret.closing_resume _
  | closeAll c k => cases c <;> cases h <;> exact k.closing_resume
  | _ => cases h

theorem Turn.closing {t t' : Task} {fs : List Frame} {c : Bool} (h : Turn cfg v t t' fs c) :
    t'.closing = none := by
  cases h with
  | @frame f hl hf =>
      cases f <;> simp only [handleFrame] <;> (try split_ifs) <;> rfl
  | _ => rfl

theorem Call.closing_start {c : Call} {u : Use} {a : Access} {t : Task}
    (h : c.start m = some (u, a, t)) : t.closing = none := by
  cases Call.starts_of_start h <;> rfl

section Run

variable {ok : Session → Label → Prop} {s s' : Session} {l : Label}

/-- What a step of `close_all` has reached is kept by the other functions. -/
theorem CloseStep.Reached.step (hr : Reachable (Session.step cfg) ok {} s) (hok : ok s l)
    (hs : s.step cfg l = some s') {c : CloseStep} (hc : c.Reached s.view) : c.Reached s'.view := by
  obtain ⟨a, ha⟩ := (Session.moves_of_step hs).mem_eq
  cases c with
  | takeBi =>
      simp only [CloseStep.Reached, ha]
      exact Memory.hasTx_apply a hc
  | clearStreams =>
      intro bi
      rw [ha]
      exact Memory.hasTx_apply a (hc bi)
  | closeFlows => exact Cleared.step hr hok hs hc
  | _ => trivial

/-- A step of `close_all` prepares the next one. -/
theorem CloseStep.reached_next {p c : CloseStep} {k : Ret}
    (hclosed : p ≠ .swapClosed → v.mem.flags.closed = true) (hp : p.Reached v) (hm : v'.mem = v.mem.apply p.access) (hc : (p.next k).closing = some c) :
    c.Reached v' := by
  cases p with
  | swapClosed =>
      cases hc
      trivial
  | clearCredit =>
      cases hc
      trivial
  | takeUni =>
      cases hc
      simp only [CloseStep.Reached, hm]
      rfl
  | takeBi =>
      cases hc
      intro bi
      rw [hm]
      cases bi with
      | false => exact hp
      | true => rfl
  | clearStreams =>
      cases hc
      -- the table is empty now
      refine ⟨?_, fun bi => ?_, fun id _ => ?_⟩
      · rw [hm]
        exact hclosed nofun
      · rw [hm]
        exact hp bi
      · rw [hm]
        exact Finset.notMem_empty id
  | closeFlows =>
      rw [CloseStep.next, Ret.closing_resume] at hc
      cases hc

/-- **The steps of `close_all` follow one another**, whatever runs between them. -/
theorem closing_reached (hr : Reachable (Session.step cfg) ok {} s) :
    ∀ t ∈ s.tasks, ∀ c, t.closing = some c → c.Reached s.view := by
  induction hr with
  | init =>
      intro t ht c hc
      simp only [Session.tasks, List.map_nil, List.mem_cons, List.not_mem_nil, or_false] at ht
      rcases ht with rfl | rfl <;> cases hc
  | @step s s' l hr hok hs ih =>
      have hkeep : ∀ t ∈ s.view.tasks, ∀ c, t.closing = some c → c.Reached s'.view :=
        fun t ht c hc => (ih t ht c hc).step hr hok hs
      have hnone : ∀ {t' : Task}, t'.closing = none →
          ∀ c, t'.closing = some c → c.Reached s'.view := by
        intro t' ht' c hc
        rw [ht'] at hc
        cases hc
      have hj := (controlInv_of_reachable hr).justified
      have hm := Session.moves_of_step hs
      show ∀ t ∈ s'.view.tasks, ∀ c, t.closing = some c → c.Reached s'.view
      generalize s'.view = v' at hm hkeep hnone ⊢
      generalize l.actor = who at hm
      cases hm with
      | @next i t t' a hi hn =>
          have hmem := List.mem_of_getElem? hi
          refine forall_mem_set hkeep fun c hc => ?_
          obtain ⟨p, k, rfl, rfl, rfl⟩ := Task.closing_next hn hc
          refine CloseStep.reached_next ?_ ?_ rfl hc
          · intro hp
            have hclosed := hj _ hmem
            cases p with
            | swapClosed => exact absurd rfl hp
            | _ => exact hclosed
          · cases p with
            | swapClosed => trivial
            | _ => exact ih _ hmem _ rfl
      | cancel hi hc => exact forall_mem_set hkeep (hnone (Task.closing_cancelled hc))
      | timeout hi hc => exact forall_mem_set hkeep (hnone (Task.closing_timedOut hc))
      | abort hi ha => exact forall_mem_set hkeep (hnone (Task.closing_aborted ha))
      | turn hi ht => exact forall_mem_set hkeep (hnone ht.closing)
      | exit hi => exact forall_mem_set hkeep (hnone rfl)
      | spawn hc => exact forall_mem_concat hkeep (hnone (Call.closing_start hc))
      | loop ha hb => exact hkeep

end Run


/-! ## After `close_all` -/

/-- The control points of `task_finished`. -/
def Task.finishing : Task → Bool
  | .closeAll _ .taskFinished => true
  | .taskCancel => true
  | .taskDone => true
  | .done => true
  | _ => false

theorem Task.finishing_next {t t' : Task} {a : Access} (ht : t.finishing = true)
    (hn : t.next cfg m = some (a, t')) : t'.finishing = true := by
  cases t with
  | closeAll c k =>
      cases k with
      | taskFinished =>
          cases c with
          | swapClosed =>
              simp only [Task.next] at hn
              split_ifs at hn <;> cases hn <;> rfl
          | _ =>
              cases hn
              rfl
      | _ => cases ht
  | taskCancel =>
      cases hn
      rfl
  | taskDone =>
      cases hn
      rfl
  | done => cases hn
  | _ => cases ht

theorem Task.tx_of_finishing {t : Task} (ht : t.finishing = true) : t.tx = none := by
  cases t with
  | closeAll c k => cases k <;> first | rfl | cases ht
  | _ => first | rfl | cases ht

/-- The inbound task is in `handle_frame` or `protocol_error`. -/
def Session.handling (s : Session) : Bool :=
  match s.inb.phase with
  | .running (.handled _) _ => false
  | .running _ _ => true
  | _ => false

section Run

variable {ok : Session → Label → Prop} {s s' : Session} {l : Label}

/-- When the loop of the inbound task is left, only `task_finished` is left to run. -/
theorem finishing_of_ending (hr : Reachable (Session.step cfg) ok {} s) :
    ∀ t, s.inb.phase = .ending t → t.finishing = true := by
  induction hr with
  | init =>
      intro t ht
      cases ht
  | @step s s' l hr hok hs ih =>
      intro t ht
      have hleave : ∀ {b' : Inbound}, s.inb.leave = some b' → b'.phase = .ending t →
          t.finishing = true := by
        intro b' hb ht
        unfold Inbound.leave at hb
        split at hb <;> cases hb <;> cases ht <;> rfl
      have hm := Session.inboundMoves_of_step hs
      generalize s'.inb = b' at hm ht
      cases hm with
      | same => exact ih t ht
      | receive hp hb =>
          unfold Inbound.receive at hb
          repeat' split at hb
          all_goals cases hb
          all_goals first
            | cases ht
            | exact ih t ht
      | leave hb => exact hleave hb ht
      | next hb =>
          cases Inbound.steps_of_step hb with
          | failed hp =>
              cases ht
              rfl
          | @finishing t₀ t' a hp hn =>
              cases ht
              exact Task.finishing_next (ih t₀ hp) hn
          | _ => cases ht
      | cancel hb =>
          unfold Inbound.cancel at hb
          repeat' split at hb
          · cases hb
            cases ht
          · cases hb
          · exact hleave hb ht

/-- A clone of an event sender is gone when the inbound task is not in `handle_frame`. -/
theorem txHeld_eq_false (hr : Reachable (Session.step cfg) ok {} s) (hin : s.handling = false)
    (id : StreamId) : (s.mem.recvs.cell id).txHeld = false := by
  by_contra h
  obtain ⟨t, ht, htx⟩ := txHeld_of_reachable hr id (Bool.eq_true_of_not_eq_false h)
  have htask : s.inb.phase.task = t := Option.some.inj ht
  cases hp : s.inb.phase with
  | running u cursor =>
      have hu : u = t := by
        rw [hp] at htask
        exact htask
      subst hu
      simp only [Session.handling, hp] at hin
      split at hin
      · rename_i heq
        cases heq
        cases htx
      · cases hin
      · rename_i hne
        exact hne _ _ rfl
  | ending u =>
      have hu : u = t := by
        rw [hp] at htask
        exact htask
      subst hu
      rw [Task.tx_of_finishing (finishing_of_ending hr _ hp)] at htx
      cases htx
  | _ =>
      rw [hp] at htask
      subst htask
      cases htx

/-- The last step of `close_all` closes the flows. -/
theorem cleared_of_closeFlows (hr : Reachable (Session.step cfg) ok {} s) (hok : ok s l)
    {k : Ret} (hact : s.acting l = some (.closeAll .closeFlows k))
    (hs : s.step cfg l = some s') : Cleared false s'.view ∧ Cleared true s'.view := by
  have hmem : Task.closeAll .closeFlows k ∈ s.tasks := by
    obtain ⟨i, -, hi⟩ := Option.bind_eq_some_iff.1 hact
    exact List.mem_of_getElem? hi
  have hrecv : Cleared true s.view := closing_reached hr _ hmem _ rfl
  have heq : s'.mem = s.mem.apply (.send .clear) := Session.mem_of_acting hact rfl hs
  have hcl := Cleared.step hr hok hs hrecv
  refine ⟨⟨hcl.closed, hcl.accept, fun id hid => ?_⟩, hcl⟩
  have hid' := View.concerns_moves (handleNames_of_reachable hr) hrecv.closed hrecv.accept
    (Session.moves_of_step hs) hid
  have hor : 0 < (s.mem.sendDirection cfg id).registered →
      (s.mem.sendDirection cfg id).isOpen = true ∨
        (s.mem.sendDirection cfg id).cell.flowClosed = true :=
    send_invariant (P := fun d _ => 0 < d.registered → d.isOpen = true ∨ d.cell.flowClosed = true)
      (fun h => absurd h (Nat.lt_irrefl 0)) (fun _ h hp => hp.open_or_closed h) hr id
  show (s'.mem.sends.cell id).flowClosed = true
  rw [heq]
  simp only [Memory.apply, SendTable.apply, SendTable.closeAll, Bool.or_eq_true]
  exact (hor (send_registered_of_concerns hr hid')).symm

theorem Cleared.run {s₁ s : Session} (hr : Reachable (Session.step cfg) ok {} s₁)
    (hr' : Reachable (Session.step cfg) ok s₁ s) (hc : Cleared b s₁.view) : Cleared b s.view := by
  induction hr' with
  | init => exact hc
  | step hr' hok hs ih => exact Cleared.step (hr.trans hr') hok hs ih

end Run

/-- A function runs alone, without changing the memory. -/
def Task.Runs (cfg : Config) (m : Memory) : Task → Task → Prop :=
  Relation.ReflTransGen fun t t' => t.next cfg m = some (.skip, t')

/-- A writer that waits for credit on a closed flow returns. -/
theorem Task.runs_waitCredit {w : Writer} (h : (m.sends.cell w.id).flowClosed = true) :
    Task.Runs cfg m (.waitCredit w) (.endOperation w.id) := by
  have hflag : m.flag (.flowClosed w.id) = true := h
  have hclosed : Task.next cfg m (.anyOf (.flowClosed w.id :: isClosed) (.noCredit w)) =
      some (.skip, .endOperation w.id) := by
    simp only [Task.next, hflag, if_true]
    rfl
  have hout : Task.Runs cfg m (outOfCredit w) (.endOperation w.id) := by
    unfold outOfCredit
    split_ifs
    · by_cases hf : m.flag (.finished w.id) = true
      · refine .single ?_
        simp only [Task.next, hf, if_true]
        rfl
      · refine .head (b := .anyOf (.flowClosed w.id :: isClosed) (.noCredit w)) ?_ (.single hclosed)
        simp only [Task.next, hf]
        rfl
    · exact .single hclosed
  refine .head (b := tryReserve w) rfl (.head (b := outOfCredit w) ?_ hout)
  simp only [tryReserve, Task.next, hflag, if_true]
  rfl

theorem Task.next_read_ne_none {api : ReadApi} {n : Nat} (h : m.recvs.hasSender id = false) :
    Task.next cfg m (.read id api n) ≠ none := by
  simp only [Task.next, h]
  split
  · rename_i heq
    exact absurd heq (RecvStream.poll_ne_wait _ _ _ _ _)
  all_goals rintro ⟨⟩

end WebsockMux.Native
