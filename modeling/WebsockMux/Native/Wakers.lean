import WebsockMux.Lib.WakerSlot
import WebsockMux.Native.Outcome

/-!
# Wakers

`SendFlowState` has one `AtomicWaker` for all the handles of a send direction. `write_buf` and
`poll_write` register the waker of the task that polls them, then try to reserve credit, and return
`Pending` without credit; `update_max` and `close` change the flow and then wake what is registered.
The control points of a session leave that out, since nothing they read depends on it. `Wakers` adds
it: a session, the slot of each flow (`WakerSlot`), and for each function in progress the task whose
waker its current poll has registered.

Registering and waking are steps of their own. Between the store of `update_max` or `close` and its
wake, which is then due, any other step may come, and between registering and each of the loads of
`try_reserve`. Of `AtomicWaker` it is assumed that it holds one waker and that `wake` takes it. A
task waits from the poll that returns `Pending` until it registers again.

A flow is registered once, so its slot is empty until a handle of it is polled. With a payload limit
of zero `poll_write` registers and fails; nobody waits for credit then, and that registration is
left out.

Polls on one flow exclude each other by the guard of the send operation (`eq_of_creditsOn`), but
`poll_write` gives the guard back when it returns `Pending`. So a task may register while another
one waits, whose waker is then gone (`wakeup_lost`). Where no task does that, no wake-up is lost
(`no_lost_wakeup`).
-/

set_option autoImplicit false

namespace WebsockMux.Native

open WebsockMux.Lib WebsockMux.Proto

/-! ## Where a poll registers, reserves and waits -/

def Check.creditsOn : Check → Option StreamId
  | .reserveOpen w => some w.id
  | .noCredit w => some w.id
  | .send (.write c) => some c.id
  | _ => none

/-- The flow on which a poll reserves credit: from its registration, until it waits, or has
published or released what it reserved. -/
def Task.creditsOn : Task → Option StreamId
  | .anyOf _ c => c.creditsOn
  | .loadSent w => some w.id
  | .loadMax w _ => some w.id
  | .casSent w _ _ => some w.id
  | .reserve (.write c) => some c.id
  | .publish (.write c) => some c.id
  | .pollReserve c => some c.id
  | .pollPublish c => some c.id
  | .release id _ _ => some id
  | _ => none

/-- A poll in front of `try_reserve`: it registers the waker of its task first. -/
def Task.registers : Task → Bool
  | .anyOf _ (.reserveOpen _) => true
  | _ => false

/-- The flow for whose credit a poll returns `Pending` in its next step. -/
def Task.blocksOn (m : Memory) : Task → Option StreamId
  | .anyOf [] (.noCredit w) => some w.id
  | .anyOf [f] (.noCredit w) => if m.flag f then none else some w.id
  | _ => none

/-- A step from `m` to `m'` has raised the limit of a flow or closed it, so that `update_max` or
`close` will wake. -/
def Memory.raises (m m' : Memory) (id : StreamId) : Bool :=
  decide ((m.sends.cell id).maxData < (m'.sends.cell id).maxData) ||
    (!(m.sends.cell id).flowClosed && (m'.sends.cell id).flowClosed)

/-! ## The machine -/

/-- A session with the slots of its flows, and the task whose waker the current poll of a function
has registered; functions are numbered as in `Session.tasks`. -/
structure Wakers where
  session : Session := {}
  slot : StreamId → WakerSlot Nat := fun _ => {}
  polling : Nat → Option Nat := fun _ => none

/-- A step of the session, the registration of the waker of `task` by the function `k`, or the wake
at the end of `update_max` or `close`. -/
inductive WakerLabel where
  | session (l : Label)
  | register (k task : Nat)
  | wake (id : StreamId)
  deriving DecidableEq

namespace Wakers

variable (cfg : Config)

/-- The function that a label lets run has to register first. -/
def mustRegister (x : Wakers) (l : Label) : Bool :=
  l.actor.any fun k => (x.session.tasks[k]?).any Task.registers && (x.polling k).isNone

/-- The task whose poll returns `Pending` for lack of credit of the flow `id`. -/
def pending (x : Wakers) (l : Label) (id : StreamId) : Option Nat :=
  match l with
  | .op i =>
      match x.session.tasks[i + 2]? with
      | some t => if t.blocksOn x.session.mem = some id then x.polling (i + 2) else none
      | none => none
  | _ => none

/-- The slot of a flow after a step of the session to `s`. -/
def slotAfter (x : Wakers) (l : Label) (s : Session) (id : StreamId) : WakerSlot Nat :=
  if x.session.mem.raises s.mem id then (x.slot id).owe
  else
    match x.pending l id with
    | some task => (x.slot id).wait task
    | none => x.slot id

/-- A poll goes on while it reserves credit; `write_buf` registers anew for every chunk and every
time it is polled. -/
def pollingAfter (x : Wakers) (l : Label) (s : Session) (k : Nat) : Option Nat :=
  match s.tasks[k]? with
  | some t =>
      if t.creditsOn.isSome ∧ (t.registers = true → l.actor ≠ some k) then x.polling k else none
  | none => none

/-- One step. -/
def step (x : Wakers) : WakerLabel → Option Wakers
  | .session l =>
      if x.mustRegister l then none
      else (x.session.step cfg l).map fun s =>
        { session := s, slot := x.slotAfter l s, polling := x.pollingAfter l s }
  | .register k task =>
      match x.session.tasks[k]? with
      | some (.anyOf _ (.reserveOpen w)) =>
          if x.polling k = none then
            some { x with
              slot := Function.update x.slot w.id ((x.slot w.id).register task)
              polling := Function.update x.polling k (some task) }
          else none
      | _ => none
  | .wake id =>
      if 0 < (x.slot id).due then
        some { x with slot := Function.update x.slot id (x.slot id).wake }
      else none

/-- **The condition on registrations**: where a task registers its waker, every other task whose
last poll on that flow returned `Pending` for lack of credit has been woken since. -/
def TakesTurns (x : Wakers) : WakerLabel → Prop
  | .register k task =>
      ∀ t ∈ x.session.tasks[k]?, ∀ id ∈ t.creditsOn,
        ∀ u ∈ (x.slot id).waiting, u ≠ task → u ∈ (x.slot id).woken
  | _ => True

instance (x : Wakers) : (l : WakerLabel) → Decidable (x.TakesTurns l)
  | .session _ => inferInstanceAs (Decidable True)
  | .register k task => inferInstanceAs (Decidable (∀ t ∈ x.session.tasks[k]?,
      ∀ id ∈ t.creditsOn, ∀ u ∈ (x.slot id).waiting, u ≠ task → u ∈ (x.slot id).woken))
  | .wake _ => inferInstanceAs (Decidable True)

end Wakers

variable {cfg : Config} {m : Memory} {id : StreamId} {t t' : Task} {a : Access}

/-! ## The steps of a poll -/

/-- Control points at which something is known: where the poll registers, between its two loads, and
where it has found no credit. -/
def Task.isPlain : Task → Bool
  | .anyOf _ (.reserveOpen _) => false
  | .anyOf _ (.noCredit _) => false
  | .loadMax _ _ => false
  | _ => true

/-- **How a function comes to a control point of a poll**: it starts to reserve, it goes on in a
check of flags, it finds the flow closed or the credit spent, it loads `sent_data`, or it goes on with
nothing known. -/
inductive Task.Credits (m : Memory) : Task → Access → Task → Prop where
  | start {t : Task} {a : Access} (w : Writer) : Credits m t a (tryReserve w)
  | flag {f : Flag} {fs : List Flag} {c : Check} (hf : m.flag f = false) (hne : fs ≠ []) :
      Credits m (.anyOf (f :: fs) c) .skip (.anyOf fs c)
  | closed {f : Flag} {fs : List Flag} {w : Writer} (hf : m.flag f = true) :
      Credits m (.anyOf (f :: fs) (.reserveOpen w)) .skip (outOfCredit w)
  | spent {w : Writer} {sent : Nat} (h : (m.sends.cell w.id).maxData ≤ sent) :
      Credits m (.loadMax w sent) .skip (outOfCredit w)
  | load {w : Writer} : Credits m (.loadSent w) .skip (.loadMax w (m.sends.cell w.id).sentData)
  | goesOn {t t' : Task} {a : Access} (h : t.creditsOn = t'.creditsOn) (hp : t'.isPlain = true) :
      Credits m t a t'

theorem Ret.creditsOn_resume (k : Ret) : k.resume.creditsOn = none := by
  cases k <;> rfl

theorem TrySite.creditsOn_resume (s : TrySite) (k : Ret) (ok : Bool) :
    (s.resume k ok).creditsOn = none := by
  cases s <;> cases ok <;> rfl

/-- The loop of a write starts to reserve, or ends. -/
theorem Task.Credits.writeLoop {w : Writer} (h : (writeLoop cfg w).creditsOn ≠ none) :
    Credits m t a (writeLoop cfg w) := by
  unfold Native.writeLoop at h ⊢
  split_ifs at h ⊢
  · exact absurd rfl h
  · exact absurd rfl h
  · exact .start w

/-- What follows from the result of `send_frame`. -/
theorem Task.Credits.sent {s : SendSite} {ok : Bool} (ht : t.creditsOn = (Task.reserve s).creditsOn)
    (h : (s.resume cfg ok).creditsOn ≠ none) : Credits m t a (s.resume cfg ok) := by
  cases s with
  | write c =>
      cases ok with
      | true => exact .writeLoop h
      | false => exact .goesOn ht rfl
  | inboundCredit i bi => cases bi <;> cases ok <;> exact absurd rfl h
  | _ => cases ok <;> exact absurd rfl h

/-- What follows from a check of flags, other than the first of `try_reserve`. -/
theorem Task.Credits.checked {c : Check} {b : Bool} {fs : List Flag}
    (hc : ∀ w, c ≠ .reserveOpen w) (h : (c.resume cfg b).creditsOn ≠ none) :
    Credits m (.anyOf fs c) a (c.resume cfg b) := by
  cases c with
  | send s =>
      cases b with
      | true => exact .sent (by cases s <;> rfl) h
      | false => exact .goesOn (by cases s <;> rfl) rfl
  | trySend s k =>
      cases b with
      | true => exact absurd (s.creditsOn_resume k false) h
      | false => exact absurd rfl h
  | writeStart w =>
      cases b with
      | true => exact absurd rfl h
      | false => exact .writeLoop h
  | reserveOpen w => exact absurd rfl (hc w)
  | noCredit w =>
      cases b with
      | true => exact absurd rfl h
      | false =>
          simp only [Check.resume] at h
          split_ifs at h <;> exact absurd rfl h
  | _ => cases b <;> exact absurd rfl h

theorem Task.credits_of_next (hn : t.next cfg m = some (a, t')) (h : t'.creditsOn ≠ none) :
    Credits m t a t' := by
  replace hn := Task.steps_of_next hn
  induction hn with
  | anyOfNil c | anyOfLast f c =>
      cases c with
      | reserveOpen w => exact .goesOn rfl rfl
      | _ => exact .checked nofun h
  | anyOfSet f fs c hf =>
      cases c with
      | reserveOpen w => exact .closed hf
      | _ => exact .checked nofun h
  | anyOf f fs c hf hfs => exact .flag (eq_false_of_ne_true hf) hfs
  | reserveClosed s => exact .sent rfl h
  | reserve s => exact .goesOn (by cases s <;> rfl) rfl
  | publish s | unpublished s => exact .sent (by cases s <;> rfl) h
  | trySend s k | trySendFull s k => exact absurd (s.creditsOn_resume k _) h
  | closeAll c k =>
      cases c with
      | closeFlows => exact absurd k.creditsOn_resume h
      | _ => exact absurd rfl h
  | cancel k | closeAllAgain k | releaseHandle _ k | closeReceiver _ k | dropTx _ k =>
      exact absurd k.creditsOn_resume h
  | acceptLockGone i x | acceptClosed i x => exact absurd (acceptDrop i x).creditsOn_resume h
  | selectApi c | selectApiSame c => cases c <;> exact absurd rfl h
  | swapOperation c =>
      cases c <;> simp only [SendCall.body] at h <;> (try split_ifs at h) <;> exact absurd rfl h
  | loadSent w => exact .load
  | outOfCredit w sent hle => exact .spent hle
  | casSent => exact granted_elim _ (.goesOn rfl rfl) (.goesOn rfl rfl)
  | waitCredit w => exact .start w
  | loadMax | casSentFailed | pollReserveReady | pollReserve | pollReserveWait | pollReserveClosed
  | pollUnpublished => exact .goesOn rfl rfl
  | _ => exact absurd rfl h

/-- A poll that goes on in front of no registration was on the same flow before. -/
theorem Task.Credits.creditsOn_eq (h : Credits m t a t') (hr : t'.registers = false) :
    t.creditsOn = t'.creditsOn := by
  have hout : ∀ w : Writer, (outOfCredit w).creditsOn = some w.id := by
    intro w
    unfold outOfCredit
    split_ifs <;> rfl
  cases h with
  | start w => cases hr
  | flag hf hne => rfl
  | closed hf => exact (hout _).symm
  | spent hle => exact (hout _).symm
  | load => rfl
  | goesOn h hp => exact h

/-! ## What a poll knows -/

/-- The flow is open and its credit is spent. -/
def SendCell.isIdle (c : SendCell) : Prop := c.flowClosed = false ∧ c.maxData ≤ c.sentData

/-- What a poll that has found no credit knows, unless a wake is due: the credit is spent, or the
flow is closed and the check of that is still to come. -/
def Task.knows (m : Memory) : Task → Prop
  | .anyOf fs (.noCredit w) =>
      (m.sends.cell w.id).isIdle ∨
        (m.sends.cell w.id).flowClosed = true ∧ .flowClosed w.id ∈ fs
  | _ => True

/-- What a poll has read: `try_reserve` starts with one load of `closed`, and between its two other
loads `sent_data` stays. -/
def Task.hasRead (m : Memory) : Task → Prop
  | .anyOf fs (.reserveOpen w) => fs = [.flowClosed w.id]
  | .loadMax w sent => (m.sends.cell w.id).sentData = sent
  | _ => True

theorem Task.knows_of_isPlain (h : t.isPlain = true) : t.knows m := by
  cases t with
  | anyOf fs c =>
      cases c with
      | noCredit w => cases h
      | _ => trivial
  | _ => trivial

theorem Task.hasRead_of_isPlain (h : t.isPlain = true) : t.hasRead m := by
  cases t with
  | anyOf fs c =>
      cases c with
      | reserveOpen w => cases h
      | _ => trivial
  | loadMax w sent => cases h
  | _ => trivial

theorem Task.isPlain_of_creditsOn (h : t.creditsOn = none) : t.isPlain = true := by
  cases t with
  | anyOf fs c =>
      cases c with
      | reserveOpen w => cases h
      | noCredit w => cases h
      | _ => rfl
  | loadMax w sent => cases h
  | _ => rfl

/-- The checks behind `try_reserve` look at the flow again. -/
theorem knows_outOfCredit {w : Writer} (h : (m.sends.cell w.id).isIdle ∨
    (m.sends.cell w.id).flowClosed = true) : (outOfCredit w).knows m := by
  unfold outOfCredit
  split_ifs
  · exact h.imp_right fun h => ⟨h, by simp⟩
  · exact h.imp_right fun h => ⟨h, by simp⟩

theorem hasRead_outOfCredit (w : Writer) : (outOfCredit w).hasRead m := by
  unfold outOfCredit
  split_ifs <;> trivial

/-- **What a poll knows after its own step.** -/
theorem Task.knows_next (hn : t.next cfg m = some (a, t')) (hr : t.hasRead m) (hk : t.knows m) :
    t'.knows (m.apply a) := by
  by_cases hc : t'.creditsOn = none
  · exact Task.knows_of_isPlain (Task.isPlain_of_creditsOn hc)
  · cases Task.credits_of_next hn hc with
    | start w => trivial
    | @flag f fs c hf hne =>
        cases c with
        | noCredit w =>
            refine hk.imp_right fun h => ⟨h.1, ?_⟩
            -- the flag that was loaded is not the one of the closed flow
            rcases List.mem_cons.1 h.2 with rfl | hmem
            · exact absurd (h.1.symm.trans hf) Bool.noConfusion
            · exact hmem
        | _ => trivial
    | @closed f fs w hf =>
        have hfs : f :: fs = [.flowClosed w.id] := hr
        cases hfs
        exact knows_outOfCredit (.inr hf)
    | @spent w sent hle =>
        have hs : (m.sends.cell w.id).sentData = sent := hr
        refine knows_outOfCredit ?_
        cases hcl : (m.sends.cell w.id).flowClosed with
        | true => exact .inr hcl
        | false => exact .inl ⟨hcl, hs ▸ hle⟩
    | load => trivial
    | goesOn h hp => exact Task.knows_of_isPlain hp

/-- **What a poll has read after its own step.** -/
theorem Task.hasRead_next (hn : t.next cfg m = some (a, t')) (hr : t.hasRead m) :
    t'.hasRead (m.apply a) := by
  by_cases hc : t'.creditsOn = none
  · exact Task.hasRead_of_isPlain (Task.isPlain_of_creditsOn hc)
  · cases Task.credits_of_next hn hc with
    | start w => rfl
    | @flag f fs c hf hne =>
        cases c with
        | reserveOpen w =>
            have hfs : f :: fs = [.flowClosed w.id] := hr
            cases hfs
            exact absurd rfl hne
        | _ => trivial
    | closed hf => exact hasRead_outOfCredit _
    | spent hle => exact hasRead_outOfCredit _
    | load => rfl
    | goesOn h hp => exact Task.hasRead_of_isPlain hp

/-- A poll that returns `Pending` for lack of credit knows that the credit is spent, and does not go
on. -/
theorem Task.idle_of_blocksOn (hb : t.blocksOn m = some id) (hk : t.knows m) :
    (m.sends.cell id).isIdle := by
  unfold Task.blocksOn at hb
  split at hb
  · cases hb
    rcases hk with hk | ⟨-, hk⟩
    · exact hk
    · cases hk
  · rename_i f w
    split_ifs at hb with hf
    cases hb
    rcases hk with hk | ⟨hcl, hk⟩
    · exact hk
    · cases List.mem_singleton.1 hk
      exact absurd hcl hf
  · cases hb

theorem Task.creditsOn_of_blocksOn (hb : t.blocksOn m = some id) : t.creditsOn = some id := by
  unfold Task.blocksOn at hb
  split at hb
  · exact hb
  · split_ifs at hb
    exact hb
  · cases hb

theorem Task.next_of_blocksOn (hb : t.blocksOn m = some id)
    (hn : t.next cfg m = some (a, t')) : a = .skip ∧ t'.creditsOn = none := by
  have hres : ∀ w : Writer, ((Check.noCredit w).resume cfg false).creditsOn = none := by
    intro w
    simp only [Check.resume]
    split_ifs <;> rfl
  unfold Task.blocksOn at hb
  split at hb
  · cases hn
    exact ⟨rfl, hres _⟩
  · split_ifs at hb with hf
    simp only [Task.next, if_neg hf, if_true] at hn
    cases hn
    exact ⟨rfl, hres _⟩
  · cases hb

/-! ## What an access does to a flow -/

/-- A cell changes as that of a flow may: it is made afresh, or it stays closed, its limit does not
fall, and unless credit is released (`rel`) neither does `sent_data`. -/
def SendCell.Grows (rel : Prop) (c c' : SendCell) : Prop :=
  c' = {} ∨ (c.flowClosed = true → c'.flowClosed = true) ∧ c.maxData ≤ c'.maxData ∧
    (¬rel → c.sentData ≤ c'.sentData)

theorem SendCell.Grows.same {rel : Prop} {c c' : SendCell} (hc : c'.flowClosed = c.flowClosed)
    (hm : c'.maxData = c.maxData) (hs : c'.sentData = c.sentData) : Grows rel c c' :=
  .inr ⟨fun h => hc.trans h, hm.ge, fun _ => hs.ge⟩

theorem SendDirection.grows_apply (d : SendDirection) (e : SendEvent) :
    SendCell.Grows (∃ n, e = .release n) d.cell (d.apply e).cell := by
  have hclose : SendCell.Grows (∃ n, e = .release n) d.cell d.close.cell :=
    .inr ⟨fun h => by simp [SendDirection.close, h], Nat.le_refl _, fun _ => Nat.le_refl _⟩
  cases e with
  | register => exact .inl rfl
  | remove => exact hclose
  | clear => exact hclose
  | updateMax max =>
      obtain ⟨hc, hle⟩ := d.updateMax_cell max
      show SendCell.Grows _ _ (d.updateMax max).cell
      rw [hc]
      exact .inr ⟨fun h => h, hle, fun _ => Nat.le_refl _⟩
  | reserve n => exact .inr ⟨fun h => h, Nat.le_refl _, fun _ => Nat.le_add_right _ _⟩
  | release n => exact .inr ⟨fun h => h, Nat.le_refl _, fun hrel => absurd ⟨n, rfl⟩ hrel⟩
  | _ => exact .same rfl rfl rfl

theorem SendAccess.eq_of_event {b : SendAccess} {n : Nat} (h : b.event id = .release n) :
    b = .release id n := by
  cases b with
  | clear => cases h
  | release i k =>
      simp only [SendAccess.event, SendEvent.on] at h
      split_ifs at h with hi
      cases h
      rw [hi]
  | _ =>
      simp only [SendAccess.event, SendEvent.on] at h
      split_ifs at h

/-- What an access does to the cell of a flow is what its event does to the send direction. -/
theorem SendTable.grows_apply (s : SendTable) (b : SendAccess) (id : StreamId) :
    SendCell.Grows (∃ n, b = .release id n) (s.cell id) ((s.apply b).cell id) := by
  have hcell : ((s.apply b).cell id) = ((s.direction id false [] false).apply (b.event id)).cell :=
    congrArg SendDirection.cell (SendTable.direction_apply s b)
  have h := (s.direction id false [] false).grows_apply (b.event id)
  rw [← hcell] at h
  refine h.imp_right fun h => ⟨h.1, h.2.1, fun hrel => h.2.2 ?_⟩
  rintro ⟨n, hn⟩
  exact hrel ⟨n, SendAccess.eq_of_event hn⟩

theorem Memory.grows_apply (m : Memory) (a : Access) (id : StreamId) :
    SendCell.Grows (∃ n, a = .send (.release id n)) (m.sends.cell id)
      ((m.apply a).sends.cell id) := by
  cases a with
  | send b =>
      refine (m.sends.grows_apply b id).imp_right fun h => ⟨h.1, h.2.1, fun hrel => h.2.2 ?_⟩
      rintro ⟨n, rfl⟩
      exact hrel ⟨n, rfl⟩
  | session on => cases on <;> exact .same rfl rfl rfl
  | _ => exact .same rfl rfl rfl

/-- Without a wake that becomes due, the credit of a flow stays spent. -/
theorem SendCell.Grows.isIdle {m' : Memory} {rel : Prop}
    (h : Grows rel (m.sends.cell id) (m'.sends.cell id))
    (hs : rel → (m.sends.cell id).sentData ≤ (m'.sends.cell id).sentData)
    (hraise : m.raises m' id = false) (hi : (m.sends.cell id).isIdle) :
    (m'.sends.cell id).isIdle := by
  rcases h with h | ⟨-, -, hs'⟩
  · rw [h]
    exact ⟨rfl, Nat.le_refl _⟩
  · simp only [Memory.raises, hi.1, Bool.or_eq_false_iff, decide_eq_false_iff_not,
      Bool.not_false, Bool.true_and] at hraise
    have hle := hi.2
    have hsent := (em rel).elim hs hs'
    exact ⟨hraise.2, by omega⟩

/-- Neither does what a poll knows become wrong while nobody else changes `sent_data`. -/
theorem SendCell.Grows.knows {m' : Memory} (hc : t.creditsOn = some id) {rel : Prop}
    (h : Grows rel (m.sends.cell id) (m'.sends.cell id))
    (hs : (m'.sends.cell id).sentData = (m.sends.cell id).sentData)
    (hraise : m.raises m' id = false) (hk : t.knows m) : t.knows m' := by
  cases t with
  | anyOf fs c =>
      cases c with
      | noCredit w =>
          cases hc
          rcases hk with hk | ⟨hcl, hmem⟩
          · exact .inl (h.isIdle (fun _ => hs.ge) hraise hk)
          · rcases h with h | ⟨hcl', -⟩
            · exact .inl (by rw [h]; exact ⟨rfl, Nat.le_refl _⟩)
            · exact .inr ⟨hcl' hcl, hmem⟩
      | _ => trivial
  | _ => trivial

/-- **Only a poll releases credit.** -/
theorem Task.creditsOn_of_release {n : Nat} (hn : t.next cfg m = some (.send (.release id n), t')) :
    t.creditsOn = some id := by
  generalize ha : Access.send (.release id n) = a at hn
  replace hn := Task.steps_of_next hn
  induction hn with
  | release i k | releaseAbort i k =>
      cases ha
      rfl
  | closeAll c k => cases c <;> cases ha
  | _ => cases ha

/-! ## Moves -/

theorem Task.creditsOn_of_cancelled (h : t.cancelled = some t') : t'.creditsOn = none := by
  cases t with
  | reserve s => cases s <;> cases h <;> rfl
  | _ => cases h <;> rfl

theorem Task.creditsOn_of_timedOut (h : t.timedOut = some t') : t'.creditsOn = none := by
  cases t <;> cases h <;> rfl

theorem Task.creditsOn_of_aborted (h : t.aborted = some t') : t'.creditsOn = none := by
  cases t with
  | reserve s => cases s <;> cases h <;> rfl
  | acceptLock i x =>
      cases h
      exact (acceptDrop i x).creditsOn_resume
  | closeAll c k =>
      cases c with
      | takeUni =>
          cases h
          exact k.creditsOn_resume
      | takeBi =>
          cases h
          exact k.creditsOn_resume
      | _ => cases h
  | _ => cases h

theorem creditsOn_handleFrame (f : Frame) : (handleFrame cfg f).creditsOn = none := by
  cases f <;> simp only [handleFrame] <;> (repeat' split) <;> rfl

theorem Turn.creditsOn {v : View} {fs : List Frame} {b : Bool} (h : Turn cfg v t t' fs b) :
    t'.creditsOn = none := by
  cases h with
  | frame hl hf => exact creditsOn_handleFrame _
  | _ => rfl

theorem Call.creditsOn_of_start {c : Call} {u : Use} (h : c.start m = some (u, a, t)) :
    t.creditsOn = none := by
  cases Call.starts_of_start h <;> rfl

theorem Call.not_release_of_start {c : Call} {u : Use} (h : c.start m = some (u, a, t)) :
    ¬∃ n, a = .send (.release id n) := by
  rintro ⟨n, rfl⟩
  cases Call.starts_of_start h

theorem LoopAccess.not_release (h : LoopAccess m a) : ¬∃ n, a = .send (.release id n) := by
  rintro ⟨n, rfl⟩
  cases h

section Moves

variable {v v' : View} {who : Option Nat}

/-- A function after a step: it was there before, it has come there by its own next access, or it
does not reserve credit. -/
theorem Moves.task_cases (hm : Moves cfg v who v') {j : Nat} (hj : v'.tasks[j]? = some t') :
    v.tasks[j]? = some t' ∨
      (∃ t a, who = some j ∧ v.tasks[j]? = some t ∧ t.next cfg v.mem = some (a, t') ∧
        v'.mem = v.mem.apply a) ∨
      t'.creditsOn = none := by
  -- the function at `i` is replaced by one that does not reserve credit
  have hset : ∀ {i : Nat} {t₁ : Task}, t₁.creditsOn = none → (v.tasks.set i t₁)[j]? = some t' →
      v.tasks[j]? = some t' ∨
        (∃ t a, who = some j ∧ v.tasks[j]? = some t ∧ t.next cfg v.mem = some (a, t') ∧
          v'.mem = v.mem.apply a) ∨
        t'.creditsOn = none := by
    intro i t₁ ht hj
    rcases getElem?_set_cases hj with ⟨-, rfl⟩ | ⟨-, hj⟩
    · exact .inr (.inr ht)
    · exact .inl hj
  cases hm with
  | next hi hn =>
      rcases getElem?_set_cases hj with ⟨rfl, rfl⟩ | ⟨-, hj⟩
      · exact .inr (.inl ⟨_, _, rfl, hi, hn, rfl⟩)
      · exact .inl hj
  | cancel hi hc => exact hset (Task.creditsOn_of_cancelled hc) hj
  | timeout hi hc => exact hset (Task.creditsOn_of_timedOut hc) hj
  | abort hi ha => exact hset (Task.creditsOn_of_aborted ha) hj
  | turn hi ht => exact hset ht.creditsOn hj
  | exit hi => exact hset rfl hj
  | spawn hc =>
      rcases getElem?_concat_cases hj with rfl | hj
      · exact .inr (.inr (Call.creditsOn_of_start hc))
      · exact .inl hj
  | loop ha hb => exact .inl hj

/-- **What a step does to a flow**: only a function that reserves credit on it releases credit. -/
theorem Moves.grows (hm : Moves cfg v who v') (id : StreamId) :
    SendCell.Grows (∃ k t, who = some k ∧ v.tasks[k]? = some t ∧ t.creditsOn = some id)
      (v.mem.sends.cell id) (v'.mem.sends.cell id) := by
  have happly : ∀ {a : Access} {rel : Prop}, ((∃ n, a = .send (.release id n)) → rel) →
      SendCell.Grows rel (v.mem.sends.cell id) ((v.mem.apply a).sends.cell id) := by
    intro a rel hrel
    exact (v.mem.grows_apply a id).imp_right fun h =>
      ⟨h.1, h.2.1, fun hn => h.2.2 fun hex => hn (hrel hex)⟩
  cases hm with
  | next hi hn =>
      refine happly ?_
      rintro ⟨n, rfl⟩
      exact ⟨_, _, rfl, hi, Task.creditsOn_of_release hn⟩
  | spawn hc => exact happly fun h => absurd h (Call.not_release_of_start hc)
  | loop ha hb => exact happly fun h => absurd h ha.not_release
  | _ => exact .same rfl rfl rfl

end Moves

/-! ## One poll at a time -/

/-- A poll holds the guard of the send operation. -/
theorem Task.guards_of_creditsOn (h : t.creditsOn = some id) :
    (t.sendRole id).guards = 1 ∧ (t.sendRole id).uses = true := by
  cases t with
  | anyOf fs c =>
      cases c with
      | send s =>
          cases s with
          | write c =>
              cases h
              simp [Task.sendRole, Check.sendRole, SendSite.sendRole, SendRole.on, SendRole.guards,
                SendRole.uses]
          | _ => cases h
      | reserveOpen w =>
          cases h
          simp [Task.sendRole, Check.sendRole, SendRole.on, SendRole.guards, SendRole.uses]
      | noCredit w =>
          cases h
          simp [Task.sendRole, Check.sendRole, SendRole.on, SendRole.guards, SendRole.uses]
      | _ => cases h
  | reserve s =>
      cases s with
      | write c =>
          cases h
          simp [Task.sendRole, SendSite.sendRole, SendRole.on, SendRole.guards, SendRole.uses]
      | _ => cases h
  | publish s =>
      cases s with
      | write c =>
          cases h
          simp [Task.sendRole, SendSite.sendRole, SendRole.on, SendRole.guards, SendRole.uses]
      | _ => cases h
  | loadSent w =>
      cases h
      simp [Task.sendRole, SendRole.on, SendRole.guards, SendRole.uses]
  | loadMax w sent =>
      cases h
      simp [Task.sendRole, SendRole.on, SendRole.guards, SendRole.uses]
  | casSent w sent max =>
      cases h
      simp [Task.sendRole, SendRole.on, SendRole.guards, SendRole.uses]
  | release i n abort =>
      cases h
      simp [Task.sendRole, SendRole.on, SendRole.guards, SendRole.uses]
  | pollReserve c =>
      cases h
      simp [Task.sendRole, SendRole.on, SendRole.guards, SendRole.uses]
  | pollPublish c =>
      cases h
      simp [Task.sendRole, SendRole.on, SendRole.guards, SendRole.uses]
  | _ => cases h

section Guard

variable {s s' : Session} {l : Label} {ok : Session → Label → Prop}

/-- **On one flow there is one poll at a time.** -/
theorem eq_of_creditsOn (hr : Reachable (Session.step cfg) ok {} s) {i j : Nat}
    (hi : s.tasks[i]? = some t) (hc : t.creditsOn = some id) (hj : s.tasks[j]? = some t')
    (hc' : t'.creditsOn = some id) : i = j := by
  by_contra hne
  have hinv := ((sendsInv_of_reachable hr).send id).guard
  have hop : (s.mem.sendDirection cfg id).cell.operation.toNat ≤ 1 := Bool.toNat_le _
  have hat : ∀ {k : Nat} {q : Task}, s.tasks[k]? = some q →
      (sendRoles id s.tasks)[k]? = some (q.sendRole id) := by
    intro k q hk
    simp [sendRoles, hk]
  have htwo := add_le_total (f := SendRole.guards) (hat hi) (hat hj) hne
  rw [(Task.guards_of_creditsOn hc).1, (Task.guards_of_creditsOn hc').1] at htwo
  omega

/-- While a poll stays where it is, `sent_data` stays. -/
theorem sentData_of_creditsOn (hr : Reachable (Session.step cfg) ok {} s)
    (hs : s.step cfg l = some s') {k : Nat} (hk : s.tasks[k]? = some t)
    (hk' : s'.tasks[k]? = some t) (hc : t.creditsOn = some id) :
    (s'.mem.sends.cell id).sentData = (s.mem.sends.cell id).sentData := by
  obtain ⟨hg, hu⟩ := Task.guards_of_creditsOn hc
  refine ((sendsInv_of_reachable hr).send id).sentData_of_guarded (sendPoolStep_of_step hr hs id)
    (j := k) (r := t.sendRole id) ?_ hg hu ?_
  · simp [sendRoles, hk]
  · simp [sendRoles, hk']

/-- **What a poll has read stays true** in every run. -/
theorem hasRead_of_reachable (hr : Reachable (Session.step cfg) ok {} s) {k : Nat}
    (hk : s.tasks[k]? = some t) : t.hasRead s.mem := by
  induction hr generalizing k t with
  | init =>
      have hdone : t = .done := by
        rcases k with _ | _ | k <;> cases hk <;> rfl
      rw [hdone]
      trivial
  | @step s s' l hr _ hs ih =>
      by_cases hc : t.creditsOn = none
      · exact Task.hasRead_of_isPlain (Task.isPlain_of_creditsOn hc)
      · have hm : Moves cfg s.view l.actor s'.view := Session.moves_of_step hs
        rcases hm.task_cases hk with hold | ⟨t₀, a, -, ht₀, hn, hmem⟩ | hnone
        · -- the poll stays where it is, and nobody else changes what it has read
          have hread := ih hold
          cases t with
          | loadMax w sent =>
              exact (sentData_of_creditsOn hr hs hold hk rfl).trans hread
          | anyOf fs c =>
              cases c with
              | reserveOpen w => exact hread
              | _ => trivial
          | _ => trivial
        · have hread := Task.hasRead_next hn (ih ht₀)
          rwa [← hmem] at hread
        · exact absurd hnone hc

end Guard

/-! ## The invariant -/

namespace Wakers

variable {x x' : Wakers} {s : Session} {l : Label} {k task : Nat}

/-- A run of the machine is a run of the session. -/
theorem session_of_reachable {ok : Wakers → WakerLabel → Prop}
    (hr : Reachable (Wakers.step cfg) ok {} x) :
    Reachable (Session.step cfg) anyStep {} x.session := by
  induction hr with
  | init => exact .init
  | @step x x' l hr _ hs ih =>
      cases l with
      | session l =>
          simp only [step] at hs
          split_ifs at hs
          obtain ⟨s, hs', rfl⟩ := Option.map_eq_some_iff.1 hs
          exact .step ih trivial hs'
      | register k task =>
          simp only [step] at hs
          split at hs
          · split_ifs at hs
            cases hs
            exact ih
          · cases hs
      | wake id =>
          simp only [step] at hs
          split_ifs at hs
          cases hs
          exact ih

/-- **The invariant of the wakers.** A poll behind its registration has registered. While it goes
on, all the tasks that wait for the flow have been woken, and its own is covered. Every task that
waits is covered. -/
structure WakeInv (x : Wakers) : Prop where
  armed : ∀ {k : Nat} {t : Task}, x.session.tasks[k]? = some t → t.creditsOn ≠ none →
    t.registers = false → x.polling k ≠ none
  polls : ∀ {k task : Nat}, x.polling k = some task → ∃ t id, x.session.tasks[k]? = some t ∧
    t.creditsOn = some id ∧ (x.slot id).AllWoken ∧ (x.slot id).Covers task (t.knows x.session.mem)
  sound : ∀ id, (x.slot id).Sound (x.session.mem.sends.cell id).isIdle

/-- A poll that takes a step has registered. -/
theorem WakeInv.polling_of_acting (h : WakeInv x) (hl : x.mustRegister l = false)
    (hk : l.actor = some k) (ht : x.session.tasks[k]? = some t) (hc : t.creditsOn ≠ none) :
    ∃ task, x.polling k = some task := by
  refine Option.ne_none_iff_exists'.1 ?_
  cases hreg : t.registers with
  | false => exact h.armed ht hc hreg
  | true =>
      intro hnone
      simp only [mustRegister, hk, ht, Option.any_some, hreg, hnone, Option.isNone_none,
        Bool.and_self] at hl
      cases hl

/-- While a poll goes on, all that wait for its flow have been woken. -/
theorem WakeInv.allWoken_of_acting (h : WakeInv x) (hl : x.mustRegister l = false)
    (hk : l.actor = some k) (ht : x.session.tasks[k]? = some t) (hc : t.creditsOn = some id) :
    (x.slot id).AllWoken := by
  obtain ⟨task, hp⟩ := h.polling_of_acting hl hk ht (by rw [hc]; exact Option.some_ne_none _)
  obtain ⟨t', id', ht', hc', hw, -⟩ := h.polls hp
  cases ht.symm.trans ht'
  cases hc.symm.trans hc'
  exact hw

/-- The step in which a poll returns `Pending`: the memory stays, and the poll is over. -/
theorem pending_some (hs : x.session.step cfg l = some s) (hp : x.pending l id = some task) :
    ∃ k t t', x.session.tasks[k]? = some t ∧ t.blocksOn x.session.mem = some id ∧
      x.polling k = some task ∧ s.tasks[k]? = some t' ∧ t'.creditsOn = none ∧
      s.mem = x.session.mem := by
  cases Session.steps_of_step hs with
  | @op i o a t' ho hn =>
      have ht : x.session.tasks[i + 2]? = some o.task := Session.tasks_op ho
      simp only [pending, ht] at hp
      split_ifs at hp with hb
      obtain ⟨rfl, hc⟩ := Task.next_of_blocksOn hb hn
      refine ⟨i + 2, o.task, t', ht, hb, hp, ?_, hc, rfl⟩
      have hlt : i < x.session.ops.length := (List.getElem?_eq_some_iff.1 ho).1
      exact Session.tasks_op (o := { o with task := t' }) (List.getElem?_set_self hlt)
  | _ => cases hp

/-- The task that a poll goes on for. -/
theorem pollingAfter_some (h : x.pollingAfter l s k = some task) :
    ∃ t, s.tasks[k]? = some t ∧ t.creditsOn ≠ none ∧ (t.registers = true → l.actor ≠ some k) ∧
      x.polling k = some task := by
  unfold pollingAfter at h
  split at h
  · rename_i t ht
    split_ifs at h with hc
    exact ⟨t, ht, Option.isSome_iff_ne_none.1 hc.1, hc.2, h⟩
  · cases h

/-- A poll that goes on keeps what the slot says about its task. -/
theorem slotAfter_covers {idle idle' : Prop} (hp : x.pending l id = none)
    (hw : (x.slot id).AllWoken) (hc : (x.slot id).Covers task idle)
    (hi : x.session.mem.raises s.mem id = false → idle → idle') :
    (x.slotAfter l s id).AllWoken ∧ (x.slotAfter l s id).Covers task idle' := by
  unfold slotAfter
  rw [hp]
  split_ifs with hr
  · exact ⟨hw.owe, hc.owe⟩
  · exact ⟨hw, hc.mono (hi (eq_false_of_ne_true hr))⟩

/-- **A step of the session keeps the invariant.** -/
theorem WakeInv.session (h : WakeInv x) (hr : Reachable (Session.step cfg) anyStep {} x.session)
    (hl : x.mustRegister l = false) (hs : x.session.step cfg l = some s) :
    WakeInv { session := s, slot := x.slotAfter l s, polling := x.pollingAfter l s } := by
  have hm : Moves cfg x.session.view l.actor s.view := Session.moves_of_step hs
  refine ⟨?_, ?_, ?_⟩
  · -- a poll behind its registration: it was there before, or has just come there
    intro k t ht hc hreg
    have hkeep : x.pollingAfter l s k = x.polling k := by
      unfold pollingAfter
      rw [ht]
      refine if_pos ⟨Option.isSome_iff_ne_none.2 hc, fun h => ?_⟩
      rw [hreg] at h
      cases h
    show x.pollingAfter l s k ≠ none
    rw [hkeep]
    rcases hm.task_cases ht with hold | ⟨t₀, a, hk, ht₀, hn, -⟩ | hnone
    · exact h.armed hold hc hreg
    · have hc₀ := (Task.credits_of_next hn hc).creditsOn_eq hreg
      obtain ⟨task, hp⟩ := h.polling_of_acting hl hk ht₀ (hc₀ ▸ hc)
      rw [hp]
      exact Option.some_ne_none _
    · exact absurd hnone hc
  · intro k task hp
    obtain ⟨t, ht, hc, hreg, hp⟩ := pollingAfter_some hp
    obtain ⟨t₀, id, ht₀, hc₀, hw, hcov⟩ := h.polls hp
    -- the poll goes on, so it is not the one that returns `Pending`
    have hpend : x.pending l id = none := by
      by_contra hne
      obtain ⟨task', hp'⟩ := Option.ne_none_iff_exists'.1 hne
      obtain ⟨k', t₁, t₂, ht₁, hb, -, ht₂, hnone, -⟩ := pending_some hs hp'
      have hkk := eq_of_creditsOn hr ht₀ hc₀ ht₁ (Task.creditsOn_of_blocksOn hb)
      subst hkk
      cases ht.symm.trans ht₂
      exact hc hnone
    rcases hm.task_cases ht with hold | ⟨t₁, a, hk, ht₁, hn, hmem⟩ | hnone
    · cases ht₀.symm.trans hold
      refine ⟨t, id, ht, hc₀, slotAfter_covers hpend hw hcov fun hraise hk => ?_⟩
      exact (hm.grows id).knows hc₀ (sentData_of_creditsOn hr hs hold ht hc₀) hraise hk
    · cases ht₀.symm.trans ht₁
      have hreg' : t.registers = false := by
        by_contra hne
        exact hreg (eq_true_of_ne_false hne) hk
      have hsame := (Task.credits_of_next hn hc).creditsOn_eq hreg'
      refine ⟨t, id, ht, hsame ▸ hc₀, slotAfter_covers hpend hw hcov fun _ hk => ?_⟩
      have hknows := Task.knows_next hn (hasRead_of_reachable hr ht₀) hk
      rwa [← hmem] at hknows
    · exact absurd hnone hc
  · intro id
    show (x.slotAfter l s id).Sound _
    unfold slotAfter
    split_ifs with hraise
    · exact (h.sound id).owe
    · cases hp : x.pending l id with
      | some task =>
          obtain ⟨k, t, t', ht, hb, hp, -, -, hmem⟩ := pending_some hs hp
          obtain ⟨t₀, id₀, ht₀, hc₀, hw, hcov⟩ := h.polls hp
          cases ht.symm.trans ht₀
          cases (Task.creditsOn_of_blocksOn hb).symm.trans hc₀
          show ((x.slot id).wait task).Sound (s.mem.sends.cell id).isIdle
          rw [hmem]
          exact .wait hw (hcov.mono (Task.idle_of_blocksOn hb))
      | none =>
          by_cases hrel : ∃ k t, l.actor = some k ∧ x.session.tasks[k]? = some t ∧
              t.creditsOn = some id
          · obtain ⟨k, t, hk, ht, hc⟩ := hrel
            exact (h.allWoken_of_acting hl hk ht hc).sound
          · refine (h.sound id).mono fun hi => ?_
            exact (hm.grows id).isIdle (fun h => absurd h hrel) (eq_false_of_ne_true hraise) hi

/-- **A registration keeps the invariant** when it is the task's turn. -/
theorem WakeInv.register (h : WakeInv x) (hr : Reachable (Session.step cfg) anyStep {} x.session)
    {fs : List Flag} {w : Writer} (ht : x.session.tasks[k]? = some (.anyOf fs (.reserveOpen w)))
    (hok : x.TakesTurns (.register k task)) :
    WakeInv { x with
      slot := Function.update x.slot w.id ((x.slot w.id).register task)
      polling := Function.update x.polling k (some task) } := by
  have hwoken : ((x.slot w.id).register task).AllWoken :=
    WakerSlot.allWoken_register (hok _ ht _ rfl)
  refine ⟨?_, ?_, ?_⟩
  · intro k' t ht' hc hreg
    show Function.update x.polling k (some task) k' ≠ none
    by_cases hk : k' = k
    · subst hk
      rw [Function.update_self]
      exact Option.some_ne_none _
    · rw [Function.update_of_ne hk]
      exact h.armed ht' hc hreg
  · intro k' task' hp
    replace hp : Function.update x.polling k (some task) k' = some task' := hp
    by_cases hk : k' = k
    · subst hk
      rw [Function.update_self] at hp
      cases hp
      refine ⟨_, w.id, ht, rfl, ?_⟩
      show (Function.update x.slot w.id _ w.id).AllWoken ∧
        (Function.update x.slot w.id _ w.id).Covers task True
      rw [Function.update_self]
      exact ⟨hwoken, WakerSlot.covers_register _ _⟩
    · rw [Function.update_of_ne hk] at hp
      obtain ⟨t, id, ht', hc, hw, hcov⟩ := h.polls hp
      refine ⟨t, id, ht', hc, ?_⟩
      show (Function.update x.slot w.id _ id).AllWoken ∧
        (Function.update x.slot w.id _ id).Covers task' _
      -- another poll is on another flow
      have hne : id ≠ w.id := by
        rintro rfl
        exact hk (eq_of_creditsOn hr ht' hc ht rfl)
      rw [Function.update_of_ne hne]
      exact ⟨hw, hcov⟩
  · intro id
    show (Function.update x.slot w.id _ id).Sound _
    by_cases hid : id = w.id
    · subst hid
      rw [Function.update_self]
      exact hwoken.sound
    · rw [Function.update_of_ne hid]
      exact h.sound id

/-- **A wake keeps the invariant.** -/
theorem WakeInv.wake (h : WakeInv x) (id : StreamId) :
    WakeInv { x with slot := Function.update x.slot id (x.slot id).wake } := by
  refine ⟨h.armed, ?_, ?_⟩
  · intro k task hp
    obtain ⟨t, id', ht, hc, hw, hcov⟩ := h.polls hp
    refine ⟨t, id', ht, hc, ?_⟩
    show (Function.update x.slot id _ id').AllWoken ∧
      (Function.update x.slot id _ id').Covers task _
    by_cases hid : id' = id
    · subst hid
      rw [Function.update_self]
      exact ⟨hw.wake, hcov.wake⟩
    · rw [Function.update_of_ne hid]
      exact ⟨hw, hcov⟩
  · intro id'
    show (Function.update x.slot id _ id').Sound _
    by_cases hid : id' = id
    · subst hid
      rw [Function.update_self]
      exact (h.sound _).wake
    · rw [Function.update_of_ne hid]
      exact h.sound id'

/-- The invariant holds in every run in which the tasks take turns. -/
theorem wakeInv_of_reachable (hr : Reachable (Wakers.step cfg) TakesTurns {} x) : WakeInv x := by
  refine hr.invariant (I := WakeInv) ?_ fun {x l x'} hr hinv hok hs => ?_
  · refine ⟨?_, nofun, fun id t ht => ?_⟩
    · intro k t ht hc
      rcases k with _ | _ | k <;> cases ht <;> exact absurd rfl hc
    · exact absurd ht (Finset.notMem_empty t)
  · have hses := session_of_reachable hr
    cases l with
    | session l =>
        simp only [step] at hs
        split_ifs at hs with hl
        obtain ⟨s, hs', rfl⟩ := Option.map_eq_some_iff.1 hs
        exact hinv.session hses (eq_false_of_ne_true hl) hs'
    | register k task =>
        simp only [step] at hs
        split at hs
        · rename_i fs w ht
          split_ifs at hs
          cases hs
          exact hinv.register hses ht hok
        · cases hs
    | wake id =>
        simp only [step] at hs
        split_ifs at hs
        cases hs
        exact hinv.wake id

/-- A wake that is due can be made, and reaches the task whose waker is registered. -/
theorem exists_wake (hd : 0 < (x.slot id).due) (hreg : (x.slot id).registered = some task) :
    ∃ x', x.step cfg (.wake id) = some x' ∧ task ∈ (x'.slot id).woken := by
  refine ⟨_, if_pos hd, ?_⟩
  show task ∈ (Function.update x.slot id (x.slot id).wake id).woken
  rw [Function.update_self]
  show task ∈ (x.slot id).registered.elim _ _
  rw [hreg]
  exact Finset.mem_insert_self _ _

/-- **No lost wake-up for blocked writers**, when the tasks that poll one flow take turns. A task
whose last poll returned `Pending` for lack of credit has its waker in the slot or has been woken
since. When there is credit or the flow is closed, it has been woken, or is by the wake that
`update_max` or `close` is about to make. -/
theorem no_lost_wakeup (hr : Reachable (Wakers.step cfg) TakesTurns {} x) (id : StreamId) :
    (∀ task ∈ (x.slot id).waiting,
      (x.slot id).registered = some task ∨ task ∈ (x.slot id).woken) ∧
    ((x.session.mem.sends.cell id).sentData < (x.session.mem.sends.cell id).maxData ∨
        (x.session.mem.sends.cell id).flowClosed = true →
      ∀ task ∈ (x.slot id).waiting, task ∈ (x.slot id).woken ∨
        0 < (x.slot id).due ∧
          ∃ x', x.step cfg (.wake id) = some x' ∧ task ∈ (x'.slot id).woken) := by
  have hsound := (wakeInv_of_reachable hr).sound id
  constructor
  · intro task ht
    exact (hsound.not_lost ht).symm.imp_left And.left
  · intro hcredit task ht
    refine (hsound.not_lost ht).imp_right fun ⟨hreg, hdue⟩ => ?_
    have hd := hdue fun hi => by
      rcases hcredit with hc | hc
      · exact absurd hi.2 (Nat.not_le.2 hc)
      · exact absurd (hi.1.symm.trans hc) Bool.noConfusion
    exact ⟨hd, exists_wake hd hreg⟩

/-- A task waits, credit comes, and the task is woken; so it may poll again. -/
theorem no_lost_wakeup_run :
    ∃ x, Reachable (Wakers.step ⟨false, {}⟩) TakesTurns {} x ∧ 0 ∈ (x.slot ⟨2⟩).waiting ∧
      (x.slot ⟨2⟩).due = 0 ∧
      (x.session.mem.sends.cell ⟨2⟩).sentData < (x.session.mem.sends.cell ⟨2⟩).maxData ∧
      0 ∈ (x.slot ⟨2⟩).woken := by
  obtain ⟨x, hr, hw, hd, hc⟩ : ∃ x, Reachable (Wakers.step ⟨false, {}⟩) TakesTurns {} x ∧
      0 ∈ (x.slot ⟨2⟩).waiting ∧ (x.slot ⟨2⟩).due = 0 ∧
      (x.session.mem.sends.cell ⟨2⟩).sentData < (x.session.mem.sends.cell ⟨2⟩).maxData :=
    Reachable.exists_of_run
      (List.flatten [List.map .session (List.flatten [[.call .openUni], List.replicate 7 (.op 0),
          [.call (.pollWrite 0 [7])], List.replicate 6 (.op 1)]),
        [.register 3 0],
        List.map .session (List.flatten [List.replicate 7 (.op 1),
          [.receive (.binary [6, 2, 5])], List.replicate 3 .inbound]),
        [.wake ⟨2⟩]]) (by decide +kernel)
  refine ⟨x, hr, hw, hd, hc, ?_⟩
  rcases (no_lost_wakeup hr ⟨2⟩).2 (.inl hc) 0 hw with h | ⟨h, -⟩
  · exact h
  · exact absurd hd h.ne'

/-- Two clones of a stream are polled by two tasks through `poll_write`, and both return `Pending`:
the second registration takes the place of the first. The credit that arrives then wakes the second
task only, and nothing is left to wake the first. -/
theorem wakeup_lost :
    ∃ x, Reachable (Wakers.step ⟨false, {}⟩) anyStep {} x ∧ 0 ∈ (x.slot ⟨2⟩).waiting ∧
      (x.slot ⟨2⟩).registered = none ∧ 0 ∉ (x.slot ⟨2⟩).woken ∧ (x.slot ⟨2⟩).due = 0 ∧
      (x.session.mem.sends.cell ⟨2⟩).sentData < (x.session.mem.sends.cell ⟨2⟩).maxData :=
  Reachable.exists_of_run
    (List.flatten [List.map .session (List.flatten [[.call .openUni], List.replicate 7 (.op 0),
        [.call (.cloneSend 0), .call (.pollWrite 0 [7])], List.replicate 6 (.op 2)]),
      [.register 4 0],
      List.map .session (List.flatten [List.replicate 7 (.op 2), [.call (.pollWrite 1 [7])],
        List.replicate 6 (.op 3)]),
      [.register 5 1],
      List.map .session (List.flatten [List.replicate 7 (.op 3), [.receive (.binary [6, 2, 5])],
        List.replicate 3 .inbound]),
      [.wake ⟨2⟩]]) (by decide +kernel)

end Wakers

end WebsockMux.Native
