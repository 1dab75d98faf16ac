import WebsockMux.Lib.Pool
import WebsockMux.Native.Moves

/-!
# Borrows of a receive stream

The functions that the application calls on a `RecvStream` borrow it: the read functions exclusively,
`stop` not. Two operations in progress have no borrows that conflict (`borrows_apart`), so of all
functions in progress at most one reads a given stream (`reads_le_one`). The functions of the two
session tasks borrow no stream.
-/

set_option autoImplicit false

namespace WebsockMux.Native

open WebsockMux.Lib WebsockMux.Proto

variable {cfg : Config} {m : Memory} {v v' : View} {who : Option Nat}

/-- The stream that a function is reading; the publication of new credit belongs to the read. -/
def Task.readsOf : Task → Option StreamId
  | .read id _ _ => some id
  | .storeMax id _ => some id
  | .queueCredit id _ => some id
  | _ => none

/-- The functions that are reading a stream. -/
def Task.reads (id : StreamId) (t : Task) : Nat := if t.readsOf = some id then 1 else 0

/-- The stream that a function has borrowed from the application, and whether exclusively. -/
def Task.borrowsOf : Task → Option (StreamId × Bool)
  | .read id _ _ => some (id, true)
  | .storeMax id _ => some (id, true)
  | .queueCredit id _ => some (id, true)
  | .stopSwap id _ => some (id, false)
  | .stopMark id _ => some (id, false)
  | _ => none

/-- A reader has borrowed its stream exclusively. -/
theorem Task.borrowsOf_of_readsOf {t : Task} {id : StreamId} (h : t.readsOf = some id) :
    t.borrowsOf = some (id, true) := by
  cases t <;> cases h <;> rfl

/-- A function that has returned has no borrow. -/
theorem Task.isDone_of_borrowsOf {t : Task} {b : StreamId × Bool} (h : t.borrowsOf = some b) :
    t.isDone = false := by
  cases t <;> first | rfl | cases h

theorem Ret.borrowsOf_resume (k : Ret) : k.resume.borrowsOf = none := by
  cases k <;> rfl

theorem SendSite.borrowsOf_resume (s : SendSite) (ok : Bool) : (s.resume cfg ok).borrowsOf = none := by
  cases s with
  | write c =>
      cases ok with
      | false => rfl
      | true =>
          simp only [SendSite.resume, writeLoop]
          split_ifs <;> rfl
  | inboundCredit i bi => cases bi <;> cases ok <;> rfl
  | _ => cases ok <;> rfl

theorem Check.borrowsOf_resume (c : Check) (b : Bool) : (c.resume cfg b).borrowsOf = none := by
  cases c with
  | send s =>
      cases b with
      | false => rfl
      | true => exact s.borrowsOf_resume false
  | trySend s k => cases s <;> cases b <;> rfl
  | writeStart w =>
      cases b with
      | true => rfl
      | false =>
          simp only [Check.resume, writeLoop]
          split_ifs <;> rfl
  | reserveOpen w =>
      cases b with
      | false => rfl
      | true =>
          simp only [Check.resume, outOfCredit]
          split_ifs <;> rfl
  | noCredit w =>
      cases b with
      | true => rfl
      | false =>
          simp only [Check.resume]
          split_ifs <;> rfl
  | _ => cases b <;> rfl

/-- A function goes on with its borrow, or has none. -/
theorem Task.borrowsOf_next {t t' : Task} {a : Access} (hn : t.next cfg m = some (a, t')) :
    t'.borrowsOf = t.borrowsOf ∨ t'.borrowsOf = none := by
  replace hn := Task.steps_of_next hn
  induction hn with
  | readAgain | readGrant | storeMax | stopSwap => exact .inl rfl
  | anyOfNil c | anyOfSet f fs c | anyOfLast f c => exact .inr (c.borrowsOf_resume _)
  | reserveClosed s | publish s | unpublished s => exact .inr (s.borrowsOf_resume _)
  | trySend s k | trySendFull s k => exact .inr (by cases s <;> rfl)
  | closeAll c k =>
      cases c with
      | closeFlows => exact .inr k.borrowsOf_resume
      | _ => exact .inr rfl
  | selectApi c | selectApiSame c => exact .inr (by cases c <;> rfl)
  | swapOperation c =>
      right
      cases c <;> simp only [SendCall.body] <;> (try split_ifs) <;> rfl
  | outOfCredit w => exact .inr (outOfCredit_elim w fun _ => rfl)
  | casSent => exact .inr (granted_elim _ rfl rfl)
  | cancel k | closeAllAgain k | releaseHandle _ k | closeReceiver _ k | dropTx _ k =>
      exact .inr k.borrowsOf_resume
  | acceptLockGone | acceptClosed => exact .inr (Ret.borrowsOf_resume _)
  | _ => exact .inr rfl

theorem Task.borrowsOf_cancelled {t t' : Task} (h : t.cancelled = some t') : t'.borrowsOf = none := by
  cases t with
  | reserve s => cases s <;> cases h <;> rfl
  | _ => cases h <;> rfl

theorem Task.borrowsOf_timedOut {t t' : Task} (h : t.timedOut = some t') : t'.borrowsOf = none := by
  cases t <;> cases h <;> rfl

theorem Task.borrowsOf_aborted {t t' : Task} (h : t.aborted = some t') : t'.borrowsOf = none := by
  cases t with
  | reserve s => cases s <;> cases h <;> rfl
  | acceptLock i x =>
      cases h
      exact Ret.borrowsOf_resume _
  | closeAll c k => cases c <;> cases h <;> exact k.borrowsOf_resume
  | _ => cases h

theorem Turn.borrowsOf_eq {t t' : Task} {fs : List Frame} {b : Bool} (h : Turn cfg v t t' fs b) :
    t'.borrowsOf = none := by
  cases h with
  | @frame f hl hf => cases f <;> simp only [handleFrame] <;> (try split_ifs) <;> rfl
  | _ => rfl

/-! ## The session tasks borrow nothing -/

/-- The functions of the two session tasks borrow no stream. -/
def FrontQuiet (ts : List Task) : Prop :=
  2 ≤ ts.length ∧ ∀ i t, i < 2 → ts[i]? = some t → t.borrowsOf = none

theorem FrontQuiet.set {ts : List Task} (h : FrontQuiet ts) {i : Nat} {t' : Task}
    (ht : i < 2 → t'.borrowsOf = none) : FrontQuiet (ts.set i t') := by
  refine ⟨by simpa using h.1, fun j t hj hjt => ?_⟩
  rw [List.getElem?_set] at hjt
  split_ifs at hjt with hij hlt
  · cases hjt
    exact ht (hij ▸ hj)
  · exact h.2 j t hj hjt

/-- A move keeps it. -/
theorem FrontQuiet.moves (hq : FrontQuiet v.tasks) (h : Moves cfg v who v') :
    FrontQuiet v'.tasks := by
  cases h with
  | @next i t t' a hi hn =>
      refine hq.set fun hlt => ?_
      rcases Task.borrowsOf_next hn with hr | hr
      · rw [hr]
        exact hq.2 i t hlt hi
      · exact hr
  | cancel hi hc => exact hq.set fun _ => Task.borrowsOf_cancelled hc
  | timeout hi hc => exact hq.set fun _ => Task.borrowsOf_timedOut hc
  | abort hi ha => exact hq.set fun _ => Task.borrowsOf_aborted ha
  | turn hi ht => exact hq.set fun _ => ht.borrowsOf_eq
  | exit hi => exact hq.set fun _ => rfl
  | spawn hc =>
      refine ⟨?_, fun j t hj hjt => ?_⟩
      · rw [List.length_append]
        exact hq.1.trans (Nat.le_add_right _ _)
      · rw [List.getElem?_append_left (hj.trans_le hq.1)] at hjt
        exact hq.2 j t hj hjt
  | loop ha hb => exact hq

theorem frontQuiet_of_reachable {ok : Session → Label → Prop} {s : Session}
    (hr : Reachable (Session.step cfg) ok {} s) : FrontQuiet s.tasks := by
  refine hr.invariant (I := fun s => FrontQuiet s.tasks) ?_
    fun _ hq _ hs => FrontQuiet.moves (v := Session.view _) hq (Session.moves_of_step hs)
  refine ⟨Nat.le_refl 2, fun i t hi ht => ?_⟩
  match i with
  | 0 =>
      cases ht
      rfl
  | 1 =>
      cases ht
      rfl

/-! ## Operations of the application -/

/-- Two borrows conflict in either order. -/
theorem Use.conflicts_comm (u w : Use) : u.conflicts w = w.conflicts u := by
  cases u <;> cases w <;> simp [Use.conflicts, Bool.or_comm, eq_comm]

/-- Two operations of which one has returned, or whose borrows do not conflict. -/
def Op.Apart (o p : Op) : Prop :=
  o.task.isDone = true ∨ p.task.isDone = true ∨ o.use.conflicts p.use = false

theorem Op.Apart.symm {o p : Op} (h : o.Apart p) : p.Apart o := by
  rcases h with h | h | h
  · exact .inr (.inl h)
  · exact .inl h
  · exact .inr (.inr (by rw [Use.conflicts_comm]; exact h))

/-- What holds of the operations: a function that has borrowed a stream is in an operation that did,
and the borrows of the operations in progress do not conflict. -/
structure BorrowInv (ops : List Op) : Prop where
  borrowed : ∀ o ∈ ops, ∀ id excl, o.task.borrowsOf = some (id, excl) → o.use = .recv id excl
  apart : ∀ (i j : Nat) (o p : Op), ops[i]? = some o → ops[j]? = some p → i ≠ j → o.Apart p

/-- An operation goes on. -/
theorem BorrowInv.set {ops : List Op} (hinv : BorrowInv ops) {i : Nat} {o : Op} {t' : Task}
    (hi : ops[i]? = some o) (hd : o.task.isDone = false)
    (h : t'.borrowsOf = o.task.borrowsOf ∨ t'.borrowsOf = none) :
    BorrowInv (ops.set i { o with task := t' }) where
  borrowed := by
    refine forall_mem_set hinv.borrowed fun id excl hid => ?_
    rcases h with h | h
    · exact hinv.borrowed o (List.mem_of_getElem? hi) id excl (h ▸ hid)
    · rw [show ({ o with task := t' } : Op).task = t' from rfl, h] at hid
      cases hid
  apart := by
    -- the operation was in progress, so it stays apart from every other one
    have hnew : ∀ (j : Nat) (p : Op), ops[j]? = some p → i ≠ j →
        ({ o with task := t' } : Op).Apart p := by
      intro j p hj hij
      rcases hinv.apart i j o p hi hj hij with hdone | hdone | hc
      · rw [hd] at hdone
        cases hdone
      · exact .inr (.inl hdone)
      · exact .inr (.inr hc)
    intro j k p q hj hk hjk
    rcases getElem?_set_cases hj with ⟨rfl, rfl⟩ | ⟨hji, hj'⟩
    · rcases getElem?_set_cases hk with ⟨rfl, -⟩ | ⟨-, hk'⟩
      · exact absurd rfl hjk
      · exact hnew k q hk' hjk
    · rcases getElem?_set_cases hk with ⟨rfl, rfl⟩ | ⟨-, hk'⟩
      · exact (hnew j p hj' (Ne.symm hji)).symm
      · exact hinv.apart j k p q hj' hk' hjk

/-- A call borrows the stream of its function. -/
theorem Call.borrowsOf_start {c : Call} {u : Use} {a : Access} {t : Task} {id : StreamId}
    {excl : Bool} (h : c.start m = some (u, a, t)) (ht : t.borrowsOf = some (id, excl)) :
    u = .recv id excl := by
  cases Call.starts_of_start h <;> cases ht
  all_goals rfl

/-- An operation starts. -/
theorem BorrowInv.call {s : Session} {c : Call} {u : Use} {a : Access} {t : Task}
    (hinv : BorrowInv s.ops) (hst : c.start s.mem = some (u, a, t)) (hb : s.mayBorrow u = true) :
    BorrowInv (s.ops ++ [⟨u, t⟩]) where
  borrowed := forall_mem_concat hinv.borrowed fun _ _ hid => Call.borrowsOf_start hst hid
  apart := by
    -- the call was allowed to borrow
    have hnew : ∀ (j : Nat) (p : Op), s.ops[j]? = some p → p.Apart ⟨u, t⟩ := by
      intro j p hj
      have hbo := List.all_eq_true.1 hb p (List.mem_of_getElem? hj)
      rcases Bool.or_eq_true_iff.1 hbo with hd | hc
      · exact .inl hd
      · exact .inr (.inr (by simpa using hc))
    intro j k p q hj hk hjk
    rcases getElem?_concat_last hj with hj' | ⟨hj', rfl⟩
    · rcases getElem?_concat_last hk with hk' | ⟨-, rfl⟩
      · exact hinv.apart j k p q hj' hk' hjk
      · exact hnew j p hj'
    · rcases getElem?_concat_last hk with hk' | ⟨hk', -⟩
      · exact (hnew k q hk').symm
      · exact absurd (hj'.trans hk'.symm) hjk

/-- A function that takes a step has not returned. -/
theorem Task.isDone_of_next {t : Task} {r : Access × Task} (h : t.next cfg m = some r) :
    t.isDone = false := by
  cases t <;> first | rfl | cases h

theorem BorrowInv.step {s s' : Session} {l : Label} (hinv : BorrowInv s.ops)
    (h : s.step cfg l = some s') : BorrowInv s'.ops := by
  cases Session.steps_of_step h with
  | call ho hst hb => exact hinv.call hst hb
  | op ho hn => exact hinv.set ho (Task.isDone_of_next hn) (Task.borrowsOf_next hn)
  | @cancelOp i o t ho hc =>
      refine hinv.set ho ?_ (.inr (Task.borrowsOf_cancelled hc))
      cases ht : o.task <;> first | rfl | (rw [ht] at hc; cases hc)
  | @timeout i o t ho hc =>
      refine hinv.set ho ?_ (.inr (Task.borrowsOf_timedOut hc))
      cases ht : o.task <;> first | rfl | (rw [ht] at hc; cases hc)
  | _ => exact hinv

/-- **Borrows do not conflict**, in every state of every run. -/
theorem borrows_apart {ok : Session → Label → Prop} {s : Session}
    (hr : Reachable (Session.step cfg) ok {} s) : BorrowInv s.ops := by
  refine hr.invariant (I := fun s => BorrowInv s.ops) ?_ fun _ hinv _ hs => hinv.step hs
  exact ⟨fun o ho => (by cases ho), fun i j o p hi => (by cases hi)⟩

/-- Two different operations do not have the same stream, one of them exclusively. -/
theorem BorrowInv.alone {ops : List Op} (hinv : BorrowInv ops) {i j : Nat} {o p : Op}
    {id : StreamId} {x y : Bool} (hi : ops[i]? = some o) (hj : ops[j]? = some p) (hij : i ≠ j)
    (ho : o.task.borrowsOf = some (id, x)) (hp : p.task.borrowsOf = some (id, y)) :
    (x || y) = false := by
  rcases hinv.apart i j o p hi hj hij with hd | hd | hc
  · rw [Task.isDone_of_borrowsOf ho] at hd
    cases hd
  · rw [Task.isDone_of_borrowsOf hp] at hd
    cases hd
  · rw [hinv.borrowed o (List.mem_of_getElem? hi) id x ho,
      hinv.borrowed p (List.mem_of_getElem? hj) id y hp] at hc
    simpa [Use.conflicts] using hc

/-- **A receive stream has at most one reader**, in every state of every run. -/
theorem reads_le_one {ok : Session → Label → Prop} {s : Session}
    (hr : Reachable (Session.step cfg) ok {} s) (id : StreamId) :
    total (Task.reads id) s.tasks ≤ 1 := by
  have hinv := borrows_apart hr
  have hone : ∀ {t : Task}, t.reads id ≠ 0 → t.borrowsOf = some (id, true) := by
    intro t ht
    unfold Task.reads at ht
    split_ifs at ht with h
    · exact Task.borrowsOf_of_readsOf h
    · exact absurd rfl ht
  have hops : total (fun o : Op => Task.reads id o.task) s.ops ≤ 1 := by
    refine total_le_one (fun o => ?_) fun i j o p hi hj hij => ?_
    · unfold Task.reads
      split_ifs <;> omega
    · by_contra hne
      have hxy := hinv.alone hi hj hij (hone fun h => hne (.inl h)) (hone fun h => hne (.inr h))
      cases hxy
  have hq := frontQuiet_of_reachable hr
  -- the functions of the session tasks do not read
  have hzero : ∀ i t, i < 2 → s.tasks[i]? = some t → t.reads id = 0 := by
    intro i t hi ht
    by_contra hne
    have := hone hne
    rw [hq.2 i t hi ht] at this
    cases this
  have hmap : total (Task.reads id) (s.ops.map Op.task) =
      total (fun o => Task.reads id o.task) s.ops := by
    simp [total, Function.comp_def]
  unfold Session.tasks
  rw [total_cons, total_cons, hzero 0 s.inb.phase.task (by omega) rfl,
    hzero 1 s.out.pc.task (by omega) rfl, hmap, Nat.zero_add, Nat.zero_add]
  exact hops

end WebsockMux.Native
