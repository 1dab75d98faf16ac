import WebsockMux.Native.Admission
import WebsockMux.Native.SendInvariant

/-!
# What an operation returns

The control points say what a function does to the memory, not what it returns. `Task.outcome` adds
that: the value that `write_buf`, `finish`, `reset`, `poll_write` or `stop` returns, at the step
that decides it. Between that step and the return the function only releases what it holds.

A `OpWatch` is a session together with the record of one operation: the frames that its own steps put
into the queue, by how much they changed `sent_data`, the value of `sent_data` when it took the
guard and when it gave it back, what it returns, and whether its future was dropped. A watched
session takes the steps of the session (`OpWatch.session_of_reachable`).
-/

set_option autoImplicit false

namespace WebsockMux.Native

open WebsockMux.Lib WebsockMux.Proto

/-- What an operation on a stream returns. -/
inductive Outcome where
  /-- `Ok(())`. -/
  | ok
  /-- `Ready(Ok(n))` of `poll_write`. -/
  | wrote (n : Nat)
  /-- `Pending`. -/
  | pending
  /-- An error. -/
  | err
  deriving DecidableEq

/-- The loop of `write_buf` ends at the end of the data, or when no byte fits into a frame. -/
def Writer.outcome (cfg : Config) (w : Writer) : Option Outcome :=
  if w.data = [] then some .ok
  else if w.wanted cfg = 0 then some .err
  else none

/-- What is returned right behind the guard: `poll_write` of an empty buffer, and `reset` with a
code beyond the range of a varint. -/
def SendCall.outcome : SendCall → Option Outcome
  | .write w => if w.direct = false ∧ w.data = [] then some (.wrote 0) else none
  | .reset _ code => if code ≤ VarInt.max then none else some .err
  | _ => none

/-- What follows from the result of `send_frame`. -/
def SendSite.outcome (cfg : Config) : SendSite → Bool → Option Outcome
  | .write c, true => c.rest.outcome cfg
  | .finish _, true => some .ok
  | .reset _ _, true => some .ok
  | .stop _ _, true => some .ok
  | .write _, false => some .err
  | .finish _, false => some .err
  | .reset _ _, false => some .err
  | .stop _ _, false => some .err
  | _, _ => none

/-- What follows from a check of flags. -/
def Check.outcome (cfg : Config) : Check → Bool → Option Outcome
  | .send s, true => s.outcome cfg false
  | .writeStart _, true => some .err
  | .writeStart w, false => w.outcome cfg
  | .noCredit _, true => some .err
  -- `write_buf` waits inside its future, `poll_write` returns to its caller
  | .noCredit w, false => if w.direct then none else some .pending
  | .finishCheck _, true => some .ok
  | .finishOpen _, true => some .err
  | _, _ => none

/-- **The value that the next step of an operation decides**, if it decides one. -/
def Task.outcome (cfg : Config) (m : Memory) : Task → Option Outcome
  | .anyOf [] c => c.outcome cfg false
  | .anyOf (f :: fs) c =>
      if m.flag f then c.outcome cfg true
      else if fs = [] then c.outcome cfg false
      else none
  | .reserve s => if m.chan.rxDropped then s.outcome cfg false else none
  | .publish s => s.outcome cfg (m.sends.mayPublish (s.frame cfg))
  | .selectApi c =>
      if (m.sends.cell c.id).apiMode = 0 then none
      else if (m.sends.cell c.id).apiMode = c.mode then none
      else some .err
  | .swapOperation c => if (m.sends.cell c.id).operation then some .err else c.outcome
  | .casFinished id => if (m.sends.cell id).finished then some .ok else none
  | .pollReserve c =>
      match m.pollReserve cfg c.h with
      | .pending => some .pending
      | .closed => some .err
      | _ => none
  | .pollPublish c => if c.id ∈ m.sends.flows then some (.wrote c.grant) else some .err
  | .stopSwap id _ => if (m.recvs.cell id).reader.stopSent then some .ok else none
  | .stopMark id _ => if id ∈ m.recvs.streams then none else some .ok
  | _ => none

/-- What a call returns without taking a step: `stop` refuses a code beyond the range of a
varint. -/
def Call.outcome : Call → Option Outcome
  | .stop _ code => if code ≤ VarInt.max then none else some .err
  | _ => none

/-! ## Watching one operation -/

/-- A session and the record of one operation. -/
structure OpWatch where
  session : Session
  enqueued : List Frame := []
  grown : Int := 0
  began : Option Nat := none
  ended : Option Nat := none
  result : Option Outcome := none
  dropped : Bool := false

namespace OpWatch

/-- The task of the watched operation. -/
def task? (x : OpWatch) (i : Nat) : Option Task := (x.session.ops[i]?).map Op.task

/-- The record after a step of the operation itself, to the session `s`: what the queue and the cell
of the stream `id` show before and after the step. -/
def note (cfg : Config) (i : Nat) (id : StreamId) (x : OpWatch) (s : Session) : OpWatch where
  session := s
  enqueued :=
    x.enqueued ++ s.mem.chan.admitted.drop x.session.mem.chan.admitted.length
  grown :=
    x.grown + ((s.mem.sends.cell id).sentData : Int) - (x.session.mem.sends.cell id).sentData
  began :=
    if (x.session.mem.sends.cell id).operation = false ∧ (s.mem.sends.cell id).operation = true then
      some (s.mem.sends.cell id).sentData
    else x.began
  ended :=
    if (x.session.mem.sends.cell id).operation = true ∧ (s.mem.sends.cell id).operation = false then
      some (s.mem.sends.cell id).sentData
    else x.ended
  result := x.result <|> (x.task? i).bind (Task.outcome cfg x.session.mem)
  dropped := x.dropped

/-- One step of a session whose operation `i`, on the stream `id`, is watched. -/
def step (cfg : Config) (i : Nat) (id : StreamId) (x : OpWatch) (l : Label) : Option OpWatch :=
  (x.session.step cfg l).map fun s =>
    if l = .op i then x.note cfg i id s
    else { x with session := s, dropped := x.dropped || decide (l = .cancelOp i) }

variable {cfg : Config} {i : Nat} {id : StreamId} {x x' : OpWatch} {l : Label}

/-- A step of a watched session is a step of the session. -/
theorem session_of_step (h : x.step cfg i id l = some x') :
    x.session.step cfg l = some x'.session := by
  obtain ⟨s, hs, rfl⟩ := Option.map_eq_some_iff.1 h
  rw [hs]
  split_ifs
  · rfl
  · rfl

/-- **A watched run is a run of the session.** -/
theorem session_of_reachable {s₀ : Session} {x₀ : OpWatch}
    (h₀ : Reachable (Session.step cfg) anyStep s₀ x₀.session)
    (hr : Reachable (OpWatch.step cfg i id) anyStep x₀ x) :
    Reachable (Session.step cfg) anyStep s₀ x.session :=
  Reachable.project OpWatch.session session_of_step h₀ hr

/-- A step of the watched operation, and a step of anything else. -/
theorem step_cases (h : x.step cfg i id l = some x') :
    (l = .op i ∧ x' = x.note cfg i id x'.session) ∨
      (l ≠ .op i ∧ x' =
        { x with session := x'.session, dropped := x.dropped || decide (l = .cancelOp i) }) := by
  obtain ⟨s, -, rfl⟩ := Option.map_eq_some_iff.1 h
  by_cases hl : l = .op i
  · rw [if_pos hl]
    exact .inl ⟨hl, rfl⟩
  · rw [if_neg hl]
    exact .inr ⟨hl, rfl⟩

end OpWatch

/-! ## Steps of the others -/

/-- An operation stays where it is when something else takes a step. -/
theorem Session.ops_of_other {cfg : Config} {s s' : Session} {l : Label} {i : Nat} {o : Op}
    (hs : s.step cfg l = some s') (ho : s.ops[i]? = some o) (hop : l ≠ .op i)
    (hcancel : l ≠ .cancelOp i) (htime : o.task.timedOut = none) : s'.ops[i]? = some o := by
  -- another operation is replaced
  have hset : ∀ {j : Nat} {o' : Op} {a : Access} {t : Task}, j ≠ i →
      (s.setOp j o' a t).ops[i]? = some o := by
    intro j o' a t hj
    show (s.ops.set j _)[i]? = some o
    rw [List.getElem?_set_ne hj]
    exact ho
  cases Session.steps_of_step hs with
  | call ho' hst hb =>
      show (s.ops ++ _)[i]? = some o
      rw [List.getElem?_append_left (List.getElem?_eq_some_iff.1 ho).1]
      exact ho
  | op ho' hn => exact hset fun h => hop (h ▸ rfl)
  | cancelOp ho' hc => exact hset fun h => hcancel (h ▸ rfl)
  | @timeout j o' t ho' hc =>
      refine hset fun h => ?_
      subst h
      cases ho.symm.trans ho'
      rw [htime] at hc
      cases hc
  | _ => exact ho

/-- A step of an operation. -/
theorem Session.op_of_step {cfg : Config} {s s' : Session} {i : Nat} {o : Op}
    (hs : s.step cfg (.op i) = some s') (ho : s.ops[i]? = some o) :
    ∃ a t, o.task.next cfg s.mem = some (a, t) ∧ s' = s.setOp i o a t := by
  simp only [Session.step, ho] at hs
  obtain ⟨⟨a, t⟩, hn, rfl⟩ := Option.map_eq_some_iff.1 hs
  exact ⟨a, t, hn, rfl⟩

section WatchedSteps

variable {cfg : Config} {x : OpWatch} {s : Session} {t : Task} {i : Nat} {l : Label}

theorem OpWatch.op_of_task (h : x.task? i = some t) :
    ∃ o, x.session.ops[i]? = some o ∧ o.task = t := Option.map_eq_some_iff.1 h

/-- The role of the watched operation among the functions in progress. -/
theorem OpWatch.role_of_task (h : x.task? i = some t) (id : StreamId) :
    (sendRoles id x.session.tasks)[i + 2]? = some (t.sendRole id) := by
  obtain ⟨o, ho, rfl⟩ := OpWatch.op_of_task h
  rw [sendRoles, List.getElem?_map, Session.tasks_op ho]
  rfl

/-- **A step of the watched operation** is its next access, and the record shows what that access
does and decides. -/
theorem OpWatch.own (hs : x.session.step cfg (.op i) = some s) (ht : x.task? i = some t)
    (id : StreamId) :
    ∃ a t', t.next cfg x.session.mem = some (a, t') ∧ s.mem = x.session.mem.apply a ∧
      (x.note cfg i id s).task? i = some t' ∧
      (x.note cfg i id s).result = (x.result <|> t.outcome cfg x.session.mem) ∧
      (x.note cfg i id s).enqueued = x.enqueued ++ a.frame?.toList := by
  obtain ⟨o, ho, rfl⟩ := OpWatch.op_of_task ht
  obtain ⟨a, t', hn, rfl⟩ := Session.op_of_step hs ho
  have hlt : i < x.session.ops.length := (List.getElem?_eq_some_iff.1 ho).1
  refine ⟨a, t', hn, rfl, ?_, ?_, ?_⟩
  · show ((x.session.ops.set i _)[i]?).map Op.task = some t'
    rw [List.getElem?_set_self hlt]
    rfl
  · show (x.result <|> (x.task? i).bind _) = _
    rw [ht]
    rfl
  · show x.enqueued ++ (x.session.mem.apply a).chan.admitted.drop _ = _
    rw [Memory.admitted_apply, List.drop_left]

/-- A step of anything else leaves the watched operation where it is. -/
theorem OpWatch.task?_other (hs : x.session.step cfg l = some s) (ht : x.task? i = some t)
    (hop : l ≠ .op i) (hcancel : l ≠ .cancelOp i) (htime : t.timedOut = none) :
    (s.ops[i]?).map Op.task = some t := by
  obtain ⟨o, ho, rfl⟩ := OpWatch.op_of_task ht
  rw [Session.ops_of_other hs ho hop hcancel htime]
  rfl

theorem OpWatch.task?_done (h : (x.task? i).any Task.isDone = true) : x.task? i = some .done := by
  cases ht : x.task? i with
  | none =>
      rw [ht] at h
      cases h
  | some t =>
      rw [ht] at h
      cases t with
      | done => rfl
      | _ => cases h

/-- A call and a watched run behind it, executed. -/
def Session.watchRun (cfg : Config) (id : StreamId) (c : Call) (ls : List Label) (s : Session) :
    Option OpWatch :=
  (s.step cfg (.call c)).bind fun s₁ =>
    run (OpWatch.step cfg s.ops.length id) anyStep { session := s₁ } ls

theorem Session.watchRun_eq_some {id : StreamId} {c : Call} {ls : List Label}
    (h : s.watchRun cfg id c ls = some x) :
    ∃ s₁, s.step cfg (.call c) = some s₁ ∧
      Reachable (OpWatch.step cfg s.ops.length id) anyStep { session := s₁ } x := by
  obtain ⟨s₁, hs, hrun⟩ := Option.bind_eq_some_iff.1 h
  exact ⟨s₁, hs, Reachable.of_run .init hrun⟩

/-- **A call starts an operation** behind the ones that are there. -/
theorem Session.call_cases {s₀ s₁ : Session} {c : Call} (h : s₀.step cfg (.call c) = some s₁) :
    ∃ u a t, c.start s₀.mem = some (u, a, t) ∧ s₁.mem = s₀.mem.apply a ∧
      ({ session := s₁ } : OpWatch).task? s₀.ops.length = some t := by
  cases Session.steps_of_step h with
  | @call c owned u a t ho hst hb =>
      refine ⟨u, a, t, hst, rfl, ?_⟩
      show ((s₀.ops ++ [_])[s₀.ops.length]?).map Op.task = _
      rw [List.getElem?_concat_length]
      rfl

end WatchedSteps

/-! ## The guard excludes other writers -/

/-- A role that keeps the guard, and what it has reserved, does not change `sent_data`. -/
theorem SendDirection.Step.sentData_of_same {d : SendDirection} {r r' : SendRole} {e : SendEvent}
    (hs : d.Step r e r') (hsame : r' = r) : (d.apply e).cell.sentData = d.cell.sentData := by
  cases hs with
  | updateMax r max =>
      show (d.updateMax max).cell.sentData = _
      rw [(d.updateMax_cell max).1]
  | release =>
      cases hsame
      exact fetchSub_of_le (Nat.zero_le _)
  | register => cases hsame
  | reserve => cases hsame
  | _ => rfl

/-- Without the guard a registered direction keeps its `sent_data`. -/
theorem SendDirection.Step.sentData_of_unguarded {d : SendDirection} {r r' : SendRole}
    {e : SendEvent} (hs : d.Step r e r') (hg : r.guards = 0) (hr : r ≠ .token) :
    (d.apply e).cell.sentData = d.cell.sentData := by
  cases hs with
  | updateMax r max =>
      show (d.updateMax max).cell.sentData = _
      rw [(d.updateMax_cell max).1]
  | register => exact absurd rfl hr
  | reserve => cases hg
  | release => cases hg
  | _ => rfl

/-- **While a function holds the guard, nobody else changes `sent_data`.** -/
theorem SendInv.sentData_of_guarded {d d' : SendDirection} {rs rs' : List SendRole} {j : Nat}
    {r : SendRole} (hinv : SendInv d rs) (hp : d.PoolStep rs d' rs') (hj : rs[j]? = some r)
    (hg : r.guards = 1) (hu : r.uses = true) (hj' : rs'[j]? = some r) :
    d'.cell.sentData = d.cell.sentData := by
  cases hp with
  | idle => rfl
  | spawn => rfl
  | shutdown => rfl
  | act hi hs =>
      rename_i k r₁ r₂ e
      by_cases hk : k = j
      · -- the holder itself: its role is the same before and after
        subst hk
        have h₁ : r₁ = r := Option.some.inj (hi.symm.trans hj)
        have h₂ : r₂ = r := by
          rcases getElem?_set_cases hj' with ⟨-, h⟩ | ⟨h, -⟩
          · exact h.symm
          · exact absurd rfl h
        exact hs.sentData_of_same (h₂.trans h₁.symm)
      · -- the guard has one holder, and a used direction is registered
        have htwo := add_le_total (f := SendRole.guards) hi hj hk
        have hone := hinv.guard
        have hop : d.cell.operation.toNat ≤ 1 := Bool.toNat_le _
        refine hs.sentData_of_unguarded (by omega) ?_
        rintro rfl
        have hz := hinv.unregistered_of_token hi
        have := hinv.uses_registered r (List.mem_of_getElem? hj) hu
        omega

end WebsockMux.Native
