import WebsockMux.Lib.Precedes
import WebsockMux.Native.Announced
import WebsockMux.Native.Ownership

/-!
# Stopped receive directions

`stop_recv_stream` marks the entry of a stream as stopped, for `RecvStream::stop` or for the drop of
a `RecvStream`. From then on the direction is frozen until its terminal frame (`stopped_frozen`).

A mark by `stop` comes behind the swap of `stop_sent`, and a reader that finds it set grants nothing;
the operation has borrowed the stream, so no read is under way and nobody but the application owns
the stream. A mark by a drop comes from the last owner, so nobody reads the stream again. In both
cases no function is left that has credit to publish, or an opening to undo (`Frozen`), and none can
come: only the registration of a stream begins one, and a stream is registered once.
-/

set_option autoImplicit false

namespace WebsockMux.Native

open WebsockMux.Lib WebsockMux.Proto

/-! ## Marks -/

section Direction

variable {l : Limits} {d d' : RecvDirection} {rs rs' : List RecvRole} {i : Nat} {r r' : RecvRole}
  {e : RecvChange} {dead blocked : Prop}

theorem RecvOwner.registered_of_stopped (hinv : RecvOwner d rs) (h : d.cell.stopped = true) :
    0 < d.registered := by
  by_contra hz
  rw [(hinv.unregistered (by omega)).1] at h
  cases h

/-- A registered stream is not registered again. -/
theorem RecvOwner.ne_token (hinv : RecvOwner d rs) (hreg : 0 < d.registered)
    (hi : rs[i]? = some r) : r ≠ .token := by
  rintro rfl
  have := hinv.unregistered_of_token hi
  omega

/-- A step keeps the mark and `stop_sent`, unless it registers the stream. -/
theorem RecvDirection.Step.keepsMarks (hs : d.Step l dead blocked r e r') (hr : r ≠ .token) :
    (d.cell.stopped = true → (d.apply e).cell.stopped = true) ∧
      (d.cell.reader.stopSent = true → (d.apply e).cell.reader.stopSent = true) := by
  cases hs with
  | register => exact absurd rfl hr
  | registerPeer => exact absurd rfl hr
  | read hread => exact ⟨id, hread.stopSent.trans⟩
  | readGrant hread => exact ⟨id, hread.stopSent.trans⟩
  | swapStop => exact ⟨id, fun _ => rfl⟩
  | dropSwap => exact ⟨id, fun _ => rfl⟩
  | mark => exact ⟨fun _ => rfl, id⟩
  | dropMark => exact ⟨fun _ => rfl, id⟩
  | dropFinished => exact ⟨fun _ => rfl, id⟩
  | _ => exact ⟨id, id⟩

theorem RecvDirection.PoolStep.keepsMarks (hs : d.PoolStep l rs dead blocked d' rs')
    (hown : RecvOwner d rs) (hreg : 0 < d.registered) :
    (d.cell.stopped = true → d'.cell.stopped = true) ∧
      (d.cell.reader.stopSent = true → d'.cell.reader.stopSent = true) := by
  cases hs with
  | act hi hs => exact hs.keepsMarks (hown.ne_token hreg hi)
  | borrow hr he => rcases he with rfl | rfl <;> exact ⟨id, id⟩
  | _ => exact ⟨id, id⟩

/-- The role has still to announce the stop of a marked stream. -/
def RecvRole.stops : RecvRole → Bool
  | dropping => true
  | stopping => true
  | _ => false

theorem RecvRole.stops_of_light (h : r.light = true) : r.stops = false := by
  rcases RecvRole.light_cases h with rfl | rfl <;> rfl

theorem RecvRole.stops_afterEvent (x : RecvEvent) : (RecvRole.afterEvent x).stops = false := by
  rcases RecvRole.afterEvent_cases x with ⟨-, h⟩ | ⟨-, h⟩ <;> rw [h] <;> rfl

/-- What the roles of a stop rely on. -/
structure RecvDirection.Marked (d : RecvDirection) (rs : List RecvRole) : Prop where
  marking : .marking ∈ rs → d.cell.reader.stopSent = true
  stopping : ∀ r ∈ rs, r.stops = true → d.cell.stopped = true
  log : .stop ∈ d.log → d.cell.stopped = true

/-- The roles after a step: `stop_sent` is swapped before the mark, and `StopSending` published
behind it. -/
theorem RecvDirection.Step.marked (hs : d.Step l dead blocked r e r') :
    (r' = .marking → r = .marking ∨ (d.apply e).cell.reader.stopSent = true) ∧
      (r'.stops = true → r.stops = true ∨ (d.apply e).cell.stopped = true) ∧
      (.stop ∈ (d.apply e).log → .stop ∈ d.log ∨ r.stops = true) := by
  have hno : ∀ {P : Prop} {q : RecvRole}, q.stops = false → q.stops = true → P := by
    intro P q hq hq'
    rw [hq] at hq'
    cases hq'
  have hlight : ∀ {q : RecvRole} {P : Prop}, q.light = true → q = .marking → P := by
    rintro q P hq rfl
    cases hq
  have hafter : ∀ (x : RecvEvent) {P : Prop}, RecvRole.afterEvent x = .marking → P := by
    intro x P h
    rcases RecvRole.afterEvent_cases x with ⟨-, h'⟩ | ⟨-, h'⟩ <;> cases h'.symm.trans h
  cases hs with
  | stay => exact ⟨.inl, .inl, .inl⟩
  | lower hr' => exact ⟨hlight hr', hno (RecvRole.stops_of_light hr'), .inl⟩
  | read _ hr' => rcases hr' with rfl | rfl <;> exact ⟨by rintro ⟨⟩, hno rfl, .inl⟩
  | swapStop => exact ⟨fun _ => .inr rfl, hno rfl, .inl⟩
  | mark => exact ⟨by rintro ⟨⟩, fun _ => .inr rfl, .inl⟩
  | dropMark => exact ⟨by rintro ⟨⟩, fun _ => .inr rfl, .inl⟩
  | dropFinished _ hr' => exact ⟨hlight hr', hno (RecvRole.stops_of_light hr'), .inl⟩
  | dropSwap => exact ⟨by rintro ⟨⟩, fun _ => .inl rfl, .inl⟩
  | dropSkip _ hr' => exact ⟨hlight hr', hno (RecvRole.stops_of_light hr'), .inl⟩
  | publishStop hr' =>
      exact ⟨hlight hr', hno (RecvRole.stops_of_light hr'), fun _ => .inr rfl⟩
  | stopFail _ hr' => exact ⟨hlight hr', hno (RecvRole.stops_of_light hr'), .inl⟩
  | receiveStopped => exact ⟨hafter _, hno (RecvRole.stops_afterEvent _), .inl⟩
  | deliver => exact ⟨hafter _, hno (RecvRole.stops_afterEvent _), .inl⟩
  | deliverClosed => exact ⟨hafter _, hno (RecvRole.stops_afterEvent _), .inl⟩
  | publishOpen => exact ⟨by rintro ⟨⟩, hno rfl, fun h => .inl (by simpa [RecvDirection.apply] using h)⟩
  | publishCredit => exact ⟨by rintro ⟨⟩, hno rfl, fun h => .inl (by simpa [RecvDirection.apply] using h)⟩
  | advance => exact ⟨.inl, .inl, .inl⟩
  | prune => exact ⟨.inl, .inl, .inl⟩
  | closeReceiver => exact ⟨.inl, .inl, .inl⟩
  | dropTx => exact ⟨.inl, .inl, .inl⟩
  | clear => exact ⟨.inl, .inl, .inl⟩
  | clearCredit => exact ⟨.inl, .inl, .inl⟩
  | _ => exact ⟨by rintro ⟨⟩, hno rfl, .inl⟩

theorem RecvDirection.Marked.poolStep (h : d.Marked rs) (hown : RecvOwner d rs)
    (hs : d.PoolStep l rs dead blocked d' rs') : d'.Marked rs' := by
  -- what the roles that were there rely on is kept
  have hkeep := fun hreg => hs.keepsMarks hown hreg
  have hmarking : .marking ∈ rs → d'.cell.reader.stopSent = true := fun hm =>
    (hkeep (hown.uses_registered _ hm rfl)).2 (h.marking hm)
  have hstopping : ∀ r ∈ rs, r.stops = true → d'.cell.stopped = true := by
    intro r hr hst
    refine (hkeep (hown.uses_registered r hr ?_)).1 (h.stopping r hr hst)
    cases r <;> first | rfl | cases hst
  have hlog : .stop ∈ d.log → d'.cell.stopped = true := fun hl =>
    (hkeep (hown.registered_of_stopped (h.log hl))).1 (h.log hl)
  -- a function arrives that stops nothing
  have hconcat : ∀ {q : RecvRole}, q ≠ .marking → q.stops = false →
      (.marking ∈ rs ++ [q] → d'.cell.reader.stopSent = true) ∧
        ∀ r ∈ rs ++ [q], r.stops = true → d'.cell.stopped = true := by
    intro q hq hst
    refine ⟨fun hm => ?_, forall_mem_concat hstopping fun hst' => ?_⟩
    · rcases List.mem_append.1 hm with hm | hm
      · exact hmarking hm
      · exact absurd (List.mem_singleton.1 hm).symm hq
    · rw [hst] at hst'
      cases hst'
  cases hs with
  | @act i r r' e hi hs =>
      have hr := List.mem_of_getElem? hi
      obtain ⟨hnew, hnews, hnewl⟩ := hs.marked
      refine ⟨fun hm => ?_, forall_mem_set hstopping fun hst => ?_, fun hl => ?_⟩
      · rcases List.mem_or_eq_of_mem_set hm with hm | hm
        · exact hmarking hm
        · rcases hnew hm.symm with hq | hq
          · exact hmarking (hq ▸ hr)
          · exact hq
      · rcases hnews hst with hq | hq
        · exact hstopping r hr hq
        · exact hq
      · rcases hnewl hl with hq | hq
        · exact hlog hq
        · exact hstopping r hr hq
  | @arrive x r' hi hnb hx =>
      have hr' : r' ≠ .marking ∧ r'.stops = false := by cases hx <;> exact ⟨nofun, rfl⟩
      refine ⟨fun hm => ?_, forall_mem_set hstopping fun hst => ?_, hlog⟩
      · rcases List.mem_or_eq_of_mem_set hm with hm | hm
        · exact hmarking hm
        · exact absurd hm.symm hr'.1
      · rw [hr'.2] at hst
        cases hst
  | spawn =>
      have hq := hconcat (q := .none) nofun rfl
      exact ⟨hq.1, hq.2, hlog⟩
  | @borrow r e hr he hh hone =>
      have hq : r ≠ .marking ∧ r.stops = false := by rcases hr with rfl | rfl <;> exact ⟨nofun, rfl⟩
      refine ⟨(hconcat hq.1 hq.2).1, (hconcat hq.1 hq.2).2, fun hl => hlog ?_⟩
      rcases he with rfl | rfl <;> exact hl
  | takeCredit hp => exact ⟨hmarking, hstopping, hlog⟩
  | idle => exact ⟨hmarking, hstopping, hlog⟩

/-! ## Frozen directions -/

/-- The role has credit still to publish. -/
def RecvRole.owesCredit : RecvRole → Bool
  | opening => true
  | crediting => true
  | storing _ => true
  | queueing _ => true
  | _ => false

/-- Only a registration, and a read that finds `stop_sent` unset, come to owe credit. -/
theorem RecvDirection.Step.owesCredit (hs : d.Step l dead blocked r e r') (hr : r ≠ .token)
    (h : r'.owesCredit = true) :
    r.owesCredit = true ∨ (r = .reading ∧ d.cell.reader.stopSent = false) := by
  have hlight : ∀ {q : RecvRole}, q.light = true → q.owesCredit = false := by
    intro q hq
    rcases RecvRole.light_cases hq with rfl | rfl <;> rfl
  have hafter : ∀ x, (RecvRole.afterEvent x).owesCredit = false := by
    intro x
    rcases RecvRole.afterEvent_cases x with ⟨-, h⟩ | ⟨-, h⟩ <;> rw [h] <;> rfl
  have hno : ∀ {P : Prop} {q : RecvRole}, q.owesCredit = false → q.owesCredit = true → P := by
    intro P q hq hq'
    rw [hq] at hq'
    cases hq'
  cases hs with
  | stay => exact .inl h
  | advance => exact .inl h
  | prune => exact .inl h
  | closeReceiver => exact .inl h
  | dropTx => exact .inl h
  | clear => exact .inl h
  | clearCredit => exact .inl h
  | register => exact absurd rfl hr
  | registerPeer => exact absurd rfl hr
  | publishOpen => exact .inl rfl
  | storeMax => exact .inl rfl
  | read _ hr' => rcases hr' with rfl | rfl <;> cases h
  | readGrant hread => exact .inr ⟨rfl, hread.unstopped rfl⟩
  | lower hr' => exact hno (hlight hr') h
  | dropFinished _ hr' => exact hno (hlight hr') h
  | dropSkip _ hr' => exact hno (hlight hr') h
  | publishStop hr' => exact hno (hlight hr') h
  | stopFail _ hr' => exact hno (hlight hr') h
  | receiveStopped => exact hno (hafter _) h
  | deliver => exact hno (hafter _) h
  | deliverClosed => exact hno (hafter _) h
  | _ => cases h

/-- Where no role owes credit, the limit stays and nothing is put into `pending_credit`. -/
theorem RecvDirection.Step.frozen (hs : d.Step l dead blocked r e r') (hr : r ≠ .token)
    (ho : r.owesCredit = false) :
    (d.apply e).cell.maxData = d.cell.maxData ∧
      (d.pending = false → (d.apply e).pending = false) := by
  cases hs with
  | register => exact absurd rfl hr
  | registerPeer => exact absurd rfl hr
  | storeMax => cases ho
  | queue => cases ho
  | queueFull => cases ho
  | prune => exact ⟨rfl, fun hp => by simp [RecvDirection.apply, RecvDirection.kept, hp]⟩
  | mark => exact ⟨rfl, fun _ => rfl⟩
  | dropMark => exact ⟨rfl, fun _ => rfl⟩
  | dropFinished => exact ⟨rfl, fun _ => rfl⟩
  | clearCredit => exact ⟨rfl, fun _ => rfl⟩
  | _ => exact ⟨rfl, id⟩

/-- No role comes to owe credit, the limit stays and `pending_credit` stays empty. -/
theorem RecvDirection.PoolStep.frozen (hs : d.PoolStep l rs dead blocked d' rs')
    (hown : RecvOwner d rs) (hreg : 0 < d.registered)
    (hq : ∀ r ∈ rs, r.owesCredit = false)
    (hread : .reading ∈ rs → d.cell.reader.stopSent = true) :
    (∀ r ∈ rs', r.owesCredit = false) ∧ d'.cell.maxData = d.cell.maxData ∧
      (d.pending = false → d'.pending = false) := by
  cases hs with
  | @act i r r' e hi hs =>
      have hr := List.mem_of_getElem? hi
      have htok := hown.ne_token hreg hi
      refine ⟨forall_mem_set hq ?_, hs.frozen htok (hq r hr)⟩
      by_contra hne
      rcases hs.owesCredit htok (Bool.eq_true_of_not_eq_false hne) with ho | ⟨rfl, ho⟩
      · rw [hq r hr] at ho
        cases ho
      · rw [hread hr] at ho
        cases ho
  | arrive hi hnb hx =>
      refine ⟨forall_mem_set hq ?_, rfl, id⟩
      cases hx <;> rfl
  | spawn => exact ⟨forall_mem_concat hq rfl, rfl, id⟩
  | borrow hr he =>
      refine ⟨forall_mem_concat hq ?_, ?_⟩
      · rcases hr with rfl | rfl <;> rfl
      · rcases he with rfl | rfl <;> exact ⟨rfl, id⟩
  | takeCredit => exact ⟨hq, rfl, fun _ => rfl⟩
  | idle => exact ⟨hq, rfl, id⟩

/-! ## Deliveries -/

/-- What was delivered since a state in which `before` was, and in which the inbound task had the
role `r₀`: nothing, and a delivery that is still due was due then; or the event that was due then. -/
def RecvDirection.DeliveredSince (before : List RecvEvent) (r₀ : Option RecvRole)
    (d : RecvDirection) (rs : List RecvRole) : Prop :=
  (d.cell.delivered = before ∧
      ∀ x, rs[0]? = some (.delivering x) → r₀ = some (.delivering x)) ∨
    ∃ x, r₀ = some (.delivering x) ∧ d.cell.delivered = before ++ [x] ∧
      ∀ y, rs[0]? ≠ some (.delivering y)

/-- A step delivers the event of its role, or nothing; of a stopped stream no delivery comes to be
due. -/
theorem RecvDirection.Step.delivers (hs : d.Step l dead blocked r e r') (hr : r ≠ .token)
    (hstop : d.cell.stopped = true) :
    (∃ x, r = .delivering x ∧ (d.apply e).cell.delivered = d.cell.delivered ++ [x] ∧
        ∀ y, r' ≠ .delivering y) ∨
      ((d.apply e).cell.delivered = d.cell.delivered ∧
        ∀ y, r' = .delivering y → r = .delivering y) := by
  have hafter : ∀ x y, RecvRole.afterEvent x ≠ .delivering y := by
    intro x y
    rcases RecvRole.afterEvent_cases x with ⟨-, h⟩ | ⟨-, h⟩ <;> rw [h] <;> nofun
  have hlight : ∀ {q : RecvRole} {y : RecvEvent} {P : Prop}, q.light = true →
      q = .delivering y → P := by
    rintro q y P hq rfl
    cases hq
  cases hs with
  | register => exact absurd rfl hr
  | registerPeer => exact absurd rfl hr
  | deliver => exact .inl ⟨_, rfl, rfl, hafter _⟩
  | deliverClosed => exact .inr ⟨rfl, fun y hy => absurd hy (hafter _ y)⟩
  | receiveStopped => exact .inr ⟨rfl, fun y hy => absurd hy (hafter _ y)⟩
  | receive _ hs =>
      rw [hstop] at hs
      cases hs
  | lower hr' => exact .inr ⟨rfl, fun y => hlight hr'⟩
  | dropFinished _ hr' => exact .inr ⟨rfl, fun y => hlight hr'⟩
  | dropSkip _ hr' => exact .inr ⟨rfl, fun y => hlight hr'⟩
  | publishStop hr' => exact .inr ⟨rfl, fun y => hlight hr'⟩
  | stopFail _ hr' => exact .inr ⟨rfl, fun y => hlight hr'⟩
  | read _ hr' => rcases hr' with rfl | rfl <;> exact .inr ⟨rfl, nofun⟩
  | stay => exact .inr ⟨rfl, fun _ => id⟩
  | advance => exact .inr ⟨rfl, fun _ => id⟩
  | prune => exact .inr ⟨rfl, fun _ => id⟩
  | closeReceiver => exact .inr ⟨rfl, fun _ => id⟩
  | dropTx => exact .inr ⟨rfl, fun _ => id⟩
  | clear => exact .inr ⟨rfl, fun _ => id⟩
  | clearCredit => exact .inr ⟨rfl, fun _ => id⟩
  | _ => exact .inr ⟨rfl, nofun⟩

theorem RecvDirection.DeliveredSince.poolStep {before : List RecvEvent} {r₀ : Option RecvRole}
    (h : d.DeliveredSince before r₀ rs) (hown : RecvOwner d rs) (hstop : d.cell.stopped = true)
    (hs : d.PoolStep l rs dead blocked d' rs') : d'.DeliveredSince before r₀ rs' := by
  -- nothing is delivered, and no delivery comes to be due
  have hsame : d'.cell.delivered = d.cell.delivered →
      (∀ x, rs'[0]? = some (.delivering x) → rs[0]? = some (.delivering x)) →
      d'.DeliveredSince before r₀ rs' := by
    intro hdel hdue
    rcases h with ⟨hb, hd⟩ | ⟨x, hr₀, hb, hd⟩
    · exact .inl ⟨hdel.trans hb, fun x hx => hd x (hdue x hx)⟩
    · exact .inr ⟨x, hr₀, hdel.trans hb, fun y hy => hd y (hdue y hy)⟩
  -- a function arrives that delivers nothing
  have hconcat : ∀ {q : RecvRole}, (∀ x, q ≠ .delivering x) →
      ∀ x, (rs ++ [q])[0]? = some (.delivering x) → rs[0]? = some (.delivering x) := by
    intro q hq x hx
    rcases getElem?_concat_cases hx with hx | hx
    · exact absurd hx.symm (hq x)
    · exact hx
  cases hs with
  | @act i r r' e hi hs =>
      rcases hs.delivers (hown.ne_token (hown.registered_of_stopped hstop) hi) hstop with
        ⟨x, rfl, hdel, hr'⟩ | ⟨hdel, hr'⟩
      · obtain rfl := hown.arrives_first i _ hi rfl
        rcases h with ⟨hb, hd⟩ | ⟨y, hr₀, hb, hd⟩
        · refine .inr ⟨x, hd x hi, ?_, fun y hy => ?_⟩
          · rw [← hb]
            exact hdel
          · rcases getElem?_set_cases hy with ⟨-, hy⟩ | ⟨h0, -⟩
            · exact hr' y hy.symm
            · exact h0 rfl
        · exact absurd hi (hd x)
      · refine hsame hdel fun x hx => ?_
        rcases getElem?_set_cases hx with ⟨rfl, hx'⟩ | ⟨-, hx'⟩
        · rw [hi, hr' x hx'.symm]
        · exact hx'
  | @arrive x r' hi hnb hx =>
      refine hsame rfl fun y hy => ?_
      rcases getElem?_set_cases hy with ⟨-, hy⟩ | ⟨-, hy⟩
      · cases hx <;> cases hy
      · exact hy
  | spawn => exact hsame rfl (hconcat nofun)
  | borrow hr he =>
      refine hsame ?_ (hconcat ?_)
      · rcases he with rfl | rfl <;> rfl
      · rcases hr with rfl | rfl <;> nofun
  | takeCredit hp => exact hsame rfl fun _ => id
  | idle => exact hsame rfl fun _ => id

end Direction

/-! ## Who marks a stream -/

section Tasks

variable {cfg : Config} {m : Memory} {id : StreamId} {t t' : Task} {a : Access} {v v' : View}
  {who : Option Nat}

theorem RecvTable.stopped_apply {x : RecvTable} {b : RecvAccess}
    (h : ((x.apply b).cell id).stopped = true) : (x.cell id).stopped = true ∨ b = .stop id := by
  cases b with
  | register j w =>
      simp only [RecvTable.apply, RecvTable.register, Function.update_apply] at h
      split_ifs at h
      exact .inl h
  | stop j =>
      simp only [RecvTable.apply, RecvTable.stopRecvStream, RecvTable.modify,
        Function.update_apply] at h
      split_ifs at h with hj
      · exact .inr (by rw [hj])
      · exact .inl h
  | remove j => exact .inl h
  | clear => exact .inl h
  | clearCredit => exact .inl h
  | prune bound => exact .inl h
  | _ =>
      -- the cell of one stream changes, and keeps its mark
      simp only [RecvTable.apply, RecvTable.queueCredit, RecvTable.modify,
        Function.update_apply] at h
      split_ifs at h
      all_goals
        subst_vars
        exact .inl h

theorem Memory.stopped_apply (h : ((m.apply a).recvs.cell id).stopped = true) :
    (m.recvs.cell id).stopped = true ∨ a = .recv (.stop id) := by
  cases a with
  | recv b => exact (RecvTable.stopped_apply h).imp_right fun hb => by rw [hb]
  | session clone => cases clone <;> exact .inl h
  | _ => exact .inl h

/-- **Who marks a stream**: `stop`, and the drop of a `RecvStream`. -/
theorem Task.stop_next (hn : t.next cfg m = some (.recv (.stop id), t')) :
    (∃ code, t = .stopMark id code ∧ t' = sendFrame (.stop id code)) ∨
      ∃ k, t = .dropRecv id k ∧ (t' = .closeReceiver id k ∨ t' = .dropRecvSwap id k) := by
  generalize ha : Access.recv (.stop id) = a at hn
  replace hn := Task.steps_of_next hn
  induction hn with
  | stopMark i code =>
      cases ha
      exact .inl ⟨code, rfl, rfl⟩
  | dropRecvFinished i k =>
      cases ha
      exact .inr ⟨k, rfl, .inl rfl⟩
  | dropRecv i k =>
      cases ha
      exact .inr ⟨k, rfl, .inr rfl⟩
  | closeAll c k => cases c <;> cases ha
  | _ => cases ha

/-- A stream comes to be marked by the step of one function. -/
theorem Moves.marks (hm : Moves cfg v who v') (hnew : (v'.mem.recvs.cell id).stopped = true)
    (hold : (v.mem.recvs.cell id).stopped = false) :
    ∃ i t t', v.tasks[i]? = some t ∧ t.next cfg v.mem = some (.recv (.stop id), t') ∧
      v'.mem = v.mem.apply (.recv (.stop id)) ∧ v'.tasks = v.tasks.set i t' := by
  have hskip : (v.mem.recvs.cell id).stopped = true → False := by
    intro h
    rw [hold] at h
    cases h
  cases hm with
  | @next i t t' a hi hn =>
      rcases Memory.stopped_apply hnew with h | rfl
      · exact (hskip h).elim
      · exact ⟨i, t, t', hi, hn, rfl, rfl⟩
  | exit hi =>
      rcases Memory.stopped_apply hnew with h | h
      · exact (hskip h).elim
      · cases h
  | spawn hc =>
      rcases Memory.stopped_apply hnew with h | rfl
      · exact (hskip h).elim
      · cases Call.starts_of_start hc
  | loop ha hb =>
      rcases Memory.stopped_apply hnew with h | rfl
      · exact (hskip h).elim
      · cases ha
  | _ => exact (hskip hnew).elim

/-! ## What is left to publish or to undo -/

/-- A function that owes credit owns the stream or reads it. -/
theorem Task.owesCredit_cases (h : (t.recvRole id).owesCredit = true) :
    0 < t.carries id ∨ t.readsOf = some id := by
  have hsite : ∀ s : SendSite, (s.recvRole id).owesCredit = true → 0 < s.carries id := by
    intro s hs
    cases s <;> simp only [SendSite.recvRole, RecvRole.on] at hs <;> (try split_ifs at hs with hi) <;>
      first
      | cases hs; done
      | simp [SendSite.carries, oneIf, hi]
  have hrole := t.hasRole id
  generalize t.recvRole id = r at h hrole
  cases hrole with
  | light hr => rcases RecvRole.light_cases hr with rfl | rfl <;> cases h
  | check fs s => exact .inl (hsite s h)
  | slot s => exact .inl (hsite s h)
  | publish s => exact .inl (hsite s h)
  | storing target => exact .inr rfl
  | queueing target => exact .inr rfl
  | _ => cases h

/-- The function that has an event to deliver. -/
theorem Task.eq_deliver {x : RecvEvent} (h : t.recvRole id = .delivering x) :
    t = .deliver id x.data x.fin := by
  have hsite : ∀ s : SendSite, s.recvRole id ≠ .delivering x := by
    intro s hs
    cases s <;> simp only [SendSite.recvRole, RecvRole.on] at hs <;> (try split_ifs at hs) <;>
      cases hs
  have hrole := t.hasRole id
  rw [h] at hrole
  generalize hr : RecvRole.delivering x = r at hrole
  cases hrole with
  | light hl =>
      subst hr
      cases hl
  | check fs s => exact absurd hr.symm (hsite s)
  | slot s => exact absurd hr.symm (hsite s)
  | publish s => exact absurd hr.symm (hsite s)
  | delivering data fin =>
      cases hr
      rfl
  | _ => cases hr

/-- `open_bi` undoes its registration only where it still owed the credit. -/
theorem Task.undo_next (hn : t.next cfg m = some (a, .undoRecv id)) :
    (t.recvRole id).owesCredit = true := by
  have hret : ∀ {k : Ret}, Task.undoRecv id ≠ k.resume := by
    intro k
    cases k <;> nofun
  have hloop : ∀ {w : Writer}, writeLoop cfg w ≠ .undoRecv id := by
    intro w
    unfold writeLoop tryReserve
    split_ifs <;> nofun
  have hcredit : ∀ {w : Writer}, outOfCredit w ≠ .undoRecv id := by
    intro w
    unfold outOfCredit
    split_ifs <;> nofun
  have hsite : ∀ {s : SendSite} {ok : Bool}, s.resume cfg ok = .undoRecv id →
      (s.recvRole id).owesCredit = true := by
    intro s ok hs
    cases s with
    | write c =>
        cases ok with
        | false => cases hs
        | true => exact absurd hs hloop
    | inboundCredit i bi => cases bi <;> cases ok <;> cases hs
    | openBi i =>
        cases ok <;> cases hs
        simp [SendSite.recvRole, RecvRole.on, RecvRole.owesCredit]
    | openCredit i =>
        cases ok <;> cases hs
        simp [SendSite.recvRole, RecvRole.on, RecvRole.owesCredit]
    | _ => cases ok <;> cases hs
  have hcheck : ∀ {c : Check} {b : Bool}, c.resume cfg b = .undoRecv id →
      (c.recvRole id).owesCredit = true := by
    intro c b hc
    cases c with
    | send s =>
        cases b with
        | false => cases hc
        | true => exact hsite hc
    | trySend s k => cases s <;> cases b <;> cases hc
    | writeStart w =>
        cases b with
        | false => exact absurd hc hloop
        | true => cases hc
    | reserveOpen w =>
        cases b with
        | false => cases hc
        | true => exact absurd hc hcredit
    | noCredit w =>
        cases b with
        | true => cases hc
        | false =>
            simp only [Check.resume] at hc
            split_ifs at hc
    | _ => cases b <;> cases hc
  generalize ht : Task.undoRecv id = t' at hn
  replace hn := Task.steps_of_next hn
  induction hn with
  | anyOfNil | anyOfSet | anyOfLast => exact hcheck ht.symm
  | reserveClosed | publish | unpublished => exact hsite ht.symm
  | trySend s | trySendFull s => cases s <;> cases ht
  | closeAll c k =>
      cases c with
      | closeFlows => exact absurd ht hret
      | _ => cases ht
  | cancel | closeAllAgain | releaseHandle | closeReceiver | dropTx | acceptLockGone
  | acceptClosed => exact absurd ht hret
  | selectApi c | selectApiSame c => cases c <;> cases ht
  | swapOperation c =>
      cases c <;> simp only [SendCall.body] at ht <;> (try split_ifs at ht) <;> cases ht
  | outOfCredit => exact absurd ht.symm hcredit
  | casSent w sent max =>
      unfold granted at ht
      split_ifs at ht <;> cases ht
  | _ => contradiction

/-- The opening of a stream is undone only by a function that owed its credit. -/
theorem Moves.undoes (hm : Moves cfg v who v')
    (hq : ∀ t ∈ v.tasks, (t.recvRole id).owesCredit = false)
    (hu : ∀ t ∈ v.tasks, t ≠ .undoRecv id) : ∀ t ∈ v'.tasks, t ≠ .undoRecv id := by
  cases hm with
  | next hi hn =>
      refine forall_mem_set hu ?_
      rintro rfl
      have := Task.undo_next hn
      rw [hq _ (List.mem_of_getElem? hi)] at this
      cases this
  | @cancel who i t t' hi hc =>
      refine forall_mem_set hu ?_
      rintro rfl
      cases t with
      | reserve s => cases s <;> cases hc
      | _ => cases hc
  | @timeout who i t t' hi hc =>
      refine forall_mem_set hu ?_
      rintro rfl
      cases t <;> cases hc
  | @abort who t t' hi ha =>
      refine forall_mem_set hu ?_
      rintro rfl
      cases t with
      | reserve s => cases s <;> cases ha
      | acceptLock i x => cases x <;> cases ha
      | closeAll c k => cases c <;> cases k <;> cases ha
      | _ => cases ha
  | turn hi ht =>
      refine forall_mem_set hu ?_
      cases ht with
      | @frame f hl hf => cases f <;> simp only [handleFrame] <;> (try split_ifs) <;> rintro ⟨⟩
      | _ => rintro ⟨⟩
  | exit hi => exact forall_mem_set hu (by rintro ⟨⟩)
  | spawn hc =>
      refine forall_mem_concat hu ?_
      cases Call.starts_of_start hc <;> rintro ⟨⟩
  | loop ha hb => exact hu

end Tasks

/-! ## Frozen streams in a run -/

section Run

variable {cfg : Config} {ok : Session → Label → Prop} {s s' : Session} {l : Label} {id : StreamId}

/-- What `stop` and the drop of a stream rely on, in every run. -/
theorem marked_of_reachable (hr : Reachable (Session.step cfg) ok {} s) (id : StreamId) :
    (s.view.recvDirection cfg id).Marked (recvRoles id s.tasks) := by
  refine recv_invariant (P := fun d rs => d.Marked rs) ?_ ?_ hr id
  · intro own dead blocked
    refine ⟨fun h => (by simp at h), fun r hr hst => ?_, fun h => (by cases h)⟩
    obtain rfl : r = .none := by simpa using hr
    cases hst
  · intro d d' rs rs' dead blocked hown _ _ h hs
    exact h.poolStep hown hs

/-- **What holds of a stopped stream**: no function has credit to publish or the opening to undo, and
whoever could read the stream finds `stop_sent` set. -/
structure Frozen (cfg : Config) (id : StreamId) (s : Session) : Prop where
  quiet : ∀ t ∈ s.tasks, (t.recvRole id).owesCredit = false
  kept : ∀ t ∈ s.tasks, t ≠ .undoRecv id
  pending : id ∉ s.mem.recvs.pendingCredit
  silent : (s.mem.recvs.cell id).reader.stopSent = true ∨ s.view.owners id = 0

/-- A stopped stream was registered. -/
theorem registered_of_stopped (hr : Reachable (Session.step cfg) ok {} s)
    (hstop : (s.mem.recvs.cell id).stopped = true) :
    0 < (s.view.recvDirection cfg id).registered :=
  ((recvsInv_of_reachable hr).owner id).registered_of_stopped hstop

/-- A stream that is registered already has no new owners. -/
theorem owners_le_of_registered (hr : Reachable (Session.step cfg) ok {} s) (hok : ok s l)
    (hs : s.step cfg l = some s') (hreg : 0 < (s.view.recvDirection cfg id).registered) :
    s'.view.owners id ≤ s.view.owners id := by
  have hstep : s'.view.owners id + s.mem.recvs.registered.count id ≤
      s.view.owners id + s'.mem.recvs.registered.count id := (Session.moves_of_step hs).owners id
  have hfresh := ((recvsInv_of_reachable (hr.step hok hs)).owner id).fresh
  have hbool := Bool.toNat_le (s'.view.recvDirection cfg id).allocated
  have hcount : (s.view.recvDirection cfg id).registered = s.mem.recvs.registered.count id := rfl
  have hcount' : (s'.view.recvDirection cfg id).registered =
      s'.mem.recvs.registered.count id := rfl
  omega

/-- A stopped stream stays frozen. -/
theorem Frozen.step (h : Frozen cfg id s) (hr : Reachable (Session.step cfg) ok {} s) (hok : ok s l)
    (hs : s.step cfg l = some s') (hstop : (s.mem.recvs.cell id).stopped = true) :
    Frozen cfg id s' ∧ (s'.mem.recvs.cell id).maxData = (s.mem.recvs.cell id).maxData := by
  have hown := (recvsInv_of_reachable hr).owner id
  have hpool := recvPoolStep_of_step hr hok hs id
  have hreg := registered_of_stopped hr hstop
  -- a reader has borrowed the stream, which then has an owner
  have hread : .reading ∈ recvRoles id s.tasks → (s.mem.recvs.cell id).reader.stopSent = true := by
    intro hmem
    refine h.silent.resolve_right fun hz => ?_
    obtain ⟨t, ht, hrole⟩ := List.mem_map.1 hmem
    have hreads := t.readers_recvRole id
    rw [hrole] at hreads
    unfold Task.reads at hreads
    split_ifs at hreads with hof
    · have hheld := held_of_borrowsOf hr ht (Task.borrowsOf_of_readsOf hof)
      unfold View.owners Memory.lent at hz
      rw [show s.view.mem = s.mem from rfl, hheld, Bool.toNat_true] at hz
      omega
    · cases hreads
  have hq : ∀ r ∈ recvRoles id s.tasks, r.owesCredit = false := by
    intro r hr
    obtain ⟨t, ht, rfl⟩ := List.mem_map.1 hr
    exact h.quiet t ht
  obtain ⟨hq', hmax, hpend⟩ := hpool.frozen hown hreg hq hread
  refine ⟨⟨fun t ht => hq' _ (List.mem_map_of_mem ht), ?_, ?_, ?_⟩, hmax⟩
  · exact (Session.moves_of_step hs).undoes h.quiet h.kept
  · have := hpend (decide_eq_false h.pending)
    exact of_decide_eq_false this
  · refine h.silent.imp (hpool.keepsMarks hown hreg).2 fun hz => ?_
    exact Nat.le_zero.1 (hz ▸ owners_le_of_registered hr hok hs hreg)

/-- A function that owes credit, or undoes an opening, owns the stream or reads it. -/
theorem quiet_of_free {t : Task} (hc : t.carries id = 0) (hread : t.readsOf ≠ some id) :
    (t.recvRole id).owesCredit = false ∧ t ≠ .undoRecv id := by
  constructor
  · by_contra hne
    rcases Task.owesCredit_cases (Bool.eq_true_of_not_eq_false hne) with h | h
    · omega
    · exact hread h
  · rintro rfl
    simp [Task.carries, oneIf] at hc

/-- **A stream is frozen when it is marked.** -/
theorem Frozen.mark (hr : Reachable (Session.step cfg) ok {} s) (hs : s.step cfg l = some s')
    (hnew : (s'.mem.recvs.cell id).stopped = true)
    (hold : (s.mem.recvs.cell id).stopped = false) : Frozen cfg id s' := by
  obtain ⟨i, t, t', hi, hn, hm, ht⟩ := (Session.moves_of_step hs).marks hnew hold
  have hi' : s.tasks[i]? = some t := hi
  have hm' : s'.mem = s.mem.apply (.recv (.stop id)) := hm
  have ht' : s'.tasks = s.tasks.set i t' := ht
  have hpend : id ∉ s'.mem.recvs.pendingCredit := by
    rw [hm']
    simp [Memory.apply, RecvTable.apply, RecvTable.stopRecvStream]
  -- it is enough that the other functions neither own the stream nor read it
  have hfree : (t'.recvRole id).owesCredit = false ∧ t' ≠ .undoRecv id →
      (∀ (j : Nat) q, s.tasks[j]? = some q → j ≠ i → q.carries id = 0 ∧ q.readsOf ≠ some id) →
      ∀ q ∈ s'.tasks, (q.recvRole id).owesCredit = false ∧ q ≠ .undoRecv id := by
    intro hnext hothers q hq
    rw [ht'] at hq
    obtain ⟨j, hj⟩ := List.getElem?_of_mem hq
    rcases getElem?_set_cases hj with ⟨-, rfl⟩ | ⟨hji, hj⟩
    · exact hnext
    · exact quiet_of_free (hothers j q hj hji).1 (hothers j q hj hji).2
  rcases Task.stop_next hn with ⟨code, rfl, rfl⟩ | ⟨k, rfl, hk⟩
  · -- `stop` has borrowed the stream from the application, its owner
    have hborrow : (Task.stopMark id code).borrowsOf = some (id, false) := rfl
    have hheld := held_of_borrowsOf hr (List.mem_of_getElem? hi') hborrow
    have hquiet := hfree
      ⟨by simp [sendFrame, Task.recvRole, Check.recvRole, SendSite.recvRole, RecvRole.on,
        RecvRole.owesCredit], by rintro ⟨⟩⟩
      fun j q hj hji => ⟨carries_of_held hr hheld (List.mem_of_getElem? hj),
        not_reads_of_borrowsOf hr hi' hj hji.symm hborrow⟩
    refine ⟨fun q hq => (hquiet q hq).1, fun q hq => (hquiet q hq).2, hpend, .inl ?_⟩
    have hsent : (s.mem.recvs.cell id).reader.stopSent = true := by
      refine (marked_of_reachable hr id).marking (List.mem_map.2 ⟨_, List.mem_of_getElem? hi', ?_⟩)
      simp [Task.recvRole, RecvRole.on]
    rw [hm']
    simpa [Memory.apply, RecvTable.apply, RecvTable.stopRecvStream, RecvTable.modify] using hsent
  · -- the drop has the stream, and gives it up
    have hone : s.mem.lent id + total (Task.carries id) s.tasks ≤ 1 := owners_le_one hr id
    have hcarries : (Task.dropRecv id k).carries id = 1 + k.carries id := by
      simp [Task.carries, oneIf]
    have hle := le_total (f := Task.carries id) (List.mem_of_getElem? hi')
    have hk0 : k.carries id = 0 := by omega
    have hnext : t'.carries id = 0 := by rcases hk with rfl | rfl <;> exact hk0
    have hcarry : (Task.dropRecv id k).carries id = 1 := by omega
    obtain ⟨hlent, hothers⟩ := alone_of_carries hr hi' hcarry
    have hheld : (s.mem.recvs.cell id).reader.held = false := by
      unfold Memory.lent at hlent
      cases hh : (s.mem.recvs.cell id).reader.held with
      | false => rfl
      | true =>
          rw [hh, Bool.toNat_true] at hlent
          omega
    have hread : ∀ q ∈ s.tasks, q.readsOf ≠ some id := by
      intro q hq hof
      rw [held_of_borrowsOf hr hq (Task.borrowsOf_of_readsOf hof)] at hheld
      cases hheld
    have hquiet := hfree
      (quiet_of_free hnext (by rcases hk with rfl | rfl <;> rintro ⟨⟩))
      fun j q hj hji => ⟨hothers j q hj hji, hread q (List.mem_of_getElem? hj)⟩
    refine ⟨fun q hq => (hquiet q hq).1, fun q hq => (hquiet q hq).2, hpend, .inr ?_⟩
    have htotal := total_set (f := Task.carries id) (y := t') hi'
    show s'.mem.lent id + total (Task.carries id) s'.tasks = 0
    rw [hm', ht', Memory.lent_apply rfl]
    omega

/-- **A stopped stream is frozen**, in every run. -/
theorem frozen_of_reachable (hr : Reachable (Session.step cfg) ok {} s)
    (hstop : (s.mem.recvs.cell id).stopped = true) : Frozen cfg id s := by
  induction hr with
  | init => cases hstop
  | @step s s' l hr hok hs ih =>
      cases hold : (s.mem.recvs.cell id).stopped with
      | false => exact .mark hr hs hstop hold
      | true => exact ((ih hold).step hr hok hs hold).1

/-- **From a mark on**: the stream stays marked, its limit stays, and at most the event that was due
at the mark is delivered. -/
theorem frozen_since (hr : Reachable (Session.step cfg) ok {} s)
    (hstop : (s.mem.recvs.cell id).stopped = true) (hr' : Reachable (Session.step cfg) ok s s') :
    (s'.mem.recvs.cell id).stopped = true ∧
      (s'.mem.recvs.cell id).maxData = (s.mem.recvs.cell id).maxData ∧
      (s'.view.recvDirection cfg id).DeliveredSince (s.mem.recvs.cell id).delivered
        (recvRoles id s.tasks)[0]? (recvRoles id s'.tasks) := by
  induction hr' with
  | init => exact ⟨hstop, rfl, .inl ⟨rfl, fun _ h => h⟩⟩
  | @step s₁ s₂ l hr' hok hs ih =>
      obtain ⟨hstop₁, hmax, hdel⟩ := ih
      have hr₁ := hr.trans hr'
      have hown := (recvsInv_of_reachable hr₁).owner id
      have hpool := recvPoolStep_of_step hr₁ hok hs id
      refine ⟨?_, ?_, hdel.poolStep hown hstop₁ hpool⟩
      · exact (hpool.keepsMarks hown (registered_of_stopped hr₁ hstop₁)).1 hstop₁
      · exact (((frozen_of_reachable hr₁ hstop₁).step hr₁ hok hs hstop₁).2).trans hmax

/-! ## Credit on the wire -/

/-- The frames taken for the wire and those in the queue. -/
def Session.outgoing (s : Session) : List Frame := s.out.taken ++ queued s.mem.chan.queue

/-- The second frame is no credit for a stream that the first one stops. -/
def NoCreditAfter (id : StreamId) (f g : Frame) : Prop :=
  ∀ code n, f = .stopSending id code → g ≠ .maxStreamData id n

theorem sunk_sublist_outgoing (hr : Reachable (Session.step cfg) ok {} s) :
    s.out.sunk.Sublist s.outgoing := by
  have hsunk : s.out.sunk <+: s.out.taken :=
    Outbound.At.sunk_prefix (outbox_of_reachable hr).place
  exact hsunk.sublist.trans (List.sublist_append_left _ _)

/-- `StopSending` is published for marked streams only. -/
theorem stopped_of_outgoing (hr : Reachable (Session.step cfg) ok {} s) {code : Nat}
    (h : .stopSending id code ∈ s.outgoing) : (s.mem.recvs.cell id).stopped = true := by
  have hadm : .stopSending id code ∈ s.mem.chan.admitted := by
    rcases List.mem_append.1 h with h | h
    · have hord := (emission_of_reachable hr).taken.subset (Frame.mem_ordered.2 ⟨h, rfl⟩)
      exact (Frame.mem_ordered.1 hord).1
    · obtain ⟨c, hc, hf⟩ := List.mem_filterMap.1 h
      cases c with
      | frame f =>
          cases hf
          exact (announced_of_reachable hr).queued _ hc
      | _ => cases hf
  refine (marked_of_reachable hr id).log (List.mem_filterMap.2 ⟨_, hadm, ?_⟩)
  simp [recvItem]

/-- Where no role owes credit, only a stop is put into the queue. -/
theorem RecvDirection.PoolStep.log_of_quiet {l : Limits} {d d' : RecvDirection}
    {rs rs' : List RecvRole} {dead blocked : Prop} (hs : d.PoolStep l rs dead blocked d' rs')
    (hq : ∀ r ∈ rs, r.owesCredit = false) : d'.log = d.log ∨ d'.log = d.log ++ [.stop] := by
  cases hs with
  | act hi hs =>
      have hno := hq _ (List.mem_of_getElem? hi)
      cases hs with
      | publishOpen => cases hno
      | publishCredit => cases hno
      | publishStop => exact .inr rfl
      | _ => exact .inl rfl
  | borrow hr he => rcases he with rfl | rfl <;> exact .inl rfl
  | _ => exact .inl rfl

/-- Credit for a stopped stream is not put into the queue. -/
theorem frame_ne_credit (hr : Reachable (Session.step cfg) ok {} s) (hok : ok s l)
    (hs : s.step cfg l = some s') (hstop : (s.mem.recvs.cell id).stopped = true) {a : Access}
    (hm : s'.mem = s.mem.apply a) {n : Nat} : a.frame? ≠ some (.maxStreamData id n) := by
  intro hf
  have hlog : (s'.view.recvDirection cfg id).log =
      (s.view.recvDirection cfg id).log ++ [.credit n] := by
    show s'.mem.chan.admitted.filterMap _ = s.mem.chan.admitted.filterMap _ ++ _
    rw [hm, Memory.admitted_apply, hf, List.filterMap_append]
    simp [recvItem]
  have hq : ∀ r ∈ recvRoles id s.tasks, r.owesCredit = false := by
    intro r hr'
    obtain ⟨t, ht, rfl⟩ := List.mem_map.1 hr'
    exact (frozen_of_reachable hr hstop).quiet t ht
  rcases (recvPoolStep_of_step hr hok hs id).log_of_quiet hq with h | h
  · have := congrArg List.length (hlog.symm.trans h)
    simp at this
  · have := List.append_cancel_left (hlog.symm.trans h)
    cases this

/-- **No credit follows a stop** in what leaves the session, in every run. -/
theorem outgoing_of_reachable (hr : Reachable (Session.step cfg) ok {} s) (id : StreamId) :
    s.outgoing.Pairwise (NoCreditAfter id) := by
  induction hr with
  | init => exact List.Pairwise.nil
  | @step s s' l hr hok hs ih =>
      obtain ⟨a, -, hm, ht⟩ := takes_of_step hs
      unfold Session.outgoing at ih ⊢
      rw [hm]
      generalize s'.out = o' at ht
      cases ht with
      | nothing ha hk =>
          rw [hk.taken, Memory.queue_apply _ ha, queued_append, queued_command, ← List.append_assoc]
          refine List.pairwise_append.2 ⟨ih, by cases a.frame? <;> simp, ?_⟩
          rintro g hg f hf code n rfl rfl
          exact frame_ne_credit hr hok hs (stopped_of_outgoing hr hg) hm (Option.mem_toList.1 hf)
      | @command c rest hp hq =>
          rw [hq] at ih
          have hrest : (s.mem.apply (.chan .pop)).chan.queue = rest := congrArg List.tail hq
          rw [hrest]
          refine ih.sublist ?_
          cases c with
          | frame f =>
              simp only [Outbound.note]
              split_ifs
              · exact (List.sublist_cons_self f _).append_left _
              · rw [List.append_assoc]
                exact List.Sublist.refl _
          | _ => exact List.Sublist.refl _
      | @credit i hp hc hi =>
          refine pairwise_insert ih (fun g hg code n hstop hcredit => ?_) fun g _ code n h => ?_
          · cases hcredit
            subst hstop
            have hst := stopped_of_outgoing hr (List.mem_append_left _ hg)
            exact (frozen_of_reachable hr hst).pending hi
          · cases h
      | leave hp =>
          refine ih.sublist ?_
          exact (List.Sublist.refl _).append (List.nil_sublist _)

/-! ## The end of a stream -/

/-- The frame ends the receive direction of a stream. -/
def EndsRecv (id : StreamId) : Frame → Prop
  | .stream i _ fin => i = id ∧ fin = true
  | .resetStream i _ => i = id
  | _ => False

/-- Where `handle_frame` is before it removes the stream of a terminal frame. -/
inductive Ending (id : StreamId) : Frame → Task → Prop where
  | data (data : List UInt8) : Ending id (.stream id data true) (.receiveData id data true)
  | deliver (data : List UInt8) : Ending id (.stream id data true) (.deliver id data true)
  | remove (data : List UInt8) : Ending id (.stream id data true) (.removeRecv id)
  | reset (code : Nat) : Ending id (.resetStream id code) (.recvReset id)

theorem Ending.handling {f : Frame} {t : Task} (h : Ending id f t) :
    Handling f t ∧ EndsRecv id f := by
  cases h with
  | data data => exact ⟨.data id data true, rfl, rfl⟩
  | deliver data => exact ⟨.deliver id data true, rfl, rfl⟩
  | remove data => exact ⟨.removeRecv id data, rfl, rfl⟩
  | reset code => exact ⟨.reset id code, rfl⟩

/-- **A terminal frame removes its stream** before `handle_frame` returns. -/
theorem end_removes (cfg : Config) (id : StreamId) :
    Settles cfg (fun f m => EndsRecv id f → id ∉ m.recvs.streams) (Ending id) where
  busy h := by cases h <;> exact ⟨nofun, nofun⟩
  start f m := by
    cases f with
    | stream i data fin =>
        by_cases hend : i = id ∧ fin = true
        · obtain ⟨rfl, rfl⟩ := hend
          simp only [handleFrame]
          split_ifs
          · exact .inr (.inl rfl)
          · exact .inl (.data data)
        · exact .inr (.inr fun h => absurd h hend)
    | resetStream i code =>
        by_cases hi : i = id
        · subst hi
          exact .inl (.reset code)
        · exact .inr (.inr fun h => absurd h hi)
    | _ => exact .inr (.inr fun h => h.elim)
  next {f t m a t'} h hn := by
    cases h with
    | data data =>
        simp only [Task.next] at hn
        split at hn
        · cases hn
          exact .inr (.inl rfl)
        · split_ifs at hn <;> cases hn
          · exact .inl (.remove data)
          · exact .inl (.deliver data)
    | deliver data =>
        simp only [Task.next] at hn
        split_ifs at hn <;> cases hn
        · exact .inl (.remove data)
        · exact .inr (.inl rfl)
        · exact .inl (.remove data)
    | remove data =>
        cases hn
        exact .inr (.inr fun _ => Finset.notMem_erase id _)
    | reset code =>
        simp only [Task.next] at hn
        split_ifs at hn with hin <;> cases hn
        · exact .inr (.inr fun _ => Finset.notMem_erase id _)
        · exact .inr (.inr fun _ => hin)
  handling h := h.handling.1

/-- A stream that was removed does not come back. -/
theorem RecvDirection.PoolStep.stays_out {l : Limits} {d d' : RecvDirection}
    {rs rs' : List RecvRole} {dead blocked : Prop} (hs : d.PoolStep l rs dead blocked d' rs')
    (hown : RecvOwner d rs) (hreg : 0 < d.registered) (h : d.inTable = false) :
    d'.inTable = false := by
  cases hs with
  | act hi hs =>
      have htok := hown.ne_token hreg hi
      cases hs with
      | register => exact absurd rfl htok
      | registerPeer => exact absurd rfl htok
      | removeFin => rfl
      | resetRemove => rfl
      | undoRemove => rfl
      | clear => rfl
      | _ => exact h
  | borrow hr he => rcases he with rfl | rfl <;> exact h
  | _ => exact h

/-- The terminal frames that were handled since a state in which the stream was in the table. -/
theorem ends_settled (hr : Reachable (Session.step cfg) ok {} s) (hin : id ∈ s.mem.recvs.streams)
    (hr' : Reachable (Session.step cfg) ok s s') :
    0 < (s'.view.recvDirection cfg id).registered ∧ s.inb.handled <+: s'.inb.handled ∧
      ∀ f ∈ s'.inb.handled.drop s.inb.handled.length,
        Settled (fun f m => EndsRecv id f → id ∉ m.recvs.streams) (Ending id) s'.view f := by
  induction hr' with
  | init =>
      refine ⟨?_, List.prefix_rfl, fun f hf => ?_⟩
      · exact ((recvsInv_of_reachable hr).owner id).registered_of_inTable (decide_eq_true hin)
      · rw [List.drop_length] at hf
        cases hf
  | @step s₁ s₂ l hr' hok hs ih =>
      obtain ⟨hreg, hpre, hall⟩ := ih
      have hr₁ := hr.trans hr'
      have hown := (recvsInv_of_reachable hr₁).owner id
      have hpool := recvPoolStep_of_step hr₁ hok hs id
      have hm := Session.moves_of_step hs
      have hset := end_removes cfg id
      -- a stream that is gone stays gone
      have hkeep : ∀ f, (EndsRecv id f → id ∉ s₁.mem.recvs.streams) →
          EndsRecv id f → id ∉ s₂.mem.recvs.streams := by
        intro f hP hend
        have := hpool.stays_out hown hreg (decide_eq_false (hP hend))
        exact of_decide_eq_false this
      have hold : ∀ f ∈ s₁.inb.handled.drop s.inb.handled.length,
          Settled (fun f m => EndsRecv id f → id ∉ m.recvs.streams) (Ending id) s₂.view f :=
        fun f hf => hset.moves hm (hkeep f) (hall f hf)
      have hreg₂ : 0 < (s₂.view.recvDirection cfg id).registered :=
        List.count_pos_iff.2 (by
          obtain ⟨a, ha⟩ := hm.mem_eq
          have hmem : id ∈ s₁.mem.recvs.registered := List.count_pos_iff.1 hreg
          have := Memory.recvRegistered_apply a hmem
          rwa [← show s₂.mem = s₁.mem.apply a from ha] at this)
      refine ⟨hreg₂, hpre.trans hm.handled_isPrefix, ?_⟩
      rcases hset.grows hm with heq | ⟨g, heq, hg⟩
      · have heq' : s₂.inb.handled = s₁.inb.handled := heq
        rw [heq']
        exact hold
      · have heq' : s₂.inb.handled = s₁.inb.handled ++ [g] := heq
        rw [heq', List.drop_append_of_le_length hpre.length_le]
        exact forall_mem_concat hold hg

/-- An access that removes a stream from the table. -/
theorem Memory.removes_apply {m : Memory} {a : Access} (hin : id ∈ m.recvs.streams)
    (hout : id ∉ (m.apply a).recvs.streams) : a = .recv (.remove id) ∨ a = .recv .clear := by
  cases a with
  | recv b =>
      cases b with
      | remove i =>
          by_cases hi : id = i
          · exact .inl (by rw [hi])
          · exact absurd (Finset.mem_erase.2 ⟨hi, hin⟩) hout
      | clear => exact .inr rfl
      | register i w => exact absurd (Finset.mem_insert_of_mem hin) hout
      | _ => exact absurd hin hout
  | session clone => cases clone <;> exact absurd hin hout
  | _ => exact absurd hin hout

/-- **Who removes a stream** from the table. -/
theorem Task.removes_next {m : Memory} {t t' : Task} {a : Access}
    (hn : t.next cfg m = some (a, t')) (ha : a = .recv (.remove id) ∨ a = .recv .clear) :
    t = .undoRecv id ∨ t = .removeRecv id ∨ t = .recvReset id ∨
      ∃ k, t = .closeAll .clearStreams k := by
  replace hn := Task.steps_of_next hn
  induction hn with
  | undoRecv i =>
      obtain rfl : i = id := by simpa using ha
      exact .inl rfl
  | removeRecv i =>
      obtain rfl : i = id := by simpa using ha
      exact .inr (.inl rfl)
  | recvReset i =>
      obtain rfl : i = id := by simpa using ha
      exact .inr (.inr (.inl rfl))
  | closeAll c k =>
      cases c with
      | clearStreams => exact .inr (.inr (.inr ⟨k, rfl⟩))
      | _ => rcases ha with ha | ha <;> cases ha
  | _ => rcases ha with ha | ha <;> cases ha

/-- **When a stopped stream is removed**: by the handler of a terminal frame, or when the session is
closed. -/
theorem removed_by (hr : Reachable (Session.step cfg) ok {} s)
    (hstop : (s.mem.recvs.cell id).stopped = true) (hs : s.step cfg l = some s')
    (hin : id ∈ s.mem.recvs.streams) (hout : id ∉ s'.mem.recvs.streams) :
    (∃ t cursor f, s.inb.phase = .running t cursor ∧ s.inb.handled.getLast? = some f ∧
        Ending id f t) ∨ s.mem.flags.closed = true := by
  have hact : ∀ {i : Nat} {t t' : Task} {a : Access}, s.tasks[i]? = some t →
      t.next cfg s.mem = some (a, t') → (a = .recv (.remove id) ∨ a = .recv .clear) →
      (∃ t cursor f, s.inb.phase = .running t cursor ∧ s.inb.handled.getLast? = some f ∧
        Ending id f t) ∨ s.mem.flags.closed = true := by
    intro i t t' a hi hn ha
    have ht := List.mem_of_getElem? hi
    -- the handler of a frame is with the last one
    have hlast : t.inHandle = true → t.failing = false → t ≠ .done →
        ∃ cursor f, s.inb.phase = .running t cursor ∧ s.inb.handled.getLast? = some f ∧
          Handling f t := by
      intro hin hfail hdone
      obtain ⟨cursor, hp⟩ := running_of_inHandle hr ht hin
      obtain ⟨t₀, h0, hh⟩ := handlesLast_of_reachable hr
      cases h0.symm.trans (Session.tasks_inb hp)
      rcases hh (Session.listening_view hp rfl) with h | h | ⟨f, hf, hh⟩
      · exact absurd h hdone
      · rw [show (InPhase.running t cursor).task = t from rfl, hfail] at h
        cases h
      · exact ⟨cursor, f, hp, hf, hh⟩
    rcases Task.removes_next hn ha with rfl | rfl | rfl | ⟨k, rfl⟩
    · exact absurd rfl ((frozen_of_reachable hr hstop).kept _ ht)
    · obtain ⟨cursor, f, hp, hf, hh⟩ := hlast rfl rfl nofun
      cases hh with
      | removeRecv i data => exact .inl ⟨_, cursor, _, hp, hf, .remove data⟩
    · obtain ⟨cursor, f, hp, hf, hh⟩ := hlast rfl rfl nofun
      cases hh with
      | reset i code => exact .inl ⟨_, cursor, _, hp, hf, .reset code⟩
    · exact .inr ((controlInv_of_reachable hr).justified _ ht)
  have hm := Session.moves_of_step hs
  have hout' : id ∉ s'.view.mem.recvs.streams := hout
  generalize s'.view = v' at hm hout'
  generalize l.actor = who at hm
  cases hm with
  | next hi hn => exact hact hi hn (Memory.removes_apply hin hout')
  | exit hi => rcases Memory.removes_apply hin hout' with h | h <;> cases h
  | spawn hc =>
      rcases Memory.removes_apply hin hout' with rfl | rfl <;> cases Call.starts_of_start hc
  | loop ha hb => rcases Memory.removes_apply hin hout' with rfl | rfl <;> cases ha
  | _ => exact absurd hin hout'

/-- **What becomes of a stream** in a continuation `s'` of a state `s` in which it is stopped. -/
structure FrozenSince (cfg : Config) (id : StreamId) (s s' : Session) : Prop where
  /-- The limit stays. -/
  maxData : (s'.mem.recvs.cell id).maxData = (s.mem.recvs.cell id).maxData
  /-- An event that is delivered since is that of the frame that was being handled. -/
  delivered : (s'.mem.recvs.cell id).delivered = (s.mem.recvs.cell id).delivered ∨
    ∃ data fin cursor, s.inb.phase = .running (.deliver id data fin) cursor ∧
      s.inb.handled.getLast? = some (.stream id data fin) ∧
      (s'.mem.recvs.cell id).delivered = (s.mem.recvs.cell id).delivered ++ [⟨data, fin⟩]
  pending : id ∉ s'.mem.recvs.pendingCredit
  /-- Among the frames written, no credit comes behind a stop. -/
  written : s'.out.sunk.Pairwise (NoCreditAfter id)
  /-- Bytes beyond the limit are a protocol error. -/
  rejected : ∀ data fin cursor, s'.inb.phase = .running (.receiveData id data fin) cursor →
    (s.mem.recvs.cell id).maxData < (s'.mem.recvs.cell id).received + data.length →
    ∃ reason, s'.step cfg .inbound = some { s' with inb := { s'.inb with
      phase := .running (protocolError 2 reason (.handled false)) cursor } }
  /-- The entry is removed when a terminal frame is being handled, or the session is closed. -/
  removed : ∀ l s'', s'.step cfg l = some s'' → id ∈ s'.mem.recvs.streams →
    id ∉ s''.mem.recvs.streams →
    (∃ t cursor f, s'.inb.phase = .running t cursor ∧ s'.inb.handled.getLast? = some f ∧
      Handling f t ∧ EndsRecv id f) ∨ s'.mem.flags.closed = true
  /-- A terminal frame that was handled since the entry was there has removed it. -/
  ended : ∀ s₀, Reachable (Session.step cfg) anyStep {} s₀ → id ∈ s₀.mem.recvs.streams →
    Reachable (Session.step cfg) anyStep s₀ s' →
    (s'.inb.phase = .idle ∨ ∃ cursor, s'.inb.phase = .decoding cursor) →
    ∀ f ∈ s'.inb.handled.drop s₀.inb.handled.length, EndsRecv id f → id ∉ s'.mem.recvs.streams

/-- The checks of `handle_frame` refuse bytes beyond the limit. -/
theorem RecvTable.refusesData_beyond {x : RecvTable} {n : Nat}
    (h : (x.cell id).maxData < (x.cell id).received + n) :
    ∃ reason, x.refusesData id n = some reason := by
  unfold RecvTable.refusesData
  split_ifs
  · exact ⟨_, rfl⟩
  · exact ⟨_, rfl⟩
  · exact ⟨_, rfl⟩

/-- **A stopped receive direction is frozen** until its terminal frame, in every continuation of a
state in which the stream is marked. -/
theorem stopped_frozen (hr : Reachable (Session.step cfg) anyStep {} s)
    (hstop : (s.mem.recvs.cell id).stopped = true)
    (hr' : Reachable (Session.step cfg) anyStep s s') : FrozenSince cfg id s s' := by
  obtain ⟨hstop', hmax, hdel⟩ := frozen_since hr hstop hr'
  have hreach := hr.trans hr'
  refine ⟨hmax, ?_, (frozen_of_reachable hreach hstop').pending, ?_, ?_, ?_, ?_⟩
  · -- the inbound task had the event to deliver
    rcases hdel with ⟨hsame, -⟩ | ⟨x, hrole, hnew, -⟩
    · exact .inl hsame
    · have h0 : s.inb.phase.task.recvRole id = .delivering x := Option.some.inj hrole
      have htask := Task.eq_deliver h0
      obtain ⟨cursor, hp⟩ : ∃ cursor, s.inb.phase = .running s.inb.phase.task cursor :=
        running_of_inHandle hr List.mem_cons_self (by rw [htask]; rfl)
      rw [htask] at hp
      obtain ⟨t₀, ht₀, hh⟩ := handlesLast_of_reachable hr
      cases ht₀.symm.trans (Session.tasks_inb hp)
      rcases hh (Session.listening_view hp rfl) with h | h | ⟨f, hf, hh⟩
      · cases h
      · cases h
      · cases hh with
        | deliver i data fin => exact .inr ⟨x.data, x.fin, cursor, hp, hf, hnew⟩
  · exact (outgoing_of_reachable hreach id).sublist
      (sunk_sublist_outgoing hreach)
  · intro data fin cursor hp hlt
    rw [← hmax] at hlt
    obtain ⟨reason, href⟩ := RecvTable.refusesData_beyond hlt
    refine ⟨reason, ?_⟩
    simp only [Session.step, Inbound.step, hp, Task.next, href, Option.map_some]
    rfl
  · intro l s'' hs hin hout
    rcases removed_by hreach hstop' hs hin hout with ⟨t, cursor, f, hp, hf, hend⟩ | hc
    · exact .inl ⟨t, cursor, f, hp, hf, hend.handling⟩
    · exact .inr hc
  · intro s₀ hr₀ hin hr₁ hphase f hf hend
    have hset := (ends_settled hr₀ hin hr₁).2.2 f hf
    refine hset.of_done (end_removes cfg id) ?_ ?_ hend
    · rcases hphase with hp | ⟨cursor, hp⟩ <;> rw [hp] <;> rfl
    · rcases hphase with hp | ⟨cursor, hp⟩ <;> rw [hp] <;> rfl

end Run

/-- The inbound task waits for a message. -/
def InPhase.isIdle : InPhase → Bool
  | .idle => true
  | _ => false

theorem InPhase.of_isIdle {p : InPhase} (h : p.isIdle = true) : p = .idle := by
  cases p with
  | idle => rfl
  | _ => cases h

/-- A client accepts a stream of the peer and stops it. Behind the mark, data arrives and the end of
the stream: nothing is delivered, the limit stays and the entry is removed. -/
theorem stopped_frozen_run :
    ∃ s s', Reachable (Session.step ⟨false, {}⟩) anyStep {} s ∧
      (s.mem.recvs.cell ⟨3⟩).stopped = true ∧ ⟨3⟩ ∈ s.mem.recvs.streams ∧
      Reachable (Session.step ⟨false, {}⟩) anyStep s s' ∧
      s'.inb.handled = [.openUni ⟨3⟩, .stream ⟨3⟩ [7, 7] false, .stream ⟨3⟩ [] true] ∧
      FrozenSince ⟨false, {}⟩ ⟨3⟩ s s' ∧ ⟨3⟩ ∉ s'.mem.recvs.streams := by
  obtain ⟨s, hr, hstop, hin, hh, hrun⟩ :
      ∃ s, Reachable (Session.step ⟨false, {}⟩) anyStep {} s ∧
        (s.mem.recvs.cell ⟨3⟩).stopped = true ∧ ⟨3⟩ ∈ s.mem.recvs.streams ∧
        s.inb.handled = [.openUni ⟨3⟩] ∧
        (run (Session.step ⟨false, {}⟩) anyStep s
          (List.flatten [[.receive (.binary [2, 3, 0, 2, 7, 7, 2, 3, 1, 0])],
            List.replicate 10 .inbound])).any
          (fun s' => decide (s'.inb.handled =
              [.openUni ⟨3⟩, .stream ⟨3⟩ [7, 7] false, .stream ⟨3⟩ [] true]) &&
            s'.inb.phase.isIdle) = true :=
    Reachable.exists_of_run (List.flatten [[.receive (.binary [0, 3])],
      List.replicate 11 .inbound,
      [.call (.accept false), .op 0, .op 0, .call (.stop ⟨3⟩ 5), .op 1, .op 1]]) (by decide +kernel)
  obtain ⟨s', hs', hq⟩ := (Option.any_eq_true _ _).1 hrun
  obtain ⟨hh', hp⟩ := Bool.and_eq_true_iff.1 hq
  have hr' : Reachable (Session.step ⟨false, {}⟩) anyStep s s' := Reachable.of_run .init hs'
  have hfrozen := stopped_frozen hr hstop hr'
  have hidle : s'.inb.phase = .idle := InPhase.of_isIdle hp
  refine ⟨s, s', hr, hstop, hin, hr', of_decide_eq_true hh', hfrozen, ?_⟩
  refine hfrozen.ended s hr hin hr' (.inl hidle) (.stream ⟨3⟩ [] true) ?_ ⟨rfl, rfl⟩
  rw [of_decide_eq_true hh', hh]
  simp

end WebsockMux.Native
