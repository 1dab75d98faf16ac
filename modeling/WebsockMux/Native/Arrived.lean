import WebsockMux.Native.Crossing
import WebsockMux.Native.EndToEnd
import WebsockMux.Native.Stopped

/-!
# When everything has arrived

When nothing is on its way from one session to the other, nothing is lost (`all_delivered`), and the
credit loop is closed: the limits of the receiver, from the queue and from `pending_credit`, are in
force at the sender, which so has credit when the reader has consumed all bytes
(`no_credit_deadlock`).
-/

set_option autoImplicit false

namespace WebsockMux.Native

open WebsockMux.Lib WebsockMux.Proto

variable {c : Connection} {x : Link Session} {i : Side} {cfg : Config} {s : Session} {id : StreamId}

/-! ## Data -/

namespace Connection

variable {ok : Link Session → Side × Label → Prop}

instance (x : Link Session) (i : Side) : Decidable (Drained x i) :=
  decidable_of_iff ((x.party.get i).inb.phase.isIdle = true ∧
      x.taken.get i = (x.party.get i.other).out.written.length ∧
      (x.party.get i.other).out.pc.selects = true ∧ (x.party.get i.other).mem.chan.queue = [] ∧
      (x.party.get i.other).mem.flags.isClosed = false) <| by
    constructor
    · rintro ⟨hp, hrec, hsel, hq, hcl⟩
      exact ⟨InPhase.of_isIdle hp, hrec, hsel, hq, hcl⟩
    · rintro ⟨hp, hrec, hsel, hq, hcl⟩
      exact ⟨hp ▸ rfl, hrec, hsel, hq, hcl⟩

/-- All frames of a stream that were queued are handled. -/
theorem Drained.got_eq (hd : Drained x i) (hr : c.Run ok x) (id : StreamId) :
    ((x.party.get i).view.recvDirection (c.config i) id).got =
      (x.party.get i.other).mem.chan.admitted.filterMap (sendItem id) := by
  have hitem : ∀ f : Frame, f.isCredit = true → sendItem id f = none := by
    intro f hf
    cases f <;> first | rfl | cases hf
  show List.filterMap _ (x.party.get i).inb.handled = _
  rw [← Frame.filterMap_ordered hitem, (hd.ordered_eq hr).1, Frame.filterMap_ordered hitem]

/-- A session whose inbound task waits has no frame in hand, and will handle further ones. -/
theorem Drained.waits (hd : Drained x i) :
    (x.party.get i).view.tasks[0]? = some .done ∧ ¬ Blocked (x.party.get i).view := by
  have h0 : (x.party.get i).view.tasks[0]? = some .done := by
    rw [Session.tasks_inb hd.idle]
    rfl
  exact ⟨h0, not_blocked_of_done (Session.listening_view hd.idle rfl) h0⟩

end Connection

/-- A flow in the table knows the limit of a `MaxStreamData` frame, unless it is closed. -/
def CreditApplied (id : StreamId) (f : Frame) (m : Memory) : Prop :=
  ∀ n, f = .maxStreamData id n → id ∈ m.sends.flows →
    (m.sends.cell id).flowClosed = true ∨ n ≤ (m.sends.cell id).maxData

/-- `handle_frame` has still to call `update_max`. -/
inductive CreditWaits (id : StreamId) : Frame → Task → Prop where
  | update (n : Nat) : CreditWaits id (.maxStreamData id n) (.updateMax id n)

/-- `handle_frame` raises the limit of the flow. -/
theorem credit_applies (cfg : Config) (id : StreamId) :
    Settles cfg (CreditApplied id) (CreditWaits id) where
  busy hw := by
    cases hw
    exact ⟨by rintro ⟨⟩, by rintro ⟨⟩⟩
  start f m := by
    by_cases hf : ∃ n, f = .maxStreamData id n
    · obtain ⟨n, rfl⟩ := hf
      exact .inl (.update n)
    · exact .inr (.inr fun n hn => absurd ⟨n, hn⟩ hf)
  next {f t m a t'} hw hn := by
    cases hw with
    | update n =>
        cases hn
        refine .inr (.inr ?_)
        rintro _ ⟨⟩ hin
        have hin : id ∈ m.sends.flows := hin
        simp only [Memory.apply, SendTable.apply, SendTable.updateMax, SendTable.modify,
          Function.update_self]
        split_ifs with h
        · exact .inr (Nat.le_refl _)
        · by_cases hc : (m.sends.cell id).flowClosed = true
          · exact .inl hc
          · have := fun hlt => h ⟨hin, by simpa using hc, hlt⟩
            exact .inr (Nat.not_lt.1 this)
  handling hw := by
    cases hw with
    | update n => exact .updateMax id n

/-- A flow that is in the table after a step was there before, with its flags and no larger limit,
unless the step registers it. -/
theorem SendDirection.PoolStep.stays_open {d d' : SendDirection} {rs rs' : List SendRole}
    (hinv : SendInv d rs) (hs : d.PoolStep rs d' rs') (ho : d'.isOpen = true) :
    (d.registered = 0 ∧ d'.cell.flowClosed = false) ∨
      (d.isOpen = true ∧ d'.cell.flowClosed = d.cell.flowClosed ∧
        d.cell.maxData ≤ d'.cell.maxData) := by
  cases hs with
  | act hi hs =>
      cases hs with
      | register h => exact .inl ⟨hinv.unregistered_of_token hi, rfl⟩
      | updateMax r max =>
          obtain ⟨hcell, hle⟩ := d.updateMax_cell max
          refine .inr ⟨ho, ?_, hle⟩
          show (d.updateMax max).cell.flowClosed = _
          rw [hcell]
      | finRemove | shutRemove | resetRemove | dropRemove | undoRemove | stopRemove _ | clear _ =>
          cases ho
      | _ => exact .inr ⟨ho, rfl, Nat.le_refl _⟩
  | _ => exact .inr ⟨ho, rfl, Nat.le_refl _⟩

/-- A flow of the table is not closed. -/
theorem flow_not_closed {ok : Session → Label → Prop}
    (hr : Reachable (Session.step cfg) ok {} s) (h : id ∈ s.mem.sends.flows) :
    (s.mem.sends.cell id).flowClosed = false := by
  refine send_invariant (P := fun d _ => d.isOpen = true → d.cell.flowClosed = false)
    (by rintro ⟨⟩) ?_ hr id (decide_eq_true h)
  intro d d' rs rs' hinv h hs ho
  rcases hs.stays_open hinv ho with ⟨-, hc⟩ | ⟨ho, hc, -⟩
  · exact hc
  · exact hc.trans (h ho)

/-! ## Limits that are taken -/

/-- Only the outbound task adds to the entries that were taken. -/
theorem Memory.credits_apply {m : Memory} {a : Access} {n : Nat}
    (h : n ∈ ((m.apply a).recvs.cell id).credits) :
    n ∈ (m.recvs.cell id).credits ∨
      (a = .recv (.takeCredit id) ∧ n = (m.recvs.cell id).credit) := by
  cases a with
  | recv b =>
      cases b <;>
        simp only [Memory.apply, RecvTable.apply, RecvTable.register, RecvTable.stopRecvStream,
          RecvTable.queueCredit, RecvTable.modify, Function.update_apply] at h <;>
        (try split_ifs at h) <;> simp_all
  | session clone => cases clone <;> exact .inl h
  | _ => exact .inl h

/-- An entry of `pending_credit` is taken as a frame. -/
theorem credits_taken {ok : Session → Label → Prop} {n : Nat}
    (hr : Reachable (Session.step cfg) ok {} s)
    (h : n ∈ (s.mem.recvs.cell id).credits) : .maxStreamData id n ∈ s.out.taken := by
  refine hr.invariant (I := fun s => ∀ n, n ∈ (s.mem.recvs.cell id).credits →
    .maxStreamData id n ∈ s.out.taken) (fun n h => by cases h) ?_ n h
  intro s l s' _ ih _ hs n h
  obtain ⟨a, -, hm, ht⟩ := takes_of_step hs
  rw [hm] at h
  generalize s'.out = o at ht
  rcases Memory.credits_apply h with hold | ⟨rfl, rfl⟩
  · have hmem := ih n hold
    cases ht with
    | nothing ha hk => exact hk.taken ▸ hmem
    | @command c rest hp hq =>
        cases c with
        | frame f =>
            simp only [Outbound.note]
            split_ifs
            · exact hmem
            · exact List.mem_append_left _ hmem
        | _ => exact hmem
    | credit hp hc hi => exact List.mem_append_left _ hmem
    | leave hp => exact hmem
  · cases ht with
    | nothing ha hk => cases ha
    | credit hp hc hi => exact List.mem_append_right _ (List.mem_singleton.2 rfl)

namespace Connection

variable {ok : Link Session → Side × Label → Prop}

/-- Who announces a limit has the receive direction. -/
theorem recv_registered_of_credit (hr : c.Run ok x) {n : Nat}
    (hf : .maxStreamData id n ∈ (x.party.get i).inb.handled) :
    id ∈ (x.party.get i.other).mem.recvs.registered := by
  have hown := (recvsInv_of_reachable (hr.any i.other)).owner id
  have htaken := (handled_prefix_taken hr i).subset hf
  by_contra hreg
  obtain ⟨hcell, -, -, hlog⟩ := hown.unregistered (List.count_eq_zero.2 hreg)
  rcases (announced_of_reachable (hr.any i.other)).taken id n htaken with h | h
  · have hitem : RecvItem.credit n ∈
        ((x.party.get i.other).view.recvDirection (c.config i.other) id).log :=
      List.mem_filterMap.2 ⟨_, h, by simp [recvItem]⟩
    rw [hlog] at hitem
    cases hitem
  · have hcell : (x.party.get i.other).mem.recvs.cell id = {} := hcell
    rw [hcell] at h
    cases h

/-- **The limits that were handled are in force**, for the streams that a session has opened. -/
theorem credits_applied (hr : c.Run ok x) (hown : id.initiatorIsServer = (c.config i).isServer) :
    ∀ f ∈ (x.party.get i).inb.handled,
      Settled (CreditApplied id) (CreditWaits id) (x.party.get i).view f := by
  induction hr with
  | init => cases i <;> (intro f hf; cases hf)
  | @step x x' p hr hok hs ih =>
      obtain ⟨j, l⟩ := p
      have hrun : c.Run ok x := hr
      by_cases hj : i = j
      · subst hj
        have hstep := (session_step hs).1
        refine (credit_applies (c.config i) id).step hstep ?_ ih
        intro f hf h n hn
        subst hn
        -- the receiver has the stream, so its open was put into the queue
        have hreg := send_registered_of_opened (hrun.any i)
          (isOpened_of_registered hrun hown (.inl (recv_registered_of_credit hrun hf)))
        intro hin
        rcases (sendPoolStep_of_step (hrun.any i) hstep id).stays_open
          ((sendsInv_of_reachable (hrun.any i)).send id) (decide_eq_true hin) with
            ⟨hz, -⟩ | ⟨ho, hc, hle⟩
        · exact absurd hreg (List.count_eq_zero.1 hz)
        · exact (h n rfl (of_decide_eq_true ho)).imp hc.trans fun hn => hn.trans hle
      · rw [session_eq hs hj]
        exact ih

/-- The limit in force at the receiver was handled by the sender. -/
theorem Drained.limit_handled (hd : Drained x i) (hr : c.Run ok x)
    (hdone : ∀ t ∈ (x.party.get i.other).tasks, t = .done)
    (hpend : id ∉ (x.party.get i.other).mem.recvs.pendingCredit)
    (hlive : id ∈ (x.party.get i.other).mem.recvs.streams)
    (hstop : ((x.party.get i.other).mem.recvs.cell id).stopped = false) :
    .maxStreamData id ((x.party.get i.other).mem.recvs.cell id).maxData ∈
      (x.party.get i).inb.handled := by
  have hnd : ¬ Doomed (x.party.get i.other).mem (x.party.get i.other).tasks := by
    rintro (hc | ⟨t, ht, h⟩)
    · exact absurd (hd.still.symm.trans hc) Bool.false_ne_true
    · rw [hdone t ht] at h
      cases h
  rcases (recvPublished_of_reachable (c.valid i.other) (hr.any i.other) id).announced hnd
    (decide_eq_true hlive) hstop with hlog | hcr | ⟨hp, -⟩ | ⟨r, hmem, ha⟩
  · obtain ⟨f, hf, hitem⟩ := List.mem_filterMap.1 hlog
    cases f <;> simp only [recvItem, Option.ite_none_right_eq_some, reduceCtorEq] at hitem
    all_goals obtain ⟨rfl, hn⟩ := hitem
    all_goals cases hn
    exact (hd.ordered_eq hr).2.subset hf
  · rw [hd.handled_eq hr]
    exact credits_taken (hr.any i.other) hcr
  · exact absurd (of_decide_eq_true hp) hpend
  · obtain ⟨t, ht, rfl⟩ := List.mem_map.1 hmem
    rw [hdone t ht] at ha
    exact ha.elim

/-- **A reader that has consumed everything leaves credit to the sender.** Take a stream that a session
has opened, that is in the tables of both sessions and that is not stopped. When nothing is on its way
to the sender, no function of the receiver is in progress and no credit is pending, the limit of the
sender is the one that the reader has granted, and unless the stream comes near the largest limit, it
is above what the reader has consumed: a sender that is blocked has sent bytes that are not consumed. -/
theorem no_credit_deadlock (hr : c.Run anyStep x) (hd : Drained x i)
    (hown : id.initiatorIsServer = (c.config i).isServer)
    (hdone : ∀ t ∈ (x.party.get i.other).tasks, t = .done)
    (hpend : id ∉ (x.party.get i.other).mem.recvs.pendingCredit)
    (hflow : id ∈ (x.party.get i).mem.sends.flows)
    (hlive : id ∈ (x.party.get i.other).mem.recvs.streams) :
    let sender := (x.party.get i).mem.sends.cell id
    let receiver := (x.party.get i.other).mem.recvs.cell id
    receiver.stopped = false → sender.maxData = receiver.reader.granted ∧
      (receiver.reader.finished = false → receiver.reader.stopSent = false →
        receiver.reader.consumed + (c.config i.other).limits.initialStreamWindow ≤ VarInt.max →
        receiver.reader.consumed < sender.maxData) := by
  intro sender receiver hstop
  have hv := c.valid i.other
  have hlimit : sender.maxData = receiver.maxData := by
    refine Nat.le_antisymm ?_ ?_
    · obtain ⟨h₁, h₂, h₃⟩ := limits_ordered hr i id
      exact h₁.trans (h₂.trans h₃)
    · have hset := credits_applied hr hown _ (hd.limit_handled hr hdone hpend hlive hstop)
      have happ := hset.of_done (credit_applies (c.config i) id) (by rw [hd.idle]; rfl)
        (by rw [hd.idle]; rfl)
      refine (happ _ rfl hflow).resolve_left ?_
      rw [flow_not_closed (hr.any i) hflow]
      exact Bool.false_ne_true
  have hgranted : sender.maxData = receiver.reader.granted := by
    rcases (recvWindow_of_reachable hv.window_le (hr.any i.other) id).stored with h | ⟨t, ht⟩
    · exact hlimit.trans h
    · obtain ⟨q, hq, hrole⟩ := List.mem_map.1 ht
      rw [hdone q hq] at hrole
      cases hrole
  refine ⟨hgranted, fun hfin hsent hmax => ?_⟩
  have hreg := (recvsInv_of_reachable (hr.any i.other)).owner id
  rcases (recvPublished_of_reachable hv (hr.any i.other) id).upToDate
    (hreg.registered_of_inTable (decide_eq_true hlive)) with hup | hup | hup
  · exact absurd (hfin.symm.trans hup) Bool.false_ne_true
  · exact absurd (hsent.symm.trans hup) Bool.false_ne_true
  · have hlt : min (Limits.saturatingAdd receiver.reader.consumed
        (c.config i.other).limits.initialStreamWindow) VarInt.max <
          receiver.reader.granted + (c.config i.other).limits.streamWindowUpdateThreshold := hup
    rw [Limits.saturatingAdd_of_le hmax, Nat.min_eq_left hmax] at hlt
    have := hv.threshold_le
    omega

end Connection

/-- The client has written two bytes, which the server has not read. -/
theorem no_credit_deadlock_run :
    ∃ x, defaultConnection.Run anyStep x ∧ Connection.Drained x .left ∧
      (x.party.left.mem.sends.cell ⟨2⟩).sentData = 2 ∧
      (x.party.right.mem.recvs.cell ⟨2⟩).reader.consumed <
        (x.party.left.mem.sends.cell ⟨2⟩).maxData := by
  obtain ⟨x, hr, hd, hall, hpend, hflow, hlive, hst, hfin, hstop, hmax, h2⟩ :
      ∃ x, defaultConnection.Run anyStep x ∧ Connection.Drained x .left ∧
      x.party.right.tasks.all Task.isDone = true ∧ ⟨2⟩ ∉ x.party.right.mem.recvs.pendingCredit ∧
      ⟨2⟩ ∈ x.party.left.mem.sends.flows ∧ ⟨2⟩ ∈ x.party.right.mem.recvs.streams ∧
      (x.party.right.mem.recvs.cell ⟨2⟩).stopped = false ∧
      (x.party.right.mem.recvs.cell ⟨2⟩).reader.finished = false ∧
      (x.party.right.mem.recvs.cell ⟨2⟩).reader.stopSent = false ∧
      (x.party.right.mem.recvs.cell ⟨2⟩).reader.consumed + 512 * 1024 ≤ VarInt.max ∧
      (x.party.left.mem.sends.cell ⟨2⟩).sentData = 2 :=
    Connection.exists_run opensAndWrites (by decide +kernel)
  have hdone : ∀ t ∈ x.party.right.tasks, t = .done := by
    intro t ht
    have h := List.all_eq_true.1 hall t ht
    cases t <;> first | rfl | cases h
  have h := Connection.no_credit_deadlock hr hd rfl hdone hpend hflow hlive hst
  exact ⟨x, hr, hd, h2, h.2 hfin hstop hmax⟩

end WebsockMux.Native
