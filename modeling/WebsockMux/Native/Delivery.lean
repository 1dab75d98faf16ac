import WebsockMux.Native.RecvInvariant

/-!
# Delivery of received data

From the frames that the inbound task handles to the bytes that the application gets. The events in
the channel are those of the handled frames, in their order, up to a point behind which nothing is
delivered any more (`RecvDirection.InOrder`), and a FIN is the last of them (`RecvEnds`); what the
reader has returned and keeps pending is the payload of the events that it took (`RecvCell.Took`);
and the received bytes are those of the handled frames (`RecvCounted`).
-/

set_option autoImplicit false

namespace WebsockMux.Native

open WebsockMux.Lib WebsockMux.Proto

variable {l : Limits} {d d' : RecvDirection} {rs rs' : List RecvRole} {i : Nat} {r r' : RecvRole}
  {e : RecvChange} {dead blocked : Prop}

/-! ## The reader -/

/-- The reader has taken the events `taken` from the channel. -/
structure RecvCell.Took (c : RecvCell) (taken : List RecvEvent) : Prop where
  delivered : c.delivered = taken ++ c.events
  bytes : c.reader.returned ++ c.reader.pending = eventBytes taken
  finRead : c.reader.finRead = taken.any RecvEvent.fin

theorem RecvCell.Took.fresh (window : Nat) : RecvCell.Took
    { maxData := window, reader := { granted := window, receiverOpen := true } } [] where
  delivered := rfl
  bytes := rfl
  finRead := rfl

/-- A read takes further events. -/
theorem RecvCell.Took.read {c : RecvCell} {taken more events : List RecvEvent} {r : RecvStream}
    {open_ : Bool} {target : Option Nat} (h : c.Took taken)
    (hread : RecvStream.Reads l open_ c.reader c.events r events more target) :
    RecvCell.Took { c with reader := r, events := events } (taken ++ more) where
  delivered := by
    show c.delivered = taken ++ more ++ events
    rw [h.delivered, hread.events_eq, List.append_assoc]
  bytes := by
    show r.returned ++ r.pending = _
    rw [hread.bytes, h.bytes, eventBytes_append]
  finRead := by
    show r.finRead = _
    rw [hread.finRead, h.finRead, List.any_append]

/-- A step keeps the account of the reader. -/
theorem RecvDirection.Step.took (hs : d.Step l dead blocked r e r')
    (h : ∃ taken, d.cell.Took taken) : ∃ taken, (d.apply e).cell.Took taken := by
  obtain ⟨taken, h⟩ := h
  cases hs with
  | register ho => exact ⟨[], .fresh _⟩
  | registerPeer => exact ⟨[], .fresh _⟩
  | read hread hr' => exact ⟨_, h.read hread⟩
  | readGrant hread => exact ⟨_, h.read hread⟩
  | @deliver e hopen =>
      refine ⟨taken, { h with delivered := ?_ }⟩
      show d.cell.delivered ++ [e] = taken ++ (d.cell.events ++ [e])
      rw [h.delivered, List.append_assoc]
  | _ => exact ⟨taken, { h with }⟩

/-- **The account of the reader in every run.** -/
theorem recvTook_of_reachable {cfg : Config} {ok : Session → Label → Prop} {s : Session}
    (hr : Reachable (Session.step cfg) ok {} s) (id : StreamId) :
    ∃ taken, (s.mem.recvs.cell id).Took taken := by
  refine recv_invariant (P := fun d _ => ∃ taken, d.cell.Took taken) ?_ ?_ hr id
  · intro own dead blocked
    exact ⟨[], rfl, rfl, rfl⟩
  · intro d d' rs rs' dead blocked _ _ _ h hs
    cases hs with
    | act hi hs => exact hs.took h
    | borrow hr he hh hone =>
        obtain ⟨taken, h⟩ := h
        rcases he with rfl | rfl <;> exact ⟨taken, { h with }⟩
    | takeCredit hp =>
        obtain ⟨taken, h⟩ := h
        exact ⟨taken, { h with }⟩
    | _ => exact h

/-! ## The order of events -/

/-- Nothing is delivered any more behind the events in the channel. -/
def RecvDirection.Sealed (d : RecvDirection) : Prop :=
  (0 < d.registered ∧ (d.cell.stopped = true ∨ d.cell.reader.receiverOpen = false)) ∨ d.blocked

/-- The delivered events are those of the handled frames, up to a point behind which nothing is
delivered. The role is that of the inbound task: the frame that it has is not yet delivered. -/
def RecvDirection.InOrder (d : RecvDirection) : RecvRole → Prop
  | .arriving e => ∃ pre, d.gotEvents = pre ++ [e] ∧
      (d.cell.delivered = pre ∨ (d.cell.delivered <+: pre ∧ 0 < d.registered ∧
        (d.cell.stopped = true ∨ d.cell.reader.receiverOpen = false)))
  | .delivering e => ∃ pre, d.gotEvents = pre ++ [e] ∧
      (d.cell.delivered = pre ∨
        (d.cell.delivered <+: pre ∧ d.cell.reader.receiverOpen = false))
  | _ => d.cell.delivered = d.gotEvents ∨ (d.cell.delivered <+: d.gotEvents ∧ d.Sealed)

/-- The role has an event that is not delivered. -/
def RecvRole.carries : RecvRole → Option RecvEvent
  | arriving e => some e
  | delivering e => some e
  | _ => Option.none

theorem RecvDirection.inOrder_of_carries (hr : r.carries = none) :
    d.InOrder r ↔ d.cell.delivered = d.gotEvents ∨
      (d.cell.delivered <+: d.gotEvents ∧ d.Sealed) := by
  cases r with
  | arriving e => cases hr
  | delivering e => cases hr
  | _ => exact .rfl

/-- What is delivered is a prefix of what was handled. -/
theorem RecvDirection.InOrder.delivered_prefix (h : d.InOrder r) :
    d.cell.delivered <+: d.gotEvents := by
  have hpre : ∀ {pre : List RecvEvent} {x : RecvEvent}, d.gotEvents = pre ++ [x] →
      d.cell.delivered <+: pre → d.cell.delivered <+: d.gotEvents := by
    intro pre x hgot hp
    rw [hgot]
    exact hp.trans (List.prefix_append _ _)
  cases r with
  | arriving x =>
      obtain ⟨pre, hgot, heq | ⟨hp, -⟩⟩ := h
      · exact hpre hgot (heq ▸ List.prefix_refl _)
      · exact hpre hgot hp
  | delivering x =>
      obtain ⟨pre, hgot, heq | ⟨hp, -⟩⟩ := h
      · exact hpre hgot (heq ▸ List.prefix_refl _)
      · exact hpre hgot hp
  | _ =>
      rcases h with heq | ⟨hp, -⟩
      · exact heq ▸ List.prefix_refl _
      · exact hp

/-- A change that delivers nothing and opens nothing again. -/
structure RecvDirection.Seals (d d' : RecvDirection) : Prop where
  got : d'.got = d.got
  delivered : d'.cell.delivered = d.cell.delivered
  registered : d.registered ≤ d'.registered
  stopped : d.cell.stopped = true → d'.cell.stopped = true
  receiver : d.cell.reader.receiverOpen = false → d'.cell.reader.receiverOpen = false
  blocked : d.blocked → d'.blocked

theorem RecvDirection.Seals.sealed (hs : d.Seals d') (h : d.Sealed) : d'.Sealed := by
  rcases h with ⟨hreg, hst | hrx⟩ | hb
  · exact .inl ⟨hreg.trans_le hs.registered, .inl (hs.stopped hst)⟩
  · exact .inl ⟨hreg.trans_le hs.registered, .inr (hs.receiver hrx)⟩
  · exact .inr (hs.blocked hb)

theorem RecvDirection.Seals.inOrder (hs : d.Seals d') (h : d.InOrder r) : d'.InOrder r := by
  have hgot : d'.gotEvents = d.gotEvents := congrArg (List.filterMap event) hs.got
  cases r with
  | arriving x =>
      obtain ⟨pre, hpre, hdel⟩ := h
      refine ⟨pre, hgot.trans hpre, ?_⟩
      rw [hs.delivered]
      refine hdel.imp_right fun ⟨hp, hreg, hc⟩ => ⟨hp, hreg.trans_le hs.registered, ?_⟩
      exact hc.imp hs.stopped hs.receiver
  | delivering x =>
      obtain ⟨pre, hpre, hdel⟩ := h
      refine ⟨pre, hgot.trans hpre, ?_⟩
      rw [hs.delivered]
      exact hdel.imp_right fun ⟨hp, hc⟩ => ⟨hp, hs.receiver hc⟩
  | _ =>
      rcases h with heq | ⟨hp, hsealed⟩
      · exact .inl ((hs.delivered.trans heq).trans hgot.symm)
      · refine .inr ⟨?_, hs.sealed hsealed⟩
        rw [hs.delivered, hgot]
        exact hp

/-- A step registers the stream, delivers an event, or delivers nothing and opens nothing. -/
theorem RecvDirection.Step.seals (hs : d.Step l dead blocked r e r') (hb : d.blocked → blocked) :
    (r = .token ∧ ∃ w, e = .register w) ∨ (∃ x, r = .delivering x ∧ e = .deliver x) ∨
      d.Seals (d.after e dead blocked) := by
  cases hs with
  | register ho => exact .inl ⟨rfl, _, rfl⟩
  | registerPeer => exact .inl ⟨rfl, _, rfl⟩
  | deliver ho => exact .inr (.inl ⟨_, rfl, rfl⟩)
  | read hread hr' =>
      exact .inr (.inr ⟨rfl, rfl, Nat.le_refl _, id, hread.receiverOpen.trans, hb⟩)
  | readGrant hread =>
      exact .inr (.inr ⟨rfl, rfl, Nat.le_refl _, id, hread.receiverOpen.trans, hb⟩)
  | mark ht => exact .inr (.inr ⟨rfl, rfl, Nat.le_refl _, fun _ => rfl, id, hb⟩)
  | dropMark => exact .inr (.inr ⟨rfl, rfl, Nat.le_refl _, fun _ => rfl, id, hb⟩)
  | dropFinished hf hr' => exact .inr (.inr ⟨rfl, rfl, Nat.le_refl _, fun _ => rfl, id, hb⟩)
  | closeReceiver r => exact .inr (.inr ⟨rfl, rfl, Nat.le_refl _, id, fun _ => rfl, hb⟩)
  | _ => exact .inr (.inr ⟨rfl, rfl, Nat.le_refl _, id, id, hb⟩)

/-- The stream is registered: nothing was delivered, and nothing handled before unless no further
frame will be. -/
theorem RecvDirection.InOrder.register (hown : RecvOwner d rs) (hz : d.registered = 0)
    (hb : d.blocked → blocked) (hmem : r ∈ rs) (h : d.InOrder r) (w : Nat) :
    (d.after (.register w) dead blocked).InOrder r := by
  have hcell := (hown.unregistered hz).1
  have hdel : d.cell.delivered = [] := by rw [hcell]
  cases r with
  | arriving x =>
      obtain ⟨pre, hpre, heq | ⟨-, hreg, -⟩⟩ := h
      · exact ⟨pre, hpre, .inl (hdel.symm.trans heq)⟩
      · omega
  | delivering x =>
      have hreg := hown.uses_registered _ hmem rfl
      omega
  | _ =>
      rcases h with heq | ⟨-, ⟨hreg, -⟩ | hblk⟩
      · exact .inl (hdel.symm.trans heq)
      · omega
      · exact .inr ⟨List.nil_prefix, .inr (hb hblk)⟩

/-- The inbound task delivers its frame, or refuses it. -/
theorem RecvDirection.Step.inOrder (hown : RecvOwner d rs) (hi : rs[i]? = some r)
    (hs : d.Step l dead blocked r e r') (hb : d.blocked → blocked) (h : d.InOrder r) :
    (d.after e dead blocked).InOrder r' := by
  have hplain : r.carries = none → r'.carries = none → d.Seals (d.after e dead blocked) →
      (d.after e dead blocked).InOrder r' := by
    intro hr hr' hseal
    exact (RecvDirection.inOrder_of_carries hr').2
      ((RecvDirection.inOrder_of_carries hr).1 (hseal.inOrder h))
  have hafter : ∀ ev, (RecvRole.afterEvent ev).carries = none := by
    intro ev
    rcases RecvRole.afterEvent_cases ev with ⟨-, h⟩ | ⟨-, h⟩ <;> rw [h] <;> rfl
  have hlight : ∀ {q : RecvRole}, q.light = true → q.carries = none := by
    intro q hq
    rcases RecvRole.light_cases hq with rfl | rfl <;> rfl
  rcases hs.seals hb with ⟨rfl, w, rfl⟩ | ⟨x, rfl, rfl⟩ | hseal
  · have hz := hown.unregistered_of_token hi
    have hk : (d.after (.register w) dead blocked).InOrder .token :=
      h.register hown hz hb (List.mem_of_getElem? hi) w
    have hr' : r'.carries = none := by cases hs <;> rfl
    exact (RecvDirection.inOrder_of_carries hr').2 hk
  · cases hs with
    | deliver hopen =>
        -- the receiver is there, so everything before was delivered
        obtain ⟨pre, hpre, heq | ⟨-, hrx⟩⟩ := h
        · refine (RecvDirection.inOrder_of_carries (hafter x)).2 (.inl ?_)
          show d.cell.delivered ++ [x] = d.gotEvents
          rw [heq, hpre]
        · rw [hopen] at hrx
          cases hrx
  · cases hs with
    | stay r => exact hseal.inOrder h
    | advance r below => exact hseal.inOrder h
    | closeReceiver r => exact hseal.inOrder h
    | dropTx r => exact hseal.inOrder h
    | prune r full => exact hseal.inOrder h
    | clear r hd => exact hseal.inOrder h
    | clearCredit r hd => exact hseal.inOrder h
    | @receive x hin hst hm =>
        obtain ⟨pre, hpre, hdel⟩ := h
        refine ⟨pre, hpre, hdel.imp_right fun ⟨hp, _, hc⟩ => ⟨hp, ?_⟩⟩
        rcases hc with hc | hc
        · rw [hst] at hc
          cases hc
        · exact hc
    | @receiveStopped x hin hst hm =>
        have hreg := hown.registered_of_inTable hin
        exact (RecvDirection.inOrder_of_carries (hafter x)).2
          (.inr ⟨h.delivered_prefix, .inl ⟨hreg, .inl hst⟩⟩)
    | refuseData hd hblk => exact .inr ⟨h.delivered_prefix, .inr hblk⟩
    | @deliverClosed x hrx =>
        have hreg := hown.uses_registered _ (List.mem_of_getElem? hi) rfl
        exact (RecvDirection.inOrder_of_carries (hafter x)).2
          (.inr ⟨h.delivered_prefix, .inl ⟨hreg, .inr hrx⟩⟩)
    | deliverFull hd hblk => exact .inr ⟨h.delivered_prefix, .inr hblk⟩
    | deliver hopen =>
        have heq := hseal.delivered
        simp [RecvDirection.after, RecvDirection.apply, RecvDirection.modify] at heq
    | lower hr' => exact hplain rfl (hlight hr') hseal
    | dropFinished hf hr' => exact hplain rfl (hlight hr') hseal
    | dropSkip hst hr' => exact hplain rfl (hlight hr') hseal
    | publishStop hr' => exact hplain rfl (hlight hr') hseal
    | stopFail hd hr' => exact hplain rfl (hlight hr') hseal
    | read hread hr' =>
        exact hplain rfl (by rcases hr' with rfl | rfl <;> rfl) hseal
    | _ => exact hplain rfl rfl hseal

/-- A frame arrives. -/
theorem RecvDirection.Arrives.inOrder {x : SendItem} (hx : RecvDirection.Arrives dead blocked x r')
    (hnb : ¬ d.blocked) (h : d.InOrder .none) :
    RecvDirection.InOrder { d with got := d.got ++ [x], dead := dead, blocked := blocked } r' := by
  cases hx with
  | stream data fin =>
      refine ⟨d.gotEvents, by simp [RecvDirection.gotEvents, RecvDirection.event], ?_⟩
      rcases h with heq | ⟨hp, hsealed | hblk⟩
      · exact .inl heq
      · exact .inr ⟨hp, hsealed⟩
      · exact absurd hblk hnb
  | refuse data fin hd hblk =>
      refine .inr ⟨h.delivered_prefix.trans ?_, .inr hblk⟩
      simp [RecvDirection.gotEvents]
  | reset =>
      have hgot : ({ d with got := d.got ++ [.reset], dead := dead, blocked := blocked } :
          RecvDirection).gotEvents = d.gotEvents := by
        simp [RecvDirection.gotEvents, RecvDirection.event]
      rcases h with heq | ⟨hp, ⟨hreg, hc⟩ | hblk⟩
      · exact .inl (heq.trans hgot.symm)
      · exact .inr ⟨hgot ▸ hp, .inl ⟨hreg, hc⟩⟩
      · exact absurd hblk hnb

/-- **A step of the pool keeps the order of events.** -/
theorem RecvDirection.PoolStep.inOrder (hown : RecvOwner d rs) (hb : d.blocked → blocked)
    (hs : d.PoolStep l rs dead blocked d' rs') (h : ∃ q, rs[0]? = some q ∧ d.InOrder q) :
    ∃ q, rs'[0]? = some q ∧ d'.InOrder q := by
  obtain ⟨q, hq, h⟩ := h
  have hlt := (List.getElem?_eq_some_iff.1 hq).1
  have hkeep : ∀ e, (e = .none ∨ e = .hold false ∨ e = .takeCredit) →
      (d.after e dead blocked).InOrder q := by
    intro e he
    have hseal : d.Seals (d.after e dead blocked) := by
      rcases he with rfl | rfl | rfl <;> exact ⟨rfl, rfl, Nat.le_refl _, id, id, hb⟩
    exact hseal.inOrder h
  have happend : ∀ y, (rs ++ [y])[0]? = some q := fun y => by
    rw [List.getElem?_append_left hlt]
    exact hq
  cases hs with
  | @act i r r' e hi hs =>
      by_cases hi0 : i = 0
      · subst hi0
        cases hi.symm.trans hq
        refine ⟨r', ?_, hs.inOrder hown hi hb h⟩
        rw [List.getElem?_set_self hlt]
      · refine ⟨q, (List.getElem?_set_ne hi0).trans hq, ?_⟩
        rcases hs.seals hb with ⟨rfl, w, rfl⟩ | ⟨x, rfl, rfl⟩ | hseal
        · exact h.register hown (hown.unregistered_of_token hi) hb (List.mem_of_getElem? hq) w
        · exact absurd (hown.arrives_first i _ hi rfl) hi0
        · exact hseal.inOrder h
  | arrive hi hnb hx =>
      cases hi.symm.trans hq
      refine ⟨_, List.getElem?_set_self hlt, hx.inOrder hnb h⟩
  | spawn => exact ⟨q, happend _, hkeep _ (.inl rfl)⟩
  | borrow hr he hh hone =>
      refine ⟨q, happend _, hkeep _ ?_⟩
      exact he.imp_right .inl
  | takeCredit hp => exact ⟨q, hq, hkeep _ (.inr (.inr rfl))⟩
  | idle => exact ⟨q, hq, hkeep _ (.inl rfl)⟩

/-- **The order of events in every run.** -/
theorem inOrder_of_reachable {cfg : Config} {ok : Session → Label → Prop} {s : Session}
    (hr : Reachable (Session.step cfg) ok {} s) (id : StreamId) :
    ∃ q, (recvRoles id s.tasks)[0]? = some q ∧ (s.view.recvDirection cfg id).InOrder q :=
  recv_invariant (P := fun d rs => ∃ q, rs[0]? = some q ∧ d.InOrder q)
    (fun _ _ _ => ⟨.none, rfl, .inl rfl⟩) (fun hown _ hb h hs => hs.inOrder hown hb h) hr id

/-! ## The end of the stream -/

/-- A FIN is the last event that is delivered: behind it the stream leaves the table. -/
structure RecvEnds (d : RecvDirection) (rs : List RecvRole) : Prop where
  fin_last : ∀ x ∈ d.cell.delivered.dropLast, x.fin = false
  delivering : ∀ x, .delivering x ∈ rs → ∀ y ∈ d.cell.delivered, y.fin = false
  removed : (∃ x ∈ d.cell.delivered, x.fin = true) → .ending ∈ rs ∨ d.inTable = false

/-- Nothing of the end of a stream changes. -/
theorem RecvEnds.keep (h : RecvEnds d rs) (hdel : d'.cell.delivered = d.cell.delivered)
    (hin : d.inTable = false → d'.inTable = false)
    (hnew : ∀ x, .delivering x ∈ rs' → .delivering x ∈ rs)
    (hend : .ending ∈ rs → .ending ∈ rs' ∨ d'.inTable = false) : RecvEnds d' rs' := by
  refine ⟨?_, ?_, ?_⟩
  · rw [hdel]
    exact h.fin_last
  · intro x hx
    rw [hdel]
    exact h.delivering x (hnew x hx)
  · rw [hdel]
    intro hfin
    rcases h.removed hfin with he | hi
    · exact hend he
    · exact .inr (hin hi)

/-- Where nothing was delivered, nothing has ended. -/
theorem RecvEnds.of_nil (hdel : d.cell.delivered = []) : RecvEnds d rs := by
  refine ⟨?_, ?_, ?_⟩
  · rw [hdel]
    exact nofun
  · intro x _
    rw [hdel]
    exact nofun
  · rw [hdel]
    rintro ⟨x, hx, -⟩
    cases hx

/-- The frame of the inbound task is checked: the stream is in the table, so that no FIN was
delivered before. -/
theorem RecvEnds.receive (hown : RecvOwner d rs) (h : RecvEnds d rs) {x : RecvEvent}
    (hi : rs[i]? = some (.arriving x)) (hin : d.inTable = true) :
    ∀ y ∈ d.cell.delivered, y.fin = false := by
  intro y hy
  by_contra hfin
  rcases h.removed ⟨y, hy, Bool.eq_true_of_not_eq_false hfin⟩ with hend | hout
  · -- the inbound task has only one frame at a time
    obtain ⟨j, hj⟩ := List.getElem?_of_mem hend
    have h0 := hown.arrives_first i _ hi rfl
    have hj0 := hown.arrives_first j _ hj rfl
    subst h0
    subst hj0
    cases hi.symm.trans hj
  · rw [hin] at hout
    cases hout

/-- **One function acts.** -/
theorem RecvEnds.act (hown : RecvOwner d rs) (h : RecvEnds d rs) (hi : rs[i]? = some r)
    (hs : d.Step l dead blocked r e r') : RecvEnds (d.after e dead blocked) (rs.set i r') := by
  have hlt := (List.getElem?_eq_some_iff.1 hi).1
  -- the inbound task goes on to a role that is not a delivery
  have hnew : ∀ {q : RecvRole}, (∀ x, q ≠ .delivering x) → ∀ x, .delivering x ∈ rs.set i q →
      .delivering x ∈ rs := by
    intro q hq x hx
    rcases List.mem_or_eq_of_mem_set hx with hx | hx
    · exact hx
    · exact absurd hx.symm (hq x)
  have hafter : ∀ ev x, RecvRole.afterEvent ev ≠ .delivering x := by
    intro ev x
    rcases RecvRole.afterEvent_cases ev with ⟨-, h⟩ | ⟨-, h⟩ <;> rw [h] <;> nofun
  have hlight : ∀ {q : RecvRole}, q.light = true → ∀ x, q ≠ .delivering x := by
    intro q hq x
    rcases RecvRole.light_cases hq with rfl | rfl <;> nofun
  have hend : r ≠ .ending → ∀ {q : RecvRole} {P : Prop}, .ending ∈ rs → .ending ∈ rs.set i q ∨ P :=
    fun hr q _ he => .inl (mem_set_of_ne hi he (Ne.symm hr) q)
  -- a step after which the function has the same role
  have hsame : ∀ {d' : RecvDirection}, d'.cell.delivered = d.cell.delivered →
      (d.inTable = false → d'.inTable = false) → RecvEnds d' (rs.set i r) := by
    intro d' hdel hin
    rw [set_same hi]
    exact h.keep hdel hin (fun _ h => h) .inl
  cases hs with
  | stay r => exact hsame rfl id
  | advance r below => exact hsame rfl id
  | closeReceiver r => exact hsame rfl id
  | dropTx r => exact hsame rfl id
  | prune r full => exact hsame rfl id
  | clear r hd => exact hsame rfl fun _ => rfl
  | clearCredit r hd => exact hsame rfl id
  | register ho => exact .of_nil rfl
  | registerPeer => exact .of_nil rfl
  | removeFin => exact h.keep rfl (fun _ => rfl) (hnew nofun) fun _ => .inr rfl
  | resetRemove => exact h.keep rfl (fun _ => rfl) (hnew nofun) (hend nofun)
  | undoRemove hd => exact h.keep rfl (fun _ => rfl) (hnew nofun) (hend nofun)
  | @receive x hin hst hm =>
      have hno := h.receive hown hi hin
      refine ⟨h.fin_last, fun _ _ => hno, ?_⟩
      rintro ⟨y, hy, hfin⟩
      rw [hno y hy] at hfin
      cases hfin
  | @deliver x hopen =>
      have hno := h.delivering x (List.mem_of_getElem? hi)
      refine ⟨?_, ?_, ?_⟩
      · intro y hy
        have hy' : y ∈ (d.cell.delivered ++ [x]).dropLast := hy
        rw [List.dropLast_concat] at hy'
        exact hno y hy'
      · intro y hy
        -- no other function delivers
        obtain ⟨j, hj⟩ := List.getElem?_of_mem hy
        rcases getElem?_set_cases hj with ⟨-, heq⟩ | ⟨hne, hj⟩
        · exact absurd heq.symm (hafter x y)
        · have h0 := hown.arrives_first i _ hi rfl
          exact absurd ((hown.arrives_first j _ hj rfl).trans h0.symm) hne
      · rintro ⟨y, hy, hfin⟩
        rcases List.mem_append.1 hy with hy | hy
        · rw [hno y hy] at hfin
          cases hfin
        · cases List.mem_singleton.1 hy
          refine .inl ?_
          unfold RecvRole.afterEvent
          rw [if_pos hfin]
          exact List.mem_set hlt _
  | receiveStopped => exact h.keep rfl id (hnew (hafter _)) (hend nofun)
  | deliverClosed => exact h.keep rfl id (hnew (hafter _)) (hend nofun)
  | lower hr' => exact h.keep rfl id (hnew (hlight hr')) (hend nofun)
  | dropFinished hf hr' => exact h.keep rfl id (hnew (hlight hr')) (hend nofun)
  | dropSkip hst hr' => exact h.keep rfl id (hnew (hlight hr')) (hend nofun)
  | publishStop hr' => exact h.keep rfl id (hnew (hlight hr')) (hend nofun)
  | stopFail hd hr' => exact h.keep rfl id (hnew (hlight hr')) (hend nofun)
  | read hread hr' =>
      refine h.keep rfl id (hnew ?_) (hend nofun)
      rcases hr' with rfl | rfl <;> nofun
  | _ => exact h.keep rfl id (hnew nofun) (hend nofun)

/-- **The end of the stream in every run.** -/
theorem recvEnds_of_reachable {cfg : Config} {ok : Session → Label → Prop} {s : Session}
    (hr : Reachable (Session.step cfg) ok {} s) (id : StreamId) :
    RecvEnds (s.view.recvDirection cfg id) (recvRoles id s.tasks) := by
  refine recv_invariant (P := RecvEnds) (fun _ _ _ => .of_nil rfl) ?_ hr id
  intro d d' rs rs' dead blocked hown _ _ h hs
  cases hs with
  | act hi hs => exact h.act hown hi hs
  | @arrive x r' hi hnb hx =>
      refine h.keep rfl (fun h => h) ?_ fun he => .inl (mem_set_of_ne hi he nofun _)
      intro y hy
      rcases List.mem_or_eq_of_mem_set hy with hy | rfl
      · exact hy
      · cases hx
  | spawn =>
      refine h.keep rfl (fun h => h) ?_ fun he => .inl (List.mem_append_left _ he)
      intro y hy
      rcases List.mem_append.1 hy with hy | hy
      · exact hy
      · cases List.mem_singleton.1 hy
  | @borrow r e hr he hh hone =>
      refine h.keep ?_ ?_ ?_ fun he => .inl (List.mem_append_left _ he)
      · rcases he with rfl | rfl <;> rfl
      · rcases he with rfl | rfl <;> exact fun h => h
      · intro y hy
        rcases List.mem_append.1 hy with hy | hy
        · exact hy
        · rcases hr with rfl | rfl <;> cases List.mem_singleton.1 hy
  | takeCredit hp => exact h.keep rfl (fun h => h) (fun _ h => h) .inl
  | idle => exact h.keep rfl (fun h => h) (fun _ h => h) .inl

/-! ## The count of received bytes -/

/-- The bytes of a frame that is not yet counted. -/
def RecvRole.uncounted : RecvRole → Nat
  | arriving e => e.data.length
  | _ => 0

/-- The received bytes are those of the handled frames, unless the session ends. -/
structure RecvCounted (d : RecvDirection) (rs : List RecvRole) : Prop where
  le : d.cell.received + total RecvRole.uncounted rs ≤ (eventBytes d.gotEvents).length
  eq : ¬ d.dead → d.cell.received + total RecvRole.uncounted rs = (eventBytes d.gotEvents).length

/-- A step counts the bytes of a frame, or refuses it and ends the session. -/
theorem RecvDirection.Step.counted (hown : RecvOwner d rs) (hi : rs[i]? = some r)
    (hs : d.Step l dead blocked r e r') :
    ((d.apply e).cell.received + r'.uncounted = d.cell.received + r.uncounted) ∨
      (dead ∧ (d.apply e).cell.received + r'.uncounted ≤ d.cell.received + r.uncounted) := by
  have hafter : ∀ ev, (RecvRole.afterEvent ev).uncounted = 0 := by
    intro ev
    rcases RecvRole.afterEvent_cases ev with ⟨-, h⟩ | ⟨-, h⟩ <;> rw [h] <;> rfl
  have hlight : ∀ {q : RecvRole}, q.light = true → q.uncounted = 0 := by
    intro q hq
    rcases RecvRole.light_cases hq with rfl | rfl <;> rfl
  have hfresh : ∀ {q : RecvRole}, rs[i]? = some .token → q.uncounted = 0 →
      0 + q.uncounted = d.cell.received + 0 := by
    intro q htok hq
    rw [(hown.unregistered (hown.unregistered_of_token htok)).1, hq]
  cases hs with
  | register ho => exact .inl (hfresh hi rfl)
  | registerPeer => exact .inl (hfresh hi rfl)
  | receiveStopped hin hst hm =>
      refine .inl ?_
      rw [hafter]
      rfl
  | deliver ho =>
      refine .inl ?_
      rw [hafter]
      rfl
  | deliverClosed ho =>
      refine .inl ?_
      rw [hafter]
      rfl
  | lower hr' => exact .inl (by rw [hlight hr']; rfl)
  | dropFinished hf hr' => exact .inl (by rw [hlight hr']; rfl)
  | dropSkip hst hr' => exact .inl (by rw [hlight hr']; rfl)
  | publishStop hr' => exact .inl (by rw [hlight hr']; rfl)
  | stopFail hd hr' => exact .inl (by rw [hlight hr']; rfl)
  | read hread hr' => exact .inl (by rcases hr' with rfl | rfl <;> rfl)
  | refuseData hd hblk => exact .inr ⟨hd, Nat.add_le_add_left (Nat.zero_le _) _⟩
  | _ => exact .inl rfl

/-- **A step of the pool keeps the count.** -/
theorem RecvCounted.poolStep (hown : RecvOwner d rs) (hdead : d.dead → dead)
    (h : RecvCounted d rs) (hs : d.PoolStep l rs dead blocked d' rs') : RecvCounted d' rs' := by
  cases hs with
  | @act i r r' e hi hs =>
      have ht := total_set (f := RecvRole.uncounted) (y := r') hi
      have hle := h.le
      have hgot : (d.after e dead blocked).gotEvents = d.gotEvents := by cases e <;> rfl
      have hrec : (d.after e dead blocked).cell.received = (d.apply e).cell.received := rfl
      rcases hs.counted hown hi with heq | ⟨hd, hle'⟩
      · refine ⟨?_, fun hnd => ?_⟩
        · rw [hgot, hrec]
          omega
        · have := h.eq fun hd => hnd (hdead hd)
          rw [hgot, hrec]
          omega
      · refine ⟨?_, fun hnd => absurd hd hnd⟩
        rw [hgot, hrec]
        omega
  | @arrive x r' hi hnb hx =>
      have ht := total_set (f := RecvRole.uncounted) (y := r') hi
      have hz : RecvRole.uncounted .none = 0 := rfl
      have hle := h.le
      have heq : ¬ dead → _ := fun hnd => h.eq fun hd => hnd (hdead hd)
      have hgot : (eventBytes ({ d with got := d.got ++ [x], dead := dead, blocked := blocked } :
          RecvDirection).gotEvents).length = (eventBytes d.gotEvents).length + x.bytes.length := by
        simp only [RecvDirection.gotEvents, List.filterMap_append, eventBytes_append,
          List.length_append]
        cases x with
        | stream data fin => simp [RecvDirection.event, eventBytes, SendItem.bytes]
        | reset => rfl
      cases hx with
      | stream data fin =>
          refine ⟨?_, fun hnd => ?_⟩
          · rw [hgot]
            simp only [RecvRole.uncounted, SendItem.bytes] at ht ⊢
            omega
          · have := heq hnd
            rw [hgot]
            simp only [RecvRole.uncounted, SendItem.bytes] at ht ⊢
            omega
      | refuse data fin hd hblk =>
          refine ⟨?_, fun hnd => absurd hd hnd⟩
          rw [hgot]
          dsimp only
          omega
      | reset =>
          have hz' : RecvRole.uncounted .resetArrived = 0 := rfl
          refine ⟨?_, fun hnd => ?_⟩
          · rw [hgot]
            dsimp only [SendItem.bytes]
            omega
          · have := heq hnd
            rw [hgot]
            dsimp only [SendItem.bytes, List.length_nil]
            omega
  | spawn =>
      refine ⟨?_, fun hnd => ?_⟩
      · rw [total_append]
        exact h.le
      · rw [total_append]
        exact h.eq fun hd => hnd (hdead hd)
  | @borrow r e hr he hh hone =>
      have hz : r.uncounted = 0 := by rcases hr with rfl | rfl <;> rfl
      refine ⟨?_, fun hnd => ?_⟩
      · rw [total_append, hz]
        rcases he with rfl | rfl <;> exact h.le
      · rw [total_append, hz]
        rcases he with rfl | rfl <;> exact h.eq fun hd => hnd (hdead hd)
  | takeCredit hp => exact ⟨h.le, fun hnd => h.eq fun hd => hnd (hdead hd)⟩
  | idle => exact ⟨h.le, fun hnd => h.eq fun hd => hnd (hdead hd)⟩

/-- **The count of received bytes in every run.** -/
theorem recvCounted_of_reachable {cfg : Config} {ok : Session → Label → Prop} {s : Session}
    (hr : Reachable (Session.step cfg) ok {} s) (id : StreamId) :
    RecvCounted (s.view.recvDirection cfg id) (recvRoles id s.tasks) :=
  recv_invariant (P := RecvCounted) (fun _ _ _ => ⟨Nat.le_refl _, fun _ => rfl⟩)
    (fun hown hdead _ h hs => h.poolStep hown hdead hs) hr id
end WebsockMux.Native
