import WebsockMux.Native.Handles

/-!
# Streams on their way to the application

A function hands a stream to the application after it has found `closed` unset, or after it has
found the accept queue still with its sender. From then on the stream is promised
(`Task.promises`); before that, a closing session keeps it back. Once `closed` is set and the accept
queues have lost their senders, no promise is made any more (`View.concerns_moves`).
-/

set_option autoImplicit false

namespace WebsockMux.Native

open WebsockMux.Lib WebsockMux.Proto

variable {cfg : Config} {m : Memory} {v v' : View} {who : Option Nat} {b : Bool} {id : StreamId}

/-! ## Streams that the application has or will get

`b` says whether the receive or the send direction of a stream is meant. -/

/-- The direction of a stream that an open hands to the application when its frame is sent. -/
def SendSite.promises (b : Bool) : SendSite → Option StreamId
  | .openUni id => if b then none else some id
  | .openBi id => some id
  | .openCredit id => some id
  | _ => none

/-- The direction that a function will hand to the application: it has found `closed` unset, or the
accept queue still with its sender. -/
def Task.promises (b : Bool) : Task → Option StreamId
  | .anyOf fs (.send s) => if .closed ∈ fs then none else s.promises b
  | .reserve s => s.promises b
  | .publish s => s.promises b
  | .openReturn .uni id => if b then none else some id
  | .openReturn .bi id => some id
  | .holdRecv id => if b then some id else none
  | .holdSend _ id => some id
  | .acceptSend id none => if b then some id else none
  | .acceptSend id (some _) => some id
  | _ => none

/-- A direction in an accept queue. -/
def Accept.queues (x : Accept) (b : Bool) (id : StreamId) : Prop :=
  (b = true ∧ id ∈ x.uni) ∨ ∃ h, (h, id) ∈ x.bi

/-- A direction that the application has or can take from an accept queue. -/
def Memory.offers (m : Memory) (b : Bool) (id : StreamId) : Prop :=
  m.accept.queues b id ∨
    if b then (m.recvs.cell id).reader.held = true else ∃ x ∈ m.handles, x.held = true ∧ x.id = id

theorem Ret.promises_resume (k : Ret) : k.resume.promises b = none := by
  cases k <;> rfl

theorem SendSite.promises_fail (s : SendSite) : (s.resume cfg false).promises b = none := by
  cases s with
  | inboundCredit i bi => cases bi <;> rfl
  | _ => rfl

theorem promises_writeLoop (w : Writer) : (writeLoop cfg w).promises b = none := by
  unfold writeLoop
  split_ifs <;> rfl

/-- What a function hands over after a frame, it had already promised. -/
theorem SendSite.promises_sent {s : SendSite} (h : (s.resume cfg true).promises b = some id) :
    s.promises b = some id := by
  cases s with
  | openUni i => exact h
  | openCredit i => exact h
  | write c =>
      rw [SendSite.resume, promises_writeLoop] at h
      cases h
  | inboundCredit i bi => cases bi <;> cases h
  | _ => cases h

theorem TrySite.promises_resume (s : TrySite) (k : Ret) (ok : Bool) :
    (s.resume k ok).promises b = none := by
  cases s <;> cases ok <;> rfl

/-- Only the check of `send_frame` makes a promise, and only when it finds no flag set. -/
theorem Check.promises_resume {c : Check} {ok : Bool}
    (h : (c.resume cfg ok).promises b = some id) :
    ok = false ∧ ∃ s, c = .send s ∧ s.promises b = some id := by
  cases c with
  | send s =>
      cases ok with
      | false => exact ⟨rfl, s, rfl, h⟩
      | true =>
          rw [Check.resume, SendSite.promises_fail] at h
          cases h
  | trySend s k =>
      cases ok with
      | false => cases h
      | true =>
          rw [Check.resume, TrySite.promises_resume] at h
          cases h
  | writeStart w =>
      cases ok with
      | false =>
          rw [Check.resume, promises_writeLoop] at h
          cases h
      | true => cases h
  | reserveOpen w =>
      cases ok with
      | false => cases h
      | true =>
          simp only [Check.resume, outOfCredit] at h
          split_ifs at h <;> cases h
  | noCredit w =>
      cases ok with
      | false =>
          simp only [Check.resume] at h
          split_ifs at h <;> cases h
      | true => cases h
  | _ => cases ok <;> cases h

/-- Once `closed` is set and both accept queues have lost their sender, a function promises only
what it promised before, or what it takes from an accept queue. -/
theorem Task.promises_next {t t' : Task} {a : Access} (hclosed : m.flags.closed = true)
    (hacc : ∀ bi, m.accept.hasTx bi = false) (hn : t.next cfg m = some (a, t'))
    (hp : t'.promises b = some id) : t.promises b = some id ∨ m.accept.queues b id := by
  replace hn := Task.steps_of_next hn
  -- a flag that is not set is not `closed`
  have hne : ∀ {f : Flag}, ¬ m.flag f = true → Flag.closed ≠ f := by
    rintro f hf rfl
    exact hf hclosed
  induction hn with
  | anyOfNil c =>
      obtain ⟨-, s, rfl, hs⟩ := Check.promises_resume hp
      exact .inl hs
  | anyOfSet f fs c => cases (Check.promises_resume hp).1
  | anyOfLast f c hf =>
      obtain ⟨-, s, rfl, hs⟩ := Check.promises_resume hp
      simp [Task.promises, hne hf, hs]
  | anyOf f fs c hf =>
      cases c with
      | send s =>
          refine .inl ?_
          simp only [Task.promises, List.mem_cons, hne hf, false_or] at hp ⊢
          exact hp
      | _ => cases hp
  | reserveClosed | unpublished =>
      rw [SendSite.promises_fail] at hp
      cases hp
  | reserve s => exact .inl hp
  | publish s => exact .inl (SendSite.promises_sent hp)
  | trySend | trySendFull =>
      rw [TrySite.promises_resume] at hp
      cases hp
  | closeAll c k =>
      cases c with
      | closeFlows =>
          rw [CloseStep.next, Ret.promises_resume] at hp
          cases hp
      | _ => cases hp
  | openReturnBi | holdSend =>
      simp only [Task.promises] at hp
      split_ifs at hp
      exact .inl hp
  | acceptLock i x htx =>
      rw [hacc] at htx
      cases htx
  | acceptUni i rest hq =>
      simp only [Task.promises] at hp
      split_ifs at hp with hb
      cases hp
      exact .inr (.inl ⟨hb, by rw [hq]; exact List.mem_cons_self⟩)
  | acceptBi h i rest hq =>
      cases hp
      exact .inr (.inr ⟨h, by rw [hq]; exact List.mem_cons_self⟩)
  | selectApi c | selectApiSame c => cases c <;> cases hp
  | swapOperation c =>
      cases c <;> simp only [SendCall.body] at hp <;> (try split_ifs at hp) <;> cases hp
  | outOfCredit w =>
      unfold outOfCredit at hp
      split_ifs at hp <;> cases hp
  | casSent w sent max =>
      unfold granted at hp
      split_ifs at hp <;> cases hp
  | cancel | closeAllAgain | releaseHandle | closeReceiver | dropTx | acceptLockGone
  | acceptClosed =>
      rw [Ret.promises_resume] at hp
      cases hp
  | _ => contradiction

/-- An access gives the application a direction, or puts it into an accept queue. -/
def Access.Hands (m : Memory) (b : Bool) (id : StreamId) : Access → Prop
  | .accept (.push i none) => b = true ∧ i = id
  | .accept (.push i (some _)) => i = id
  | .recv (.hold i on) => b = true ∧ on = true ∧ i = id
  | .recv (.read i r _) => b = true ∧ r.held = true ∧ i = id
  | .handle (.new i held) => b = false ∧ held = true ∧ i = id
  | .handle (.hold h on) => b = false ∧ on = true ∧ SendHandle.Is m.handles h id
  | _ => False

theorem Accept.queues_apply {x : Accept} {a : AcceptAccess} (h : (x.apply a).queues b id) :
    x.queues b id ∨ (b = true ∧ a = .push id none) ∨ ∃ k, a = .push id (some k) := by
  rcases h with ⟨hb, h⟩ | ⟨k, h⟩
  · rcases Accept.mem_uni_apply h with h | rfl
    · exact .inl (.inl ⟨hb, h⟩)
    · exact .inr (.inl ⟨hb, rfl⟩)
  · rcases Accept.mem_bi_apply h with h | rfl
    · exact .inl (.inr ⟨k, h⟩)
    · exact .inr (.inr ⟨k, rfl⟩)

/-- A handle that the application has after an access. -/
theorem SendHandle.held_apply {hs : List SendHandle} {n : Nat} {a : HandleAccess} {x : SendHandle}
    (hx : x ∈ SendHandle.apply hs n a) (hheld : x.held = true) :
    (∃ y ∈ hs, y.held = true ∧ y.id = x.id) ∨ a = .new x.id true ∨
      ∃ h, a = .hold h true ∧ SendHandle.Is hs h x.id := by
  have hmod : ∀ {i : Nat} {g : SendHandle → SendHandle}, x ∈ hs.modify i g →
      x ∈ hs ∨ ∃ y, hs[i]? = some y ∧ x = g y := by
    intro i g hx
    obtain ⟨j, hj⟩ := List.mem_iff_getElem?.1 hx
    rw [List.getElem?_modify] at hj
    obtain ⟨y, hy, rfl⟩ := Option.map_eq_some_iff.1 hj
    split_ifs with hij
    · exact .inr ⟨y, hij ▸ hy, rfl⟩
    · exact .inl (List.mem_of_getElem? hy)
  cases a with
  | new i held =>
      rcases List.mem_append.1 hx with hx | hx
      · exact .inl ⟨x, hx, hheld, rfl⟩
      · cases List.mem_singleton.1 hx
        cases hheld
        exact .inr (.inl rfl)
  | hold h on =>
      rcases hmod hx with hx | ⟨y, hy, rfl⟩
      · exact .inl ⟨x, hx, hheld, rfl⟩
      · cases hheld
        exact .inr (.inr ⟨h, rfl, y, hy, rfl⟩)
  | _ =>
      rcases hmod hx with hx | ⟨y, hy, rfl⟩
      · exact .inl ⟨x, hx, hheld, rfl⟩
      · exact .inl ⟨y, List.mem_of_getElem? hy, hheld, rfl⟩

theorem RecvTable.held_apply {s : RecvTable} {a : RecvAccess}
    (h : ((s.apply a).cell id).reader.held = true) :
    (s.cell id).reader.held = true ∨ a = .hold id true ∨
      ∃ r events, a = .read id r events ∧ r.held = true := by
  by_cases hcell : (s.apply a).cell id = s.cell id
  · rw [hcell] at h
    exact .inl h
  · cases a with
    | register i w =>
        simp only [RecvTable.apply, RecvTable.register, Function.update_apply] at h hcell
        by_cases hi : id = i
        · rw [if_pos hi] at h
          cases h
        · rw [if_neg hi] at hcell
          exact absurd rfl hcell
    | remove i => exact .inl h
    | clear => exact .inl h
    | clearCredit => exact .inl h
    | prune n => exact .inl h
    | _ =>
        -- every other access changes the cell of its own stream only
        simp only [RecvTable.apply, RecvTable.stopRecvStream, RecvTable.queueCredit,
          RecvTable.modify, Function.update_apply] at h hcell
        split_ifs at h hcell with hi
        all_goals first
          | exact absurd rfl hcell
          | subst hi
            first
            | exact .inl h
            | cases h
              exact .inr (.inl rfl)
            | exact .inr (.inr ⟨_, _, rfl, h⟩)

/-- What the application has after an access, it had before or the access gives it. -/
theorem Memory.offers_apply {a : Access} (h : (m.apply a).offers b id) :
    m.offers b id ∨ a.Hands m b id := by
  cases a with
  | accept x =>
      rcases h with h | h
      · rcases Accept.queues_apply h with h | ⟨hb, rfl⟩ | ⟨k, rfl⟩
        · exact .inl (.inl h)
        · exact .inr ⟨hb, rfl⟩
        · exact .inr rfl
      · exact .inl (.inr h)
  | recv x =>
      rcases h with h | h
      · exact .inl (.inl h)
      · cases b with
        | false => exact .inl (.inr h)
        | true =>
            rcases RecvTable.held_apply h with h | rfl | ⟨r, events, rfl, hr⟩
            · exact .inl (.inr h)
            · exact .inr ⟨rfl, rfl, rfl⟩
            · exact .inr ⟨rfl, hr, rfl⟩
  | handle x =>
      rcases h with h | h
      · exact .inl (.inl h)
      · cases b with
        | true => exact .inl (.inr h)
        | false =>
            obtain ⟨y, hy, hheld, rfl⟩ := h
            rcases SendHandle.held_apply hy hheld with h | rfl | ⟨k, rfl, h⟩
            · exact .inl (.inr h)
            · exact .inr ⟨rfl, rfl, rfl⟩
            · exact .inr ⟨rfl, rfl, h⟩
  | session clone => cases clone <;> exact .inl h
  | _ => exact .inl h

theorem SendHandle.Is.unique {hs : List SendHandle} {h : Nat} {i : StreamId}
    (hi : SendHandle.Is hs h i) (hid : SendHandle.Is hs h id) : i = id := by
  obtain ⟨x, hx, rfl⟩ := hi
  obtain ⟨y, hy, rfl⟩ := hid
  rw [hx] at hy
  cases hy
  rfl

/-- A function gives the application only what it promised. -/
theorem Task.hands_next {t t' : Task} {a : Access} (hnm : t.Named m.handles)
    (hn : t.next cfg m = some (a, t')) (hh : a.Hands m b id) :
    t.promises b = some id ∨ m.offers b id := by
  replace hn := Task.steps_of_next hn
  -- a read keeps `held`
  have hread : ∀ {i : StreamId} {api : ReadApi} {n : Nat} {r : RecvStream}
      {events : List RecvEvent} {target : Option Nat},
      RecvStream.outcome ((m.recvs.cell i).reader.poll cfg.limits (m.recvs.hasSender i) api n
        (m.recvs.cell i).events) = some (r, events, target) →
      (Access.recv (.read i r events)).Hands m b id → m.offers b id := by
    rintro i api n r events target hout ⟨rfl, hheld, rfl⟩
    obtain ⟨taken, hr⟩ := RecvStream.reads_of_poll hout
    exact .inr (hr.held.symm.trans hheld)
  induction hn with
  | openReturnUni i | openReturnBi i | holdRecv i =>
      obtain ⟨rfl, -, rfl⟩ := hh
      exact .inl rfl
  | newSend i => cases hh.2.1
  | holdSend h i => exact .inl (congrArg some (SendHandle.Is.unique hnm hh.2.2))
  | acceptSend i x =>
      cases x with
      | none =>
          obtain ⟨rfl, rfl⟩ := hh
          exact .inl rfl
      | some h =>
          cases hh
          exact .inl rfl
  | readReturn i api n r events hp | readAgain i api n r events hp
  | readGrant i api n r events target hp => exact .inr (hread (by rw [hp]; rfl) hh)
  | closeAll c k => cases c <;> cases hh
  | _ => cases hh

/-! ## Streams of a run -/

/-- The application has the direction, or some function will hand it over. -/
def View.concerns (v : View) (b : Bool) (id : StreamId) : Prop :=
  v.mem.offers b id ∨ ∃ t ∈ v.tasks, t.promises b = some id

theorem SendSite.uses_of_promises {s : SendSite} (h : s.promises false = some id) :
    (s.sendRole id).uses = true := by
  cases s <;> cases h <;> simp [SendSite.sendRole, SendRole.on, SendRole.uses]

theorem SendSite.recvUses_of_promises {s : SendSite} (h : s.promises true = some id) :
    (s.recvRole id).uses = true := by
  cases s <;> cases h <;> simp [SendSite.recvRole, RecvRole.on, RecvRole.uses, RecvRole.owns]

/-- A function that promises a send direction refers to it. -/
theorem Task.uses_of_promises {t : Task} (h : t.promises false = some id) :
    (t.sendRole id).uses = true := by
  cases t with
  | anyOf flags c =>
      cases c with
      | send s =>
          simp only [Task.promises] at h
          split_ifs at h
          exact SendSite.uses_of_promises h
      | _ => cases h
  | reserve s => exact SendSite.uses_of_promises h
  | publish s => exact SendSite.uses_of_promises h
  | openReturn dir i => cases dir <;> cases h <;> simp [Task.sendRole, SendRole.on, SendRole.uses]
  | holdSend k i =>
      cases h
      simp [Task.sendRole, SendRole.on, SendRole.uses]
  | acceptSend i x =>
      cases x <;> cases h
      simp [Task.sendRole, SendRole.on, SendRole.uses]
  | _ => cases h

/-- A function that promises a receive direction refers to it. -/
theorem Task.recvUses_of_promises {t : Task} (h : t.promises true = some id) :
    (t.recvRole id).uses = true := by
  cases t with
  | anyOf flags c =>
      cases c with
      | send s =>
          simp only [Task.promises] at h
          split_ifs at h
          exact SendSite.recvUses_of_promises h
      | _ => cases h
  | reserve s => exact SendSite.recvUses_of_promises h
  | publish s => exact SendSite.recvUses_of_promises h
  | openReturn dir i =>
      cases dir <;> cases h
      simp [Task.recvRole, RecvRole.on, RecvRole.uses, RecvRole.owns]
  | holdRecv i =>
      cases h
      simp [Task.recvRole, RecvRole.on, RecvRole.uses, RecvRole.owns]
  | holdSend k i =>
      cases h
      simp [Task.recvRole, RecvRole.on, RecvRole.uses, RecvRole.owns]
  | acceptSend i x =>
      cases x <;> cases h <;> simp [Task.recvRole, RecvRole.on, RecvRole.uses, RecvRole.owns]
  | _ => cases h

section Run

variable {ok : Session → Label → Prop} {s s' : Session} {l : Label}

/-- What the application has, or will get, was registered. -/
theorem send_registered_of_concerns (hr : Reachable (Session.step cfg) ok {} s)
    (h : s.view.concerns false id) : 0 < (s.mem.sendDirection cfg id).registered := by
  have hinv := sendsInv_of_reachable hr
  rcases h with (h | h) | ⟨t, ht, hp⟩
  · rcases h with ⟨h, -⟩ | ⟨k, hk⟩
    · cases h
    · exact List.count_pos_iff.2 (hinv.shared.accept _ hk)
  · obtain ⟨x, hx, -, rfl⟩ := h
    exact List.count_pos_iff.2 (hinv.shared.handles x hx)
  · exact (hinv.send id).uses_registered _ (List.mem_map_of_mem (f := Task.sendRole id) ht)
      (Task.uses_of_promises hp)

theorem recv_registered_of_concerns (hr : Reachable (Session.step cfg) ok {} s)
    (h : s.view.concerns true id) : 0 < (s.view.recvDirection cfg id).registered := by
  have hinv := recvsInv_of_reachable hr
  rcases h with (h | h) | ⟨t, ht, hp⟩
  · rcases h with ⟨-, h⟩ | ⟨k, hk⟩
    · exact List.count_pos_iff.2 (hinv.shared.uni _ h).1
    · exact List.count_pos_iff.2 (hinv.shared.bi _ hk).1
  · exact (hinv.owner id).registered_of_held h
  · exact (hinv.owner id).uses_registered _ (List.mem_map_of_mem (f := Task.recvRole id) ht)
      (Task.recvUses_of_promises hp)

end Run

theorem Task.promises_cancelled {t t' : Task} (h : t.cancelled = some t') :
    t'.promises b = none := by
  cases t with
  | reserve s => cases s <;> cases h <;> rfl
  | _ => cases h <;> rfl

theorem Task.promises_timedOut {t t' : Task} (h : t.timedOut = some t') :
    t'.promises b = none := by
  cases t <;> cases h <;> rfl

theorem Task.promises_aborted {t t' : Task} (h : t.aborted = some t') : t'.promises b = none := by
  cases t with
  | reserve s => cases s <;> cases h <;> rfl
  | acceptLock i x =>
      cases h
      exact Ret.promises_resume _
  | closeAll c k => cases c <;> cases h <;> exact k.promises_resume
  | _ => cases h

theorem Turn.promises {t t' : Task} {fs : List Frame} {c : Bool} (h : Turn cfg v t t' fs c) :
    t'.promises b = none := by
  cases h with
  | @frame f hl hf =>
      cases f <;> simp only [handleFrame] <;> (try split_ifs) <;> rfl
  | _ => rfl

/-- A call makes no promise, and a clone gives the application a stream that it has already. -/
theorem Call.promises_start {c : Call} {u : Use} {a : Access} {t : Task}
    (h : c.start m = some (u, a, t)) :
    t.promises b = none ∧ (a.Hands m b id → m.offers b id) := by
  cases Call.starts_of_start h with
  | @cloneSend k x hx hheld =>
      refine ⟨rfl, ?_⟩
      rintro ⟨rfl, -, rfl⟩
      exact .inr ⟨x, List.mem_of_getElem? hx, hheld, rfl⟩
  | dropSend hx hheld => exact ⟨rfl, fun hh => (by cases hh.2.1)⟩
  | dropRecv hheld => exact ⟨rfl, fun hh => (by cases hh.2.1)⟩
  | _ => exact ⟨rfl, nofun⟩

/-- Once `closed` is set and the accept queues have lost their senders, no further stream reaches the
application. -/
theorem View.concerns_moves (hnm : HandleNames v) (hclosed : v.mem.flags.closed = true)
    (hacc : ∀ bi, v.mem.accept.hasTx bi = false) (hm : Moves cfg v who v')
    (h : v'.concerns b id) : v.concerns b id := by
  -- a function that promises nothing takes the place of another one
  have hset : ∀ {i : Nat} {t' : Task}, t'.promises b = none →
      (∃ t ∈ v.tasks.set i t', t.promises b = some id) →
      ∃ t ∈ v.tasks, t.promises b = some id := by
    rintro i t' ht' ⟨t, ht, hp⟩
    rcases List.mem_or_eq_of_mem_set ht with ht | rfl
    · exact ⟨t, ht, hp⟩
    · rw [ht'] at hp
      cases hp
  cases hm with
  | @next i t t' a hi hn =>
      have hmem := List.mem_of_getElem? hi
      have hprom : t.promises b = some id ∨ v.mem.offers b id → v.concerns b id := by
        rintro (hp | ho)
        · exact .inr ⟨t, hmem, hp⟩
        · exact .inl ho
      rcases h with h | ⟨u, hu, hp⟩
      · rcases Memory.offers_apply h with h | hh
        · exact .inl h
        · exact hprom (Task.hands_next (hnm.tasks t hmem) hn hh)
      · rcases List.mem_or_eq_of_mem_set hu with hu | rfl
        · exact .inr ⟨u, hu, hp⟩
        · rcases Task.promises_next hclosed hacc hn hp with hp | hq
          · exact .inr ⟨t, hmem, hp⟩
          · exact .inl (.inl hq)
  | cancel hi hc => exact h.imp_right (hset (Task.promises_cancelled hc))
  | timeout hi hc => exact h.imp_right (hset (Task.promises_timedOut hc))
  | abort hi ha => exact h.imp_right (hset (Task.promises_aborted ha))
  | turn hi ht => exact h.imp_right (hset ht.promises)
  | exit hi =>
      rcases h with h | h
      · exact .inl h
      · exact .inr (hset rfl h)
  | @spawn who c u a t hc =>
      rcases h with h | ⟨t, ht, hp⟩
      · rcases Memory.offers_apply h with h | hh
        · exact .inl h
        · exact .inl ((Call.promises_start hc).2 hh)
      · rcases List.mem_append.1 ht with ht | ht
        · exact .inr ⟨t, ht, hp⟩
        · cases List.mem_singleton.1 ht
          have hst : _ ∧ (a.Hands v.mem b id → _) := Call.promises_start hc
          rw [hst.1] at hp
          cases hp
  | loop ha hb =>
      rcases h with h | h
      · rcases Memory.offers_apply h with h | hh
        · exact .inl h
        · cases ha <;> cases hh
      · exact .inr h

end WebsockMux.Native
