import WebsockMux.Native.OpenStreams
import WebsockMux.Native.Window

/-!
# Flow control of a receive stream

The two parties of a receive direction keep one account: the inbound task adds what it receives, the
reader what it consumes, and the reader moves the limit. Whatever the peer sends, the limit is never
more than one window ahead of what was consumed, and while the stream lasts it is less than one
update threshold behind that (`receive_window`).

New limits go to the outbound task through `pending_credit`. A later limit overwrites an earlier
one, and the table is pruned when it is full; still no limit is lost and none is overtaken
(`coalesced_credit`). A read may find the pruned table full only when `open_bi` has registered more
streams than the limit allows (`reading_overflows`).
-/

set_option autoImplicit false

namespace WebsockMux.Native

open WebsockMux.Lib WebsockMux.Proto

/-! ## The account -/

/-- The account of a receive direction: what is received stays within the limit, and the limit that
the reader has granted within one window of what it has consumed. -/
structure RecvAccount (l : Limits) (d : RecvDirection) : Prop where
  consumed_lt : d.cell.reader.consumed < 2 ^ 64
  granted_le : d.cell.reader.granted ≤ d.cell.reader.consumed + l.initialStreamWindow
  received_le : d.cell.received ≤ d.cell.maxData

section Account

variable {l : Limits} {d d' : RecvDirection} {rs rs' : List RecvRole} {i : Nat} {r r' : RecvRole}
  {e : RecvChange} {dead blocked : Prop}

theorem RecvAccount.initial (l : Limits) (own : Bool) (dead blocked : Prop) :
    RecvAccount l (.initial own dead blocked) where
  consumed_lt := Nat.two_pow_pos 64
  granted_le := Nat.zero_le _
  received_le := Nat.le_refl _

/-- A read keeps the account. -/
theorem RecvAccount.read (h : RecvAccount l d) {reader : RecvStream}
    {events taken : List RecvEvent} {target : Option Nat}
    (hread : RecvStream.Reads l d.hasSender d.cell.reader d.cell.events reader events taken target) :
    RecvAccount l (d.after (.read reader events) dead blocked) := by
  obtain ⟨hmono, hlt⟩ := hread.consumed_mono h.consumed_lt
  refine ⟨hlt, ?_, h.received_le⟩
  show reader.granted ≤ reader.consumed + l.initialStreamWindow
  rw [hread.granted]
  cases ht : target with
  | none => exact h.granted_le.trans (Nat.add_le_add_right hmono _)
  | some t => exact hread.target_le t ht

/-- **The limit never decreases.** Registration makes the cell afresh, but happens once. -/
theorem RecvDirection.Step.maxData_le (hown : RecvOwner d rs) (hwin : RecvWindow l d rs)
    (hi : rs[i]? = some r) (hs : d.Step l dead blocked r e r') :
    d.cell.maxData ≤ (d.apply e).cell.maxData := by
  have hfresh : rs[i]? = some .token → d.cell.maxData ≤ l.initialStreamWindow := by
    intro hi
    rw [(hown.unregistered (hown.unregistered_of_token hi)).1]
    exact Nat.zero_le _
  cases hs with
  | register ho => exact hfresh hi
  | registerPeer => exact hfresh hi
  | @storeMax target =>
      have ht := hwin.storing target (List.mem_of_getElem? hi)
      show d.cell.maxData ≤ target
      rw [ht]
      exact hwin.granted
  | _ => exact Nat.le_refl _

theorem RecvDirection.PoolStep.maxData_le (hown : RecvOwner d rs) (hwin : RecvWindow l d rs)
    (hs : d.PoolStep l rs dead blocked d' rs') : d.cell.maxData ≤ d'.cell.maxData := by
  cases hs with
  | act hi hs => exact hs.maxData_le hown hwin hi
  | borrow hr he hh hone => rcases he with rfl | rfl <;> exact Nat.le_refl _
  | _ => exact Nat.le_refl _

/-- **A step of the pool keeps the account.** -/
theorem RecvAccount.poolStep (hown : RecvOwner d rs) (hwin : RecvWindow l d rs)
    (h : RecvAccount l d) (hs : d.PoolStep l rs dead blocked d' rs') : RecvAccount l d' := by
  have hfresh : RecvAccount l (d.after (.register l.initialStreamWindow) dead blocked) :=
    ⟨Nat.two_pow_pos 64, Nat.le_add_left _ _, Nat.zero_le _⟩
  cases hs with
  | act hi hs =>
      have hmax := hs.maxData_le hown hwin hi
      cases hs with
      | register ho => exact hfresh
      | registerPeer => exact hfresh
      | read hread hr' => exact h.read hread
      | readGrant hread => exact h.read hread
      | storeMax => exact { h with received_le := h.received_le.trans hmax }
      | receive ht hst hm => exact { h with received_le := hm }
      | receiveStopped ht hst hm => exact { h with received_le := hm }
      | _ => exact { h with }
  | borrow hr he hh hone => rcases he with rfl | rfl <;> exact { h with }
  | _ => exact { h with }

end Account

variable {cfg : Config} {s s' : Session} {ok : Session → Label → Prop} {id : StreamId}

/-- **The account in every run.** -/
theorem recvAccount_of_reachable (hw : cfg.limits.initialStreamWindow ≤ VarInt.max)
    (hr : Reachable (Session.step cfg) ok {} s) (id : StreamId) :
    RecvAccount cfg.limits (s.view.recvDirection cfg id) := by
  refine (recv_invariant
    (P := fun d rs => RecvWindow cfg.limits d rs ∧ RecvAccount cfg.limits d) ?_ ?_ hr id).2
  · intro own dead blocked
    exact ⟨RecvWindow.initial_state cfg.limits own dead blocked, .initial _ _ _ _⟩
  · intro d d' rs rs' dead blocked hown _ _ h hs
    exact ⟨h.1.poolStep hw hown hs, h.2.poolStep hown h.1 hs⟩

/-- A step of a run does not lower the limit of a receive stream. -/
theorem maxData_le_of_step (hw : cfg.limits.initialStreamWindow ≤ VarInt.max)
    (hr : Reachable (Session.step cfg) ok {} s) {l : Label} (hok : ok s l)
    (hs : s.step cfg l = some s') (id : StreamId) :
    (s.mem.recvs.cell id).maxData ≤ (s'.mem.recvs.cell id).maxData :=
  (recvPoolStep_of_step hr hok hs id).maxData_le ((recvsInv_of_reachable hr).owner id)
    (recvWindow_of_reachable hw hr id)

/-- The functions of a reader that has a limit to store or to queue. -/
theorem Task.eq_of_grants {t : Task} {target : Nat} (h : (t.recvRole id).grants = some target) :
    (t.recvRole id = .storing target ∧ t = .storeMax id target) ∨
      (t.recvRole id = .queueing target ∧ t = .queueCredit id target) := by
  have hreads : t.reads id = 1 := by
    rw [← t.readers_recvRole id]
    cases hr : t.recvRole id with
    | storing t => rfl
    | queueing t => rfl
    | _ =>
        rw [hr] at h
        cases h
  have hof : t.readsOf = some id := by
    unfold Task.reads at hreads
    split_ifs at hreads with hof
    exact hof
  cases t with
  | read i api n =>
      cases hof
      simp [Task.recvRole, RecvRole.on, RecvRole.grants] at h
  | storeMax i t =>
      cases hof
      have ht : t = target := by simpa [Task.recvRole, RecvRole.on, RecvRole.grants] using h
      subst ht
      exact .inl ⟨by simp [Task.recvRole, RecvRole.on], rfl⟩
  | queueCredit i t =>
      cases hof
      have ht : t = target := by simpa [Task.recvRole, RecvRole.on, RecvRole.grants] using h
      subst ht
      exact .inr ⟨by simp [Task.recvRole, RecvRole.on], rfl⟩
  | _ => cases hof

theorem Task.storing_mem {ts : List Task} {target : Nat}
    (h : .storing target ∈ recvRoles id ts) : Task.storeMax id target ∈ ts := by
  obtain ⟨t, ht, hrole⟩ := List.mem_map.1 h
  have hg : (t.recvRole id).grants = some target := by
    rw [hrole]
    rfl
  rcases Task.eq_of_grants hg with ⟨-, rfl⟩ | ⟨hq, -⟩
  · exact ht
  · rw [hrole] at hq
    cases hq

theorem Task.queueing_getElem? {ts : List Task} {i target : Nat}
    (h : (recvRoles id ts)[i]? = some (.queueing target)) :
    ts[i]? = some (.queueCredit id target) := by
  unfold recvRoles at h
  rw [List.getElem?_map] at h
  obtain ⟨t, ht, hrole⟩ := Option.map_eq_some_iff.1 h
  have hg : (t.recvRole id).grants = some target := by
    rw [hrole]
    rfl
  rcases Task.eq_of_grants hg with ⟨hs, -⟩ | ⟨-, rfl⟩
  · rw [hrole] at hs
    cases hs
  · exact ht

/-- **The receive window, against any peer.** In every state of every run with validated limits: no
more is received than the limit allows; the limit is the one that the reader granted (while a read
is between its two stores, it has still to store that one) and no step lowers it; the granted limit
is at most one window ahead of what was consumed, so at most one window of bytes is received and not
consumed; and while the reader has neither seen the end nor stopped the stream, the limit is less
than one update threshold behind that. -/
theorem receive_window (hl : cfg.limits.validate = .ok ())
    (hr : Reachable (Session.step cfg) anyStep {} s) (id : StreamId) :
    let c := s.mem.recvs.cell id
    let window := cfg.limits.initialStreamWindow
    let threshold := cfg.limits.streamWindowUpdateThreshold
    c.received ≤ c.maxData ∧
      (c.maxData = c.reader.granted ∨ .storeMax id c.reader.granted ∈ s.tasks) ∧
      (∀ l s', s.step cfg l = some s' → c.maxData ≤ (s'.mem.recvs.cell id).maxData) ∧
      c.reader.granted ≤ min (c.reader.consumed + window) VarInt.max ∧
      c.received ≤ c.reader.consumed + window ∧
      (id ∈ s.mem.recvs.registered → c.reader.finished = false → c.reader.stopSent = false →
        c.reader.consumed + window ≤ VarInt.max →
        c.reader.consumed + window - threshold < c.reader.granted ∧
          c.reader.consumed ≤ c.reader.consumed + window - threshold) := by
  intro c window threshold
  have hv := (Limits.validate_iff _).1 hl
  have hwin := recvWindow_of_reachable hv.window_le hr id
  have hacc := recvAccount_of_reachable hv.window_le hr id
  have hgranted := hwin.granted
  refine ⟨hacc.received_le, ?_, fun l s' hs => maxData_le_of_step hv.window_le hr trivial hs id,
    Nat.le_min.2 ⟨hacc.granted_le, hwin.granted_le⟩,
    hacc.received_le.trans (hgranted.trans hacc.granted_le), ?_⟩
  · rcases hwin.stored with hst | ⟨t, ht⟩
    · exact .inl hst
    · right
      rw [hwin.storing t ht] at ht
      exact Task.storing_mem ht
  · intro hreg hfin hstop hle
    have hup := (recvPublished_of_reachable hv hr id).upToDate (List.count_pos_iff.2 hreg)
    rcases hup with hup | hup | hup
    · exact absurd (hfin.symm.trans hup) Bool.false_ne_true
    · exact absurd (hstop.symm.trans hup) Bool.false_ne_true
    · have hlt : min (Limits.saturatingAdd c.reader.consumed window) VarInt.max <
          c.reader.granted + threshold := hup
      rw [Limits.saturatingAdd_of_le hle, Nat.min_eq_left hle] at hlt
      have hthreshold : threshold ≤ window := hv.threshold_le
      omega

/-- A window of four bytes with a threshold of two: the peer opens a stream and sends two bytes, and
the application reads them. -/
theorem receive_window_run :
    ∃ s, Reachable (Session.step ⟨false, { initialStreamWindow := 4, streamWindowUpdateThreshold := 2 }⟩)
        anyStep {} s ∧
      (s.mem.recvs.cell ⟨3⟩).reader.consumed = 2 ∧ (s.mem.recvs.cell ⟨3⟩).reader.granted = 6 ∧
      2 + 4 - 2 < 6 := by
  obtain ⟨s, hr, hcons, hgr, hreg, hfin, hstop⟩ : ∃ s, Reachable (Session.step
      ⟨false, { initialStreamWindow := 4, streamWindowUpdateThreshold := 2 }⟩) anyStep {} s ∧
      (s.mem.recvs.cell ⟨3⟩).reader.consumed = 2 ∧ (s.mem.recvs.cell ⟨3⟩).reader.granted = 6 ∧
      ⟨3⟩ ∈ s.mem.recvs.registered ∧ (s.mem.recvs.cell ⟨3⟩).reader.finished = false ∧
      (s.mem.recvs.cell ⟨3⟩).reader.stopSent = false :=
    Reachable.exists_of_run (List.flatten [[.receive (.binary [0, 3, 2, 3, 0, 2, 7, 7])],
      List.replicate 15 .inbound, [.call (.accept false), .op 0, .op 0,
      .call (.read ⟨3⟩ .read 8), .op 1, .op 1, .op 1]]) (by decide +kernel)
  have h := (receive_window (by decide) hr ⟨3⟩).2.2.2.2.2 hreg hfin hstop
  rw [hcons, hgr] at h
  exact ⟨s, hr, hcons, hgr, (h (by decide)).1⟩

/-! ## Coalesced credit -/

/-- The entries of `pending_credit` grow: what is taken is larger than what was taken before, and a
limit that the reader has still to queue is larger than all of it. -/
structure RecvCredits (d : RecvDirection) (rs : List RecvRole) : Prop where
  increasing : d.cell.credits.Pairwise (· < ·)
  pending : d.pending = true → ∀ c ∈ d.cell.credits, c < d.cell.credit
  granting : ∀ r ∈ rs, ∀ t, r.grants = some t →
    (∀ c ∈ d.cell.credits, c < t) ∧ (d.pending = true → d.cell.credit < t)

section Credits

variable {l : Limits} {d d' : RecvDirection} {rs rs' : List RecvRole} {i : Nat} {r r' : RecvRole}
  {e : RecvChange} {dead blocked : Prop}

theorem RecvCredits.initial (own : Bool) (dead blocked : Prop) :
    RecvCredits (.initial own dead blocked) [.none, .none] where
  increasing := .nil
  pending := nofun
  granting := by simp [RecvRole.grants]

/-- A step that does not touch the credits. -/
theorem RecvCredits.quiet (h : RecvCredits d rs) (hcr : d'.cell.credits = d.cell.credits)
    (hc : d'.cell.credit = d.cell.credit) (hp : d'.pending = true → d.pending = true)
    (hrs : ∀ r ∈ rs', r.grants ≠ none → r ∈ rs) : RecvCredits d' rs' := by
  constructor
  · rw [hcr]
    exact h.increasing
  · rw [hcr, hc]
    exact fun hpend => h.pending (hp hpend)
  · intro r hr t ht
    have hold := h.granting r (hrs r hr (by rw [ht]; nofun)) t ht
    rw [hcr, hc]
    exact ⟨hold.1, fun hpend => hold.2 (hp hpend)⟩

/-- The roles with a limit, when a role becomes one without. -/
theorem mem_of_mem_set_grants (hr' : r'.grants = none) :
    ∀ q ∈ rs.set i r', q.grants ≠ none → q ∈ rs := by
  intro q hq hg
  rcases List.mem_or_eq_of_mem_set hq with hq | rfl
  · exact hq
  · exact absurd hr' hg

/-- The stream is registered: nothing was announced before. -/
theorem RecvCredits.register (hown : RecvOwner d rs) (hi : rs[i]? = some .token)
    (hr' : r'.grants = none) (w : Nat) :
    RecvCredits (d.after (.register w) dead blocked) (rs.set i r') := by
  have hz := hown.unregistered_of_token hi
  refine ⟨.nil, fun _ => nofun, ?_⟩
  intro q hq t ht
  have hmem : q ∈ rs := mem_of_mem_set_grants hr' q hq (by rw [ht]; nofun)
  have huse : q.uses = true := by
    cases q with
    | storing t => rfl
    | queueing t => rfl
    | _ => cases ht
  have hpos := hown.uses_registered q hmem huse
  omega

/-- One function acts. -/
theorem RecvCredits.act (hown : RecvOwner d rs) (hwin : RecvWindow l d rs) (h : RecvCredits d rs)
    (hi : rs[i]? = some r) (hs : d.Step l dead blocked r e r') :
    RecvCredits (d.after e dead blocked) (rs.set i r') := by
  have hr := List.mem_of_getElem? hi
  have hlight : ∀ {q : RecvRole}, q.light = true → q.grants = none := by
    intro q hq
    rcases RecvRole.light_cases hq with rfl | rfl <;> rfl
  have hafter : ∀ ev, (RecvRole.afterEvent ev).grants = none := by
    intro ev
    rcases RecvRole.afterEvent_cases ev with ⟨-, h⟩ | ⟨-, h⟩ <;> rw [h] <;> rfl
  have hsame : ∀ q ∈ rs.set i r, q.grants ≠ none → q ∈ rs := by
    rw [set_same hi]
    exact fun q hq _ => hq
  cases hs with
  | stay r => exact h.quiet rfl rfl id hsame
  | advance r below => exact h.quiet rfl rfl id hsame
  | closeReceiver r => exact h.quiet rfl rfl id hsame
  | dropTx r => exact h.quiet rfl rfl id hsame
  | clear r hd => exact h.quiet rfl rfl id hsame
  | clearCredit r hd => exact h.quiet rfl rfl nofun hsame
  | prune r full => exact h.quiet rfl rfl (fun hp => (Bool.and_eq_true_iff.1 hp).1) hsame
  | register ho => exact .register hown hi rfl _
  | registerPeer => exact .register hown hi rfl _
  | lower hr' => exact h.quiet rfl rfl id (mem_of_mem_set_grants (hlight hr'))
  | dropFinished hf hr' => exact h.quiet rfl rfl nofun (mem_of_mem_set_grants (hlight hr'))
  | dropSkip hs hr' => exact h.quiet rfl rfl id (mem_of_mem_set_grants (hlight hr'))
  | publishStop hr' => exact h.quiet rfl rfl id (mem_of_mem_set_grants (hlight hr'))
  | stopFail hd hr' => exact h.quiet rfl rfl id (mem_of_mem_set_grants (hlight hr'))
  | receiveStopped => exact h.quiet rfl rfl id (mem_of_mem_set_grants (hafter _))
  | deliver => exact h.quiet rfl rfl id (mem_of_mem_set_grants (hafter _))
  | deliverClosed => exact h.quiet rfl rfl id (mem_of_mem_set_grants (hafter _))
  | read hread hr' =>
      exact h.quiet rfl rfl id
        (mem_of_mem_set_grants (by rcases hr' with rfl | rfl <;> rfl))
  | @readGrant reader events taken target hread =>
      -- the new limit is above the limit in force, which is above all that was announced
      have hlt : d.cell.maxData < target :=
        Nat.lt_of_le_of_lt hwin.granted (hread.grows target rfl).1
      refine ⟨h.increasing, h.pending, forall_mem_set h.granting ?_⟩
      rintro t ⟨rfl⟩
      exact ⟨fun c hc => Nat.lt_of_le_of_lt (hwin.credits c hc) hlt,
        fun hp => Nat.lt_of_le_of_lt (hwin.pending hp) hlt⟩
  | @storeMax target =>
      refine ⟨h.increasing, h.pending, forall_mem_set h.granting ?_⟩
      rintro t ⟨rfl⟩
      exact h.granting _ hr _ rfl
  | @queue target full ht hst =>
      obtain ⟨hcredits, hpend⟩ := h.granting _ hr target rfl
      refine ⟨h.increasing, fun _ c hc => ?_, ?_⟩
      · show c < if d.kept full then max d.cell.credit target else target
        have := hcredits c hc
        split_ifs <;> omega
      · -- the one reader has no other limit
        intro q hq t htq
        rw [hwin.no_grants hi rfl q hq] at htq
        cases htq
  | queueSkip ht => exact h.quiet rfl rfl id (mem_of_mem_set_grants rfl)
  | queueFull hd =>
      exact h.quiet rfl rfl (fun hp => (Bool.and_eq_true_iff.1 hp).1) (mem_of_mem_set_grants rfl)
  | mark ht => exact h.quiet rfl rfl nofun (mem_of_mem_set_grants rfl)
  | dropMark => exact h.quiet rfl rfl nofun (mem_of_mem_set_grants rfl)
  | _ => exact h.quiet rfl rfl id (mem_of_mem_set_grants rfl)

/-- **A step of the pool keeps the order of the credits.** -/
theorem RecvCredits.poolStep (hown : RecvOwner d rs) (hwin : RecvWindow l d rs)
    (h : RecvCredits d rs) (hs : d.PoolStep l rs dead blocked d' rs') : RecvCredits d' rs' := by
  -- a new participant has no limit to queue
  have hnew : ∀ q : RecvRole, q.grants = none → ∀ r ∈ rs ++ [q], r.grants ≠ none → r ∈ rs := by
    intro q hq r hr hg
    rcases List.mem_append.1 hr with hr | hr
    · exact hr
    · cases List.mem_singleton.1 hr
      exact absurd hq hg
  cases hs with
  | act hi hs => exact h.act hown hwin hi hs
  | arrive hi hnb hx =>
      exact h.quiet rfl rfl (fun hp => hp) (mem_of_mem_set_grants (by cases hx <;> rfl))
  | spawn => exact h.quiet rfl rfl (fun hp => hp) (hnew _ rfl)
  | @borrow r e hr he hh hone =>
      have hg := hnew r (by rcases hr with rfl | rfl <;> rfl)
      rcases he with rfl | rfl <;> exact h.quiet rfl rfl (fun hp => hp) hg
  | takeCredit hp =>
      constructor
      · refine List.pairwise_append.2 ⟨h.increasing, List.pairwise_singleton _ _, ?_⟩
        intro c hc c' hc'
        cases List.mem_singleton.1 hc'
        exact h.pending hp c hc
      · exact nofun
      · intro r hr t ht
        refine ⟨fun c hc => ?_, nofun⟩
        rcases List.mem_append.1 hc with hc | hc
        · exact (h.granting r hr t ht).1 c hc
        · cases List.mem_singleton.1 hc
          exact (h.granting r hr t ht).2 hp
  | idle => exact h.quiet rfl rfl (fun hp => hp) fun _ hr _ => hr

end Credits

/-- **The order of the credits in every run.** -/
theorem recvCredits_of_reachable (hw : cfg.limits.initialStreamWindow ≤ VarInt.max)
    (hr : Reachable (Session.step cfg) ok {} s) (id : StreamId) :
    RecvCredits (s.view.recvDirection cfg id) (recvRoles id s.tasks) := by
  refine (recv_invariant
    (P := fun d rs => RecvWindow cfg.limits d rs ∧ RecvCredits d rs) ?_ ?_ hr id).2
  · intro own dead blocked
    exact ⟨RecvWindow.initial_state cfg.limits own dead blocked, .initial _ _ _⟩
  · intro d d' rs rs' dead blocked hown _ _ h hs
    exact ⟨h.1.poolStep hw hown hs, h.2.poolStep hown h.1 hs⟩


/-! ## The size of the table -/

theorem RecvTable.pruned_subset (t : RecvTable) (bound : Nat) :
    t.pruned bound ⊆ t.pendingCredit := by
  unfold RecvTable.pruned
  split_ifs
  · exact Finset.filter_subset _ _
  · exact Finset.Subset.refl _

/-- The pruned table, when it is full, has only streams that are in `streams`. -/
theorem RecvTable.pruned_subset_streams {t : RecvTable} {bound : Nat}
    (h : bound ≤ (t.pruned bound).card) : t.pruned bound ⊆ t.streams := by
  unfold RecvTable.pruned at h ⊢
  split_ifs at h ⊢ with hb
  · intro i hi
    exact (Finset.mem_filter.1 hi).2
  · exact absurd h hb

/-- An access that writes an entry of `pending_credit`, or clears the table. -/
def Access.changesCredit : Access → Bool
  | .recv (.queueCredit _ _ _) => true
  | .recv .clearCredit => true
  | _ => false

/-- The two functions that do so. -/
theorem Task.eq_of_changesCredit {m : Memory} {t t' : Task} {a : Access}
    (hn : t.next cfg m = some (a, t')) (ha : a.changesCredit = true) :
    (∃ i target, t = .queueCredit i target ∧
        a = .recv (.queueCredit cfg.limits.maxOpenStreams i target) ∧
        m.recvs.creditOverflows cfg.limits.maxOpenStreams i = false) ∨
      (∃ k, t = .closeAll .clearCredit k) ∧ a = .recv .clearCredit := by
  replace hn := Task.steps_of_next hn
  induction hn with
  | queueCredit i target _ hover =>
      exact .inl ⟨i, target, rfl, rfl, Bool.eq_false_of_not_eq_true hover⟩
  | closeAll c k =>
      cases c with
      | clearCredit => exact .inr ⟨⟨k, rfl⟩, rfl⟩
      | _ => contradiction
  | _ => contradiction

theorem Call.changesCredit_start {m : Memory} {c : Call} {u : Use} {a : Access} {t : Task}
    (h : c.start m = some (u, a, t)) : a.changesCredit = false := by
  cases Call.starts_of_start h <;> rfl

theorem LoopAccess.changesCredit_eq {m : Memory} {a : Access} (h : LoopAccess m a) :
    a.changesCredit = false := by
  cases h <;> rfl

/-- An access of another kind adds no entry. -/
theorem Memory.pendingCredit_apply (m : Memory) {a : Access} (ha : a.changesCredit = false) :
    (m.apply a).recvs.pendingCredit ⊆ m.recvs.pendingCredit := by
  cases a with
  | recv b =>
      cases b with
      | queueCredit bound i target => cases ha
      | prune bound => exact m.recvs.pruned_subset bound
      | clearCredit => exact Finset.empty_subset _
      | stop i => exact Finset.erase_subset _ _
      | takeCredit i => exact Finset.erase_subset _ _
      | _ => exact Finset.Subset.refl _
  | session clone => cases clone <;> exact Finset.Subset.refl _
  | _ => exact Finset.Subset.refl _

/-- An entry is added only below the bound. -/
theorem RecvTable.card_queueCredit {t : RecvTable} {bound target : Nat} {i : StreamId}
    (hle : t.pendingCredit.card ≤ bound) (h : t.creditOverflows bound i = false) :
    (t.queueCredit bound i target).pendingCredit.card ≤ bound := by
  have hpruned : (t.pruned bound).card ≤ bound :=
    (Finset.card_le_card (t.pruned_subset bound)).trans hle
  show (insert i (t.pruned bound)).card ≤ bound
  by_cases hi : i ∈ t.pruned bound
  · rw [Finset.insert_eq_of_mem hi]
    exact hpruned
  · have hlt : (t.pruned bound).card < bound := by
      by_contra hge
      simp [RecvTable.creditOverflows, hi, Nat.le_of_not_lt hge] at h
    exact (Finset.card_insert_le _ _).trans hlt

section Moves

variable {v v' : View} {who : Option Nat}

theorem Moves.pendingCredit_card_le (h : Moves cfg v who v')
    (hle : v.mem.recvs.pendingCredit.card ≤ cfg.limits.maxOpenStreams) :
    v'.mem.recvs.pendingCredit.card ≤ cfg.limits.maxOpenStreams := by
  have hquiet : ∀ {a : Access}, a.changesCredit = false →
      (v.mem.apply a).recvs.pendingCredit.card ≤ cfg.limits.maxOpenStreams := fun ha =>
    (Finset.card_le_card (v.mem.pendingCredit_apply ha)).trans hle
  cases h with
  | @next i t t' a hi hn =>
      cases ha : a.changesCredit with
      | false => exact hquiet ha
      | true =>
          rcases Task.eq_of_changesCredit hn ha with ⟨j, target, -, rfl, hroom⟩ | ⟨-, rfl⟩
          · exact RecvTable.card_queueCredit hle hroom
          · exact Nat.zero_le _
  | cancel hi hc => exact hle
  | timeout hi hc => exact hle
  | abort hi ha => exact hle
  | turn hi ht => exact hle
  | exit hi => exact hle
  | spawn hc => exact hquiet (Call.changesCredit_start hc)
  | loop ha hb => exact hquiet ha.changesCredit_eq

end Moves

/-- **`pending_credit` is bounded** in every run. -/
theorem pendingCredit_card_le (hr : Reachable (Session.step cfg) ok {} s) :
    s.mem.recvs.pendingCredit.card ≤ cfg.limits.maxOpenStreams :=
  hr.invariant (I := fun s => s.mem.recvs.pendingCredit.card ≤ cfg.limits.maxOpenStreams)
    (Nat.zero_le _) fun _ ih _ hs => (Session.moves_of_step hs).pendingCredit_card_le ih

/-! ## No credit is lost -/

/-- The limit that the reader has granted is the initial one, or it waits in `pending_credit`, or it
was the last one taken from there, or the reader has still to queue it. -/
def RecvDirection.Credited (l : Limits) (d : RecvDirection) (rs : List RecvRole) : Prop :=
  d.cell.reader.granted ≤ l.initialStreamWindow ∨
    (d.pending = true ∧ d.cell.credit = d.cell.reader.granted) ∨
    d.cell.credits.getLast? = some d.cell.reader.granted ∨
    ∃ r ∈ rs, r.grants = some d.cell.reader.granted

section Credited

variable {l : Limits} {d d' : RecvDirection} {rs rs' : List RecvRole} {i : Nat} {r r' : RecvRole}
  {e : RecvChange} {dead blocked : Prop}

theorem RecvDirection.Credited.keep (h : d.Credited l rs)
    (hg : d'.cell.reader.granted = d.cell.reader.granted)
    (hp : d.pending = true → d'.pending = true ∧ d'.cell.credit = d.cell.credit)
    (hcr : d'.cell.credits = d.cell.credits)
    (hrs : ∀ q ∈ rs, q.grants = some d.cell.reader.granted →
      ∃ q ∈ rs', q.grants = some d.cell.reader.granted) : d'.Credited l rs' := by
  unfold RecvDirection.Credited
  rw [hg, hcr]
  rcases h with h | ⟨h, hc⟩ | h | ⟨q, hq, ht⟩
  · exact .inl h
  · exact .inr (.inl ⟨(hp h).1, (hp h).2.trans hc⟩)
  · exact .inr (.inr (.inl h))
  · exact .inr (.inr (.inr (hrs q hq ht)))

/-- The roles with a limit, when one without acts. -/
theorem grants_set {t : Nat} (hi : rs[i]? = some r) (hr : r.grants = none) (r' : RecvRole) :
    ∀ q ∈ rs, q.grants = some t → ∃ q ∈ rs.set i r', q.grants = some t := by
  intro q hq ht
  refine ⟨q, mem_set_of_ne hi hq ?_ r', ht⟩
  rintro rfl
  rw [hr] at ht
  cases ht

/-- **A step of the pool loses no credit**, provided that no entry is discarded and that a reader
that queues its limit finds it queued. -/
theorem RecvDirection.PoolStep.credited (hwin : RecvWindow l d rs) (hcredits : RecvCredits d rs)
    (hs : d.PoolStep l rs dead blocked d' rs')
    (hkept : d.pending = true → d'.cell.credits = d.cell.credits → d'.pending = true)
    (hdone : ∀ t, .queueing t ∈ rs →
      .queueing t ∈ rs' ∨ (d'.pending = true ∧ d'.cell.credit = t))
    (h : d.inTable = true → d.cell.stopped = false → d.Credited l rs)
    (hin : d'.inTable = true) (hst : d'.cell.stopped = false) : d'.Credited l rs' := by
  have hqueue : ∀ {i target : Nat}, rs[i]? = some (.queueing target) →
      d'.cell.reader.granted = d.cell.reader.granted → d'.Credited l rs' := by
    intro i target hi hg
    have ht : target = d'.cell.reader.granted :=
      (hwin.queueing target (List.mem_of_getElem? hi)).trans
        ((hwin.stored_of_queueing hi).trans hg.symm)
    rcases hdone target (List.mem_of_getElem? hi) with hq | ⟨hp, hc⟩
    · exact .inr (.inr (.inr ⟨_, hq, congrArg some ht⟩))
    · exact .inr (.inl ⟨hp, hc.trans ht⟩)
  have hnew : ∀ {q : RecvRole}, ∀ r ∈ rs, r.grants = some d.cell.reader.granted →
      ∃ r ∈ rs ++ [q], r.grants = some d.cell.reader.granted :=
    fun r hr hg => ⟨r, List.mem_append_left _ hr, hg⟩
  cases hs with
  | @act i r r' e hi hs =>
      have hlt := (List.getElem?_eq_some_iff.1 hi).1
      have hsame : ∀ {t : Nat}, ∀ q ∈ rs, q.grants = some t → ∃ q ∈ rs.set i r, q.grants = some t := by
        intro t q hq ht
        rw [set_same hi]
        exact ⟨q, hq, ht⟩
      cases hs with
      | register ho => exact .inl (Nat.le_refl _)
      | registerPeer => exact .inl (Nat.le_refl _)
      | read hread hr' =>
          refine (h hin hst).keep ?_ (fun hp => ⟨hp, rfl⟩) rfl (grants_set hi rfl _)
          exact hread.granted
      | @readGrant reader events taken target hread =>
          refine .inr (.inr (.inr ⟨_, List.mem_set hlt _, ?_⟩))
          exact congrArg some hread.granted.symm
      | @storeMax target =>
          have ht := hwin.storing target (List.mem_of_getElem? hi)
          exact .inr (.inr (.inr ⟨_, List.mem_set hlt _, congrArg some ht⟩))
      | queue ht hst => exact hqueue hi rfl
      | queueSkip ht => exact hqueue hi rfl
      | queueFull hd => exact hqueue hi rfl
      | mark ht => cases hst
      | dropMark => cases hst
      | dropFinished hf hr' => cases hst
      | removeFin => cases hin
      | resetRemove => cases hin
      | undoRemove hd => cases hin
      | clear r hd => cases hin
      | prune r full => exact (h hin hst).keep rfl (fun hp => ⟨hkept hp rfl, rfl⟩) rfl hsame
      | clearCredit r hd => exact (h hin hst).keep rfl (fun hp => ⟨hkept hp rfl, rfl⟩) rfl hsame
      | stay r => exact (h hin hst).keep rfl (fun hp => ⟨hp, rfl⟩) rfl hsame
      | advance r below => exact (h hin hst).keep rfl (fun hp => ⟨hp, rfl⟩) rfl hsame
      | closeReceiver r => exact (h hin hst).keep rfl (fun hp => ⟨hp, rfl⟩) rfl hsame
      | dropTx r => exact (h hin hst).keep rfl (fun hp => ⟨hp, rfl⟩) rfl hsame
      | _ => exact (h hin hst).keep rfl (fun hp => ⟨hp, rfl⟩) rfl (grants_set hi rfl _)
  | arrive hi hnb hx => exact (h hin hst).keep rfl (fun hp => ⟨hp, rfl⟩) rfl (grants_set hi rfl _)
  | spawn => exact (h hin hst).keep rfl (fun hp => ⟨hp, rfl⟩) rfl hnew
  | borrow hr he hh hone =>
      rcases he with rfl | rfl <;> exact (h hin hst).keep rfl (fun hp => ⟨hp, rfl⟩) rfl hnew
  | takeCredit hp =>
      -- what is taken now is at most the granted limit and above all that was taken before
      have hle : d.cell.credit ≤ d.cell.reader.granted := (hwin.pending hp).trans hwin.granted
      have hlast : (d.cell.credits ++ [d.cell.credit]).getLast? = some d.cell.credit := by simp
      rcases h hin hst with h | ⟨-, hc⟩ | h | h
      · exact .inl h
      · exact .inr (.inr (.inl (hlast.trans (congrArg some hc))))
      · have hlt := hcredits.pending hp _ (List.mem_of_getLast? h)
        omega
      · exact .inr (.inr (.inr h))
  | idle => exact (h hin hst).keep rfl (fun hp => ⟨hp, rfl⟩) rfl fun q hq ht => ⟨q, hq, ht⟩

end Credited

/-- The session shuts down: a flag of `is_closed` is set, or `request_shutdown` is called. -/
def View.ShuttingDown (v : View) : Prop :=
  v.mem.flags.isClosed = true ∨ ∃ k, Task.storeShutdown k ∈ v.tasks

section Moves

variable {v v' : View} {who : Option Nat}

/-- How an entry of `pending_credit` is discarded. -/
theorem Memory.pendingCredit_lost {m : Memory} {a : Access} (hp : id ∈ m.recvs.pendingCredit)
    (hp' : id ∉ (m.apply a).recvs.pendingCredit) :
    a = .recv .clearCredit ∨ id ∉ (m.apply a).recvs.streams ∨
      ((m.apply a).recvs.cell id).stopped = true ∨
      ((m.apply a).recvs.cell id).credits ≠ (m.recvs.cell id).credits := by
  -- what the pruning discards is not in the table
  have hpruned : ∀ bound, id ∉ m.recvs.pruned bound → id ∉ m.recvs.streams := by
    intro bound hn hin
    unfold RecvTable.pruned at hn
    split_ifs at hn
    · exact hn (Finset.mem_filter.2 ⟨hp, hin⟩)
    · exact hn hp
  cases a with
  | recv b =>
      cases b with
      | clearCredit => exact .inl rfl
      | prune bound => exact .inr (.inl (hpruned bound hp'))
      | queueCredit bound i target =>
          exact .inr (.inl (hpruned bound fun h => hp' (Finset.mem_insert_of_mem h)))
      | stop i =>
          have hi : id = i := by
            by_contra hne
            exact hp' (Finset.mem_erase.2 ⟨hne, hp⟩)
          subst hi
          right; right; left
          simp [Memory.apply, RecvTable.apply, RecvTable.stopRecvStream, RecvTable.modify]
      | takeCredit i =>
          have hi : id = i := by
            by_contra hne
            exact hp' (Finset.mem_erase.2 ⟨hne, hp⟩)
          subst hi
          right; right; right
          simp [Memory.apply, RecvTable.apply, RecvTable.modify]
      | _ => exact absurd hp hp'
  | session clone => cases clone <;> exact absurd hp hp'
  | _ => exact absurd hp hp'

/-- **No entry of a live stream is discarded** while the session is not closed. -/
theorem Moves.pendingCredit_kept (h : Moves cfg v who v') (hctl : ControlInv cfg v)
    (hopen : ¬ v'.ShuttingDown) (hin : id ∈ v'.mem.recvs.streams)
    (hst : (v'.mem.recvs.cell id).stopped = false) (hp : id ∈ v.mem.recvs.pendingCredit)
    (hcr : (v'.mem.recvs.cell id).credits = (v.mem.recvs.cell id).credits) :
    id ∈ v'.mem.recvs.pendingCredit := by
  by_contra hn
  have hlost : ∀ {a : Access}, v'.mem = v.mem.apply a → a = .recv .clearCredit := by
    intro a hm
    rw [hm] at hn hin hst hcr
    rcases Memory.pendingCredit_lost hp hn with h | h | h | h
    · exact h
    · exact absurd hin h
    · exact absurd (hst.symm.trans h) Bool.false_ne_true
    · exact absurd hcr h
  cases h with
  | @next i t t' a hi hn' =>
      obtain rfl := hlost rfl
      rcases Task.eq_of_changesCredit hn' rfl with ⟨j, target, -, ha, -⟩ | ⟨⟨k, rfl⟩, -⟩
      · cases ha
      · -- `close_all` clears the table after it has set `closed`
        have hclosed : v.mem.flags.closed = true :=
          hctl.justified _ (List.mem_of_getElem? hi)
        refine hopen (.inl ?_)
        show (v.mem.flags.closed || v.mem.flags.shutdownStarted) = true
        rw [hclosed]
        rfl
  | spawn hc =>
      obtain rfl := hlost rfl
      cases Call.changesCredit_start hc
  | loop ha hb =>
      obtain rfl := hlost rfl
      cases ha
  | cancel hi hc => exact hn hp
  | timeout hi hc => exact hn hp
  | abort hi ha => exact hn hp
  | turn hi ht => exact hn hp
  | exit hi => exact hn hp

/-- **What becomes of a call of `queue_credit`** for a live stream: it is still in progress, or the
limit is queued, unless the session shuts down. -/
theorem Moves.queueCredit_done (h : Moves cfg v who v') {i target : Nat}
    (ht : v.tasks[i]? = some (.queueCredit id target)) (hopen : ¬ v'.ShuttingDown)
    (hin : id ∈ v'.mem.recvs.streams) (hst : (v'.mem.recvs.cell id).stopped = false) :
    v'.tasks[i]? = some (.queueCredit id target) ∨
      v'.mem = v.mem.apply (.recv (.queueCredit cfg.limits.maxOpenStreams id target)) := by
  -- another function takes the step
  have hother : ∀ {j : Nat} {t t' : Task}, v.tasks[j]? = some t → t ≠ .queueCredit id target →
      (v.tasks.set j t')[i]? = some (.queueCredit id target) := by
    intro j t t' hj hne
    have hji : j ≠ i := by
      rintro rfl
      rw [ht] at hj
      exact hne (Option.some.inj hj).symm
    rw [List.getElem?_set_ne hji]
    exact ht
  cases h with
  | @next j t t' a hj hn =>
      by_cases hji : j = i
      · subst hji
        rw [ht] at hj
        cases hj
        simp only [Task.next] at hn
        split_ifs at hn with hlive hover
        · cases hn
          refine absurd (.inr ⟨.done, ?_⟩) hopen
          exact List.mem_set (List.getElem?_eq_some_iff.1 ht).1 _
        · cases hn
          exact .inr rfl
        · cases hn
          exact absurd ⟨hin, hst⟩ hlive
      · left
        show (v.tasks.set j t')[i]? = _
        rw [List.getElem?_set_ne hji]
        exact ht
  | cancel hj hc => exact .inl (hother hj (by rintro rfl; cases hc))
  | timeout hj hc => exact .inl (hother hj (by rintro rfl; cases hc))
  | abort hj ha => exact .inl (hother hj (by rintro rfl; cases ha))
  | turn hj ht' => exact .inl (hother hj (by rintro rfl; cases ht'))
  | exit hj => exact .inl (hother hj (by rintro ⟨⟩))
  | spawn hc =>
      left
      show (v.tasks ++ _)[i]? = _
      rw [List.getElem?_append_left (List.getElem?_eq_some_iff.1 ht).1]
      exact ht
  | loop ha hb => exact .inl ht

/-- A session that shuts down keeps doing so. -/
theorem View.ShuttingDown.moves (hs : v.ShuttingDown) (h : Moves cfg v who v') :
    v'.ShuttingDown := by
  rcases hs with hc | ⟨k, hk⟩
  · obtain ⟨a, hm⟩ := h.mem_eq
    left
    rw [hm]
    exact Memory.isClosed_apply a hc
  · -- the function in `request_shutdown` stays there, or sets the flag
    have hother : ∀ {j : Nat} {t t' : Task}, v.tasks[j]? = some t → t ≠ .storeShutdown k →
        Task.storeShutdown k ∈ v.tasks.set j t' := fun hj hne => mem_set_of_ne hj hk hne.symm _
    cases h with
    | @next j t t' a hj hn =>
        by_cases ht : t = .storeShutdown k
        · subst ht
          cases hn
          left
          show (v.mem.flags.closed || true) = true
          exact Bool.or_true _
        · exact .inr ⟨k, hother hj ht⟩
    | cancel hj hc => exact .inr ⟨k, hother hj (by rintro rfl; cases hc)⟩
    | timeout hj hc => exact .inr ⟨k, hother hj (by rintro rfl; cases hc)⟩
    | abort hj ha => exact .inr ⟨k, hother hj (by rintro rfl; cases ha)⟩
    | turn hj ht => exact .inr ⟨k, hother hj (by rintro rfl; cases ht)⟩
    | exit hj => exact .inr ⟨k, hother hj nofun⟩
    | spawn hc => exact .inr ⟨k, List.mem_append_left _ hk⟩
    | loop ha hb => exact .inr ⟨k, hk⟩

end Moves

/-- The entry after `queue_credit` with a limit that is at least the old one. -/
theorem RecvTable.queueCredit_entry {t : RecvTable} {bound target : Nat}
    (hle : id ∈ t.pendingCredit → (t.cell id).credit ≤ target) :
    decide (id ∈ (t.queueCredit bound id target).pendingCredit) = true ∧
      ((t.queueCredit bound id target).cell id).credit = target := by
  refine ⟨decide_eq_true (Finset.mem_insert_self _ _), ?_⟩
  simp only [RecvTable.queueCredit, RecvTable.modify, Function.update_self]
  split_ifs with hk
  · exact Nat.max_eq_right (hle (t.pruned_subset bound hk))
  · rfl

/-- **No credit of a live stream is lost** in a run, until the session shuts down. -/
theorem credited_of_reachable (hw : cfg.limits.initialStreamWindow ≤ VarInt.max)
    (hr : Reachable (Session.step cfg) ok {} s) (id : StreamId) :
    ¬ s.view.ShuttingDown → id ∈ s.mem.recvs.streams → (s.mem.recvs.cell id).stopped = false →
      (s.view.recvDirection cfg id).Credited cfg.limits (recvRoles id s.tasks) := by
  induction hr with
  | init =>
      intro _ hin
      cases hin
  | @step s s' l hr hok hs ih =>
      intro hopen hin hst
      have hmoves := Session.moves_of_step hs
      have hwin := recvWindow_of_reachable hw hr id
      refine (recvPoolStep_of_step hr hok hs id).credited hwin (recvCredits_of_reachable hw hr id)
        ?_ ?_ ?_ (decide_eq_true hin) hst
      · intro hp hcr
        exact decide_eq_true (hmoves.pendingCredit_kept (controlInv_of_reachable hr) hopen hin hst
          (of_decide_eq_true hp) hcr)
      · intro t ht
        obtain ⟨i, hi⟩ := List.getElem?_of_mem ht
        have hi' := Task.queueing_getElem? hi
        rcases hmoves.queueCredit_done hi' hopen hin hst with hq | hm
        · left
          refine List.mem_map.2 ⟨_, List.mem_of_getElem? hq, ?_⟩
          simp [Task.recvRole, RecvRole.on]
        · right
          have hle : id ∈ s.mem.recvs.pendingCredit → (s.mem.recvs.cell id).credit ≤ t := by
            intro hp
            rw [hwin.queueing t ht]
            exact hwin.pending (decide_eq_true hp)
          have hmem : s'.mem = s.mem.apply _ := hm
          simp only [Session.view, View.recvDirection, hmem]
          exact RecvTable.queueCredit_entry hle
      · intro hin' hst'
        exact ih (fun hd => hopen (hd.moves hmoves)) (of_decide_eq_true hin') hst'

/-- **Coalesced credit is neither lost nor reordered.** In every state of every run of a session with
validated limits: while the session does not shut down, the limit of every stream that is in the
table and not stopped, if the reader has granted more than the initial window and has queued it, is
the entry of `pending_credit` or was the last one taken from it; the entries taken for a stream
increase strictly; and `pending_credit` never has more than `max_open_streams` entries. -/
theorem coalesced_credit (hl : cfg.limits.validate = .ok ())
    (hr : Reachable (Session.step cfg) anyStep {} s) :
    (∀ id, ¬ s.view.ShuttingDown → id ∈ s.mem.recvs.streams →
      (s.mem.recvs.cell id).stopped = false →
      cfg.limits.initialStreamWindow < (s.mem.recvs.cell id).reader.granted →
      (∀ target, .storeMax id target ∉ s.tasks ∧ .queueCredit id target ∉ s.tasks) →
      (id ∈ s.mem.recvs.pendingCredit ∧
          (s.mem.recvs.cell id).credit = (s.mem.recvs.cell id).reader.granted) ∨
        (s.mem.recvs.cell id).credits.getLast? = some (s.mem.recvs.cell id).reader.granted) ∧
      (∀ id, (s.mem.recvs.cell id).credits.Pairwise (· < ·)) ∧
      s.mem.recvs.pendingCredit.card ≤ cfg.limits.maxOpenStreams := by
  have hw := ((Limits.validate_iff _).1 hl).window_le
  refine ⟨?_, fun id => (recvCredits_of_reachable hw hr id).increasing, pendingCredit_card_le hr⟩
  intro id hopen hin hst hlt hdone
  rcases credited_of_reachable hw hr id hopen hin hst with h | ⟨hp, hc⟩ | h | ⟨q, hq, hg⟩
  · exact absurd hlt (Nat.not_lt_of_le h)
  · exact .inl ⟨of_decide_eq_true hp, hc⟩
  · exact .inr h
  · obtain ⟨t, ht, rfl⟩ := List.mem_map.1 hq
    rcases Task.eq_of_grants hg with ⟨-, rfl⟩ | ⟨-, rfl⟩
    · exact absurd ht (hdone _).1
    · exact absurd ht (hdone _).2

/-- A window of four bytes with a threshold of two: the application has read two bytes, and the new
limit waits in `pending_credit`. -/
theorem coalesced_credit_run :
    ∃ s, Reachable (Session.step ⟨false, { initialStreamWindow := 4, streamWindowUpdateThreshold := 2 }⟩)
        anyStep {} s ∧
      (s.mem.recvs.cell ⟨3⟩).reader.granted = 6 ∧ (s.mem.recvs.cell ⟨3⟩).credits = [] ∧
      ⟨3⟩ ∈ s.mem.recvs.pendingCredit ∧ (s.mem.recvs.cell ⟨3⟩).credit = 6 := by
  obtain ⟨s, hr, hin, hst, hgr, hcr, hclosed, hidle⟩ : ∃ s, Reachable (Session.step
      ⟨false, { initialStreamWindow := 4, streamWindowUpdateThreshold := 2 }⟩) anyStep {} s ∧
      ⟨3⟩ ∈ s.mem.recvs.streams ∧ (s.mem.recvs.cell ⟨3⟩).stopped = false ∧
      (s.mem.recvs.cell ⟨3⟩).reader.granted = 6 ∧ (s.mem.recvs.cell ⟨3⟩).credits = [] ∧
      s.mem.flags.isClosed = false ∧ (s.tasks.all Task.isDone) = true :=
    Reachable.exists_of_run (List.flatten [[.receive (.binary [0, 3, 2, 3, 0, 2, 7, 7])],
      List.replicate 15 .inbound, [.call (.accept false), .op 0, .op 0,
      .call (.read ⟨3⟩ .read 8), .op 1, .op 1, .op 1]]) (by decide +kernel)
  have hdone : ∀ t ∈ s.tasks, t = .done := by
    intro t ht
    have := List.all_eq_true.1 hidle t ht
    cases t with
    | done => rfl
    | _ => cases this
  have hopen : ¬ s.view.ShuttingDown := by
    rintro (hc | ⟨k, hk⟩)
    · exact absurd (hclosed.symm.trans hc) Bool.false_ne_true
    · cases hdone _ hk
  have hqueued : ∀ target, .storeMax ⟨3⟩ target ∉ s.tasks ∧ .queueCredit ⟨3⟩ target ∉ s.tasks := by
    intro target
    constructor
    · intro ht
      cases hdone _ ht
    · intro ht
      cases hdone _ ht
  have h := (coalesced_credit (by decide) hr).1 ⟨3⟩ hopen hin hst (by rw [hgr]; decide) hqueued
  rw [hgr, hcr] at h
  rcases h with h | h
  · exact ⟨s, hr, hgr, hcr, h⟩
  · cases h

/-! ## Reading never aborts a session -/

/-- A pruned table that is full has all streams of a table that is not larger. -/
theorem RecvTable.creditOverflows_eq_false {t : RecvTable} {bound : Nat}
    (hle : t.streams.card ≤ bound) (hin : id ∈ t.streams) :
    t.creditOverflows bound id = false := by
  by_contra hover
  have hover : t.creditOverflows bound id = true := Bool.eq_true_of_not_eq_false hover
  simp only [RecvTable.creditOverflows, Bool.and_eq_true, decide_eq_true_eq] at hover
  have heq : t.pruned bound = t.streams :=
    Finset.eq_of_subset_of_card_le (RecvTable.pruned_subset_streams hover.1) (hle.trans hover.1)
  exact hover.2 (heq ▸ hin)

/-- **Reading never aborts the session**, in every state of every run in which `open_bi` inserts its
receive stream only while the table has room: for a stream in the table, `queue_credit` finds room,
or an entry of the stream. -/
theorem reading_keeps_session (hr : Reachable (Session.step cfg) (opensWithRoom cfg) {} s)
    {id : StreamId} (hin : id ∈ s.mem.recvs.streams) :
    s.mem.recvs.creditOverflows cfg.limits.maxOpenStreams id = false :=
  RecvTable.creditOverflows_eq_false (streams_card_le hr) hin

/-- A client with at most one open stream, a window of four bytes and a threshold of two. -/
def oneStream : Config where
  isServer := false
  limits := { maxOpenStreams := 1, initialStreamWindow := 4, streamWindowUpdateThreshold := 2 }

/-- The peer opens a stream and sends two bytes, and the application has read them. -/
theorem reading_keeps_session_run :
    ∃ s, Reachable (Session.step oneStream) (opensWithRoom oneStream) {} s ∧
      s.mem.recvs.pendingCredit = {⟨3⟩} ∧ s.mem.recvs.creditOverflows 1 ⟨3⟩ = false := by
  obtain ⟨s, hr, hin, hp⟩ : ∃ s, Reachable (Session.step oneStream) (opensWithRoom oneStream) {} s ∧
      ⟨3⟩ ∈ s.mem.recvs.streams ∧ s.mem.recvs.pendingCredit = {⟨3⟩} :=
    Reachable.exists_of_run (List.flatten [[.receive (.binary [0, 3, 2, 3, 0, 2, 7, 7])],
      List.replicate 15 .inbound, [.call (.accept false), .op 0, .op 0,
      .call (.read ⟨3⟩ .read 8), .op 1, .op 1, .op 1]]) (by decide +kernel)
  exact ⟨s, hr, hp, reading_keeps_session hr hin⟩

/-- **Reading can abort the session.** With a limit of one stream, the application opens a stream,
finishes its send direction and opens a second one. The outbound task writes the frames of both and
then stalls; the peer answers on each stream with two bytes. The read of the first stream fills
`pending_credit`, and the `queue_credit` of the second one finds no room. -/
theorem reading_overflows :
    ∃ s, Reachable (Session.step oneStream) anyStep {} s ∧
      s.out.sunk = [.openBi ⟨0⟩, .maxStreamData ⟨0⟩ 4, .stream ⟨0⟩ [] true, .openBi ⟨4⟩,
        .maxStreamData ⟨4⟩ 4] ∧
      s.inb.handled = [.stream ⟨0⟩ [7, 7] false, .stream ⟨4⟩ [7, 7] false] ∧
      ⟨4⟩ ∈ s.mem.recvs.streams ∧
      (match s.acting (.op 4) with
        | some (.queueCredit id _) => s.mem.recvs.creditOverflows 1 id
        | _ => false) = true :=
  Reachable.exists_of_run (List.flatten [[.call .openBi], List.replicate 13 (.op 0),
    [.call (.finish 0)], List.replicate 13 (.op 1), [.call .openBi], List.replicate 13 (.op 2),
    List.replicate 29 (.outbound .ready),
    [.receive (.binary [2, 0, 0, 2, 7, 7, 2, 4, 0, 2, 7, 7])], List.replicate 11 .inbound,
    [.call (.read ⟨0⟩ .read 8)], List.replicate 3 (.op 3),
    [.call (.read ⟨4⟩ .read 8), .op 4, .op 4]]) (by decide +kernel)

end WebsockMux.Native
