import WebsockMux.Native.RecvDirection

/-!
# Who has a receive stream

A receive stream is registered at most once. Until it is, nothing is known of it, and until
`open_bi` has published the open, no other function has it (`RecvOwner`). So the open is the first
frame about the stream in the outbound queue.
-/

set_option autoImplicit false

namespace WebsockMux.Native

open WebsockMux.Lib

/-- The invariant of registration and ownership. -/
structure RecvOwner (d : RecvDirection) (rs : List RecvRole) : Prop where
  /-- Only one function may ever register the stream. -/
  fresh : d.registered + total RecvRole.tokens rs ≤ d.allocated.toNat
  unregistered : d.registered = 0 →
    d.cell = {} ∧ d.inTable = false ∧ d.pending = false ∧ d.log = []
  uses_registered : ∀ r ∈ rs, r.uses = true → 0 < d.registered
  /-- While the open is not published, only its function has the stream. -/
  opening : ∀ i : Nat, rs[i]? = some RecvRole.opening → d.log = [] ∧ d.cell.reader.held = false ∧ d.own = true ∧
    ∀ (j : Nat) r, rs[j]? = some r → r.owns = true → j = i
  open_first : d.log.Pairwise fun _ y => y ≠ .openBi
  /-- Only the inbound task has frames of the stream. -/
  arrives_first : ∀ (i : Nat) r, rs[i]? = some r → r.arrives = true → i = 0

theorem RecvRole.uses_of_owns {r : RecvRole} (h : r.owns = true) : r.uses = true := by
  cases r <;> first | rfl | cases h

namespace RecvOwner

variable {l : Limits} {d d' : RecvDirection} {rs rs' : List RecvRole} {i : Nat} {r r' : RecvRole}
  {e : RecvChange} {dead blocked : Prop}

theorem registered_of_inTable (hinv : RecvOwner d rs) (h : d.inTable = true) :
    0 < d.registered := by
  by_contra hz
  have := (hinv.unregistered (by omega)).2.1
  rw [h] at this
  cases this

theorem registered_of_pending (hinv : RecvOwner d rs) (h : d.pending = true) :
    0 < d.registered := by
  by_contra hz
  have := (hinv.unregistered (by omega)).2.2.1
  rw [h] at this
  cases this

theorem registered_of_held (hinv : RecvOwner d rs) (h : d.cell.reader.held = true) :
    0 < d.registered := by
  by_contra hz
  rw [(hinv.unregistered (by omega)).1] at h
  cases h

theorem unregistered_of_token (hinv : RecvOwner d rs) (hi : rs[i]? = some .token) :
    d.registered = 0 := by
  have hf := hinv.fresh
  have hp := le_total (f := RecvRole.tokens) (List.mem_of_getElem? hi)
  have ha : d.allocated.toNat ≤ 1 := Bool.toNat_le _
  simp only [RecvRole.tokens] at hp
  omega

theorem registered_le (d : RecvDirection) (e : RecvChange) :
    d.registered ≤ (d.apply e).registered := by
  cases e with
  | register => exact Nat.le_succ _
  | _ => exact Nat.le_refl _

theorem fresh_step (hinv : RecvOwner d rs) (hi : rs[i]? = some r)
    (hs : d.Step l dead blocked r e r') :
    (d.apply e).registered + total RecvRole.tokens (rs.set i r') ≤
      (d.apply e).allocated.toNat := by
  have h := hinv.fresh
  have ht := total_set (f := RecvRole.tokens) (y := r') hi
  have hlight : ∀ {q : RecvRole}, q.light = true → q.tokens = 0 := by
    intro q hq
    rcases RecvRole.light_cases hq with rfl | rfl <;> rfl
  have hafter : ∀ ev, (RecvRole.afterEvent ev).tokens = 0 := by
    intro ev
    rcases RecvRole.afterEvent_cases ev with ⟨-, h⟩ | ⟨-, h⟩ <;> rw [h] <;> rfl
  cases hs with
  | allocate ha =>
      simp only [RecvRole.tokens, ha, Bool.toNat_false] at ht h
      simp only [RecvDirection.apply, Bool.or_true, Bool.toNat_true]
      omega
  | advance r below =>
      have hle : d.allocated.toNat ≤ (d.allocated || below).toNat := by cases d.allocated <;> simp
      show d.registered + _ ≤ (d.allocated || below).toNat
      omega
  | register =>
      simp only [RecvRole.tokens] at ht
      show d.registered + 1 + _ ≤ d.allocated.toNat
      omega
  | registerPeer =>
      simp only [RecvRole.tokens] at ht
      show d.registered + 1 + _ ≤ d.allocated.toNat
      omega
  | lower hr' =>
      rw [hlight hr'] at ht
      exact (Nat.add_le_add_left (by omega) _).trans h
  | dropFinished hf hr' =>
      rw [hlight hr'] at ht
      exact (Nat.add_le_add_left (by omega) _).trans h
  | dropSkip hs hr' =>
      rw [hlight hr'] at ht
      exact (Nat.add_le_add_left (by omega) _).trans h
  | publishStop hr' =>
      rw [hlight hr'] at ht
      exact (Nat.add_le_add_left (by omega) _).trans h
  | stopFail hd hr' =>
      rw [hlight hr'] at ht
      exact (Nat.add_le_add_left (by omega) _).trans h
  | receiveStopped =>
      rw [hafter] at ht
      exact (Nat.add_le_add_left (by omega) _).trans h
  | deliver =>
      rw [hafter] at ht
      exact (Nat.add_le_add_left (by omega) _).trans h
  | deliverClosed =>
      rw [hafter] at ht
      exact (Nat.add_le_add_left (by omega) _).trans h
  | read _ hr' =>
      have hz : r'.tokens = 0 := by rcases hr' with rfl | rfl <;> rfl
      rw [hz] at ht
      exact (Nat.add_le_add_left (by omega) _).trans h
  | _ =>
      simp only [RecvRole.tokens] at ht
      exact (Nat.add_le_add_left (by omega) _).trans h

theorem unregistered_step (hinv : RecvOwner d rs) (hi : rs[i]? = some r)
    (hs : d.Step l dead blocked r e r') (h : (d.apply e).registered = 0) :
    (d.apply e).cell = {} ∧ (d.apply e).inTable = false ∧ (d.apply e).pending = false ∧
      (d.apply e).log = [] := by
  have hz : d.registered = 0 := Nat.le_zero.1 (h ▸ registered_le d e)
  obtain ⟨hc, ht, hp, hl⟩ := hinv.unregistered hz
  have hu : r.uses = true → False := fun hu => by
    have := hinv.uses_registered r (List.mem_of_getElem? hi) hu
    omega
  cases hs with
  | register => cases h
  | registerPeer => cases h
  | receive hin =>
      rw [hin] at ht
      cases ht
  | receiveStopped hin =>
      rw [hin] at ht
      cases ht
  | prune r full => exact ⟨hc, ht, by simp [RecvDirection.apply, RecvDirection.kept, hp], hl⟩
  | closeReceiver r => exact ⟨by simp [RecvDirection.apply, RecvDirection.modify, hc], ht, hp, hl⟩
  | dropTx r => exact ⟨by simp [RecvDirection.apply, RecvDirection.modify, hc], ht, hp, hl⟩
  | stay r => exact ⟨hc, ht, hp, hl⟩
  | advance r below => exact ⟨hc, ht, hp, hl⟩
  | refuse => exact ⟨hc, ht, hp, hl⟩
  | allocate => exact ⟨hc, ht, hp, hl⟩
  | acquire => exact ⟨hc, ht, hp, hl⟩
  | refuseData => exact ⟨hc, ht, hp, hl⟩
  | resetRemove => exact ⟨hc, rfl, hp, hl⟩
  | resetUnknown => exact ⟨hc, ht, hp, hl⟩
  | clear => exact ⟨hc, rfl, hp, hl⟩
  | clearCredit => exact ⟨hc, ht, rfl, hl⟩
  | _ => exact (hu rfl).elim

theorem uses_step (hinv : RecvOwner d rs) (hi : rs[i]? = some r)
    (hs : d.Step l dead blocked r e r') :
    ∀ x ∈ rs.set i r', x.uses = true → 0 < (d.apply e).registered := by
  have hold : ∀ x ∈ rs, x.uses = true → 0 < (d.apply e).registered := fun x hx hu =>
    (hinv.uses_registered x hx hu).trans_le (registered_le d e)
  refine forall_mem_set hold fun hu => ?_
  have hr := List.mem_of_getElem? hi
  cases hs with
  | register => exact Nat.succ_pos _
  | registerPeer => exact Nat.succ_pos _
  | acquire h => exact h
  | receive h => exact hinv.registered_of_inTable h
  | receiveStopped h => exact hinv.registered_of_inTable h
  | stay => exact hold _ hr hu
  | advance => exact hold _ hr hu
  | prune => exact hold _ hr hu
  | closeReceiver => exact hold _ hr hu
  | dropTx => exact hold _ hr hu
  | clear => exact hold _ hr hu
  | clearCredit => exact hold _ hr hu
  | refuse => cases hu
  | allocate => cases hu
  | refuseData => cases hu
  | resetRemove => cases hu
  | resetUnknown => cases hu
  | _ => exact hold _ hr rfl

/-- A role that does not have the stream leaves alone what `open_bi` relies on. -/
theorem quiet_of_not_owns (hs : d.Step l dead blocked r e r') (ho : r.owns = false) :
    (r' ≠ .opening ∧ r'.owns = false ∧ (d.apply e).log = d.log ∧
        (d.apply e).cell.reader.held = d.cell.reader.held ∧ (d.apply e).own = d.own) ∨
      r = .token ∨ (d.own = false ∧ r' = .ref) := by
  have hafter : ∀ ev, RecvRole.afterEvent ev ≠ .opening ∧ (RecvRole.afterEvent ev).owns = false := by
    intro ev
    rcases RecvRole.afterEvent_cases ev with ⟨-, h⟩ | ⟨-, h⟩ <;> rw [h] <;> exact ⟨by simp, rfl⟩
  have hopen : ∀ {q : RecvRole}, q.owns = false → q ≠ .opening := by
    rintro q hq rfl
    cases hq
  cases hs with
  | register => exact .inr (.inl rfl)
  | registerPeer => exact .inr (.inl rfl)
  | refuse => exact .inr (.inl rfl)
  | acquire _ hown => exact .inr (.inr ⟨hown, rfl⟩)
  | receiveStopped => exact .inl ⟨(hafter _).1, (hafter _).2, rfl, rfl, rfl⟩
  | deliver => exact .inl ⟨(hafter _).1, (hafter _).2, rfl, rfl, rfl⟩
  | deliverClosed => exact .inl ⟨(hafter _).1, (hafter _).2, rfl, rfl, rfl⟩
  | stay => exact .inl ⟨hopen ho, ho, rfl, rfl, rfl⟩
  | advance => exact .inl ⟨hopen ho, ho, rfl, rfl, rfl⟩
  | allocate => exact .inl ⟨by simp, rfl, rfl, rfl, rfl⟩
  | prune => exact .inl ⟨hopen ho, ho, rfl, rfl, rfl⟩
  | closeReceiver => exact .inl ⟨hopen ho, ho, rfl, rfl, rfl⟩
  | dropTx => exact .inl ⟨hopen ho, ho, rfl, rfl, rfl⟩
  | receive => exact .inl ⟨by simp, rfl, rfl, rfl, rfl⟩
  | refuseData => exact .inl ⟨by simp, rfl, rfl, rfl, rfl⟩
  | deliverFull => exact .inl ⟨by simp, rfl, rfl, rfl, rfl⟩
  | removeFin => exact .inl ⟨by simp, rfl, rfl, rfl, rfl⟩
  | resetRemove => exact .inl ⟨by simp, rfl, rfl, rfl, rfl⟩
  | resetUnknown => exact .inl ⟨by simp, rfl, rfl, rfl, rfl⟩
  | clear => exact .inl ⟨hopen ho, ho, rfl, rfl, rfl⟩
  | clearCredit => exact .inl ⟨hopen ho, ho, rfl, rfl, rfl⟩
  | _ => cases ho

/-- `open_bi` keeps the stream to itself until it publishes the open. -/
theorem opening_keeps (hs : d.Step l dead blocked .opening e r') (hr' : r' = .opening) :
    (d.apply e).log = d.log ∧ (d.apply e).cell.reader.held = d.cell.reader.held ∧
      (d.apply e).own = d.own := by
  cases hs with
  | publishOpen => cases hr'
  | openFail => cases hr'
  | _ => exact ⟨rfl, rfl, rfl⟩

/-- Only a registration begins an opening. -/
theorem opening_of_step (hs : d.Step l dead blocked r e r') (hr' : r' = .opening) :
    r = .opening ∨ (r = .token ∧ d.own = true ∧ e = .register l.initialStreamWindow) := by
  cases hs with
  | register h => exact .inr ⟨rfl, h, rfl⟩
  | lower h =>
      subst hr'
      cases h
  | dropFinished _ h =>
      subst hr'
      cases h
  | dropSkip _ h =>
      subst hr'
      cases h
  | publishStop h =>
      subst hr'
      cases h
  | stopFail _ h =>
      subst hr'
      cases h
  | read _ h => rcases h with rfl | rfl <;> cases hr'
  | receiveStopped =>
      rcases RecvRole.afterEvent_cases _ with ⟨-, h⟩ | ⟨-, h⟩ <;> rw [h] at hr' <;> cases hr'
  | deliver =>
      rcases RecvRole.afterEvent_cases _ with ⟨-, h⟩ | ⟨-, h⟩ <;> rw [h] at hr' <;> cases hr'
  | deliverClosed =>
      rcases RecvRole.afterEvent_cases _ with ⟨-, h⟩ | ⟨-, h⟩ <;> rw [h] at hr' <;> cases hr'
  | _ => first | exact .inl hr' | cases hr'

/-- What `open_bi` relies on while it has not published the open. -/
def Private (d : RecvDirection) (rs : List RecvRole) (k : Nat) : Prop :=
  d.log = [] ∧ d.cell.reader.held = false ∧ d.own = true ∧
    ∀ (j : Nat) r, rs[j]? = some r → r.owns = true → j = k

theorem opening_step (hinv : RecvOwner d rs) (hi : rs[i]? = some r)
    (hs : d.Step l dead blocked r e r') {k : Nat} (hk : (rs.set i r')[k]? = some .opening) :
    Private (d.apply e) (rs.set i r') k := by
  rcases getElem?_set_cases hk with ⟨rfl, hr'⟩ | ⟨hki, hk⟩
  · rcases opening_of_step hs hr'.symm with rfl | ⟨rfl, hown, rfl⟩
    · obtain ⟨hlog, hheld, hown, honly⟩ := hinv.opening k hi
      obtain ⟨h1, h2, h3⟩ := opening_keeps hs hr'.symm
      refine ⟨h1.trans hlog, h2.trans hheld, h3.trans hown, fun j q hj hq => ?_⟩
      rcases getElem?_set_cases hj with ⟨rfl, -⟩ | ⟨-, hj⟩
      · rfl
      · exact honly j q hj hq
    · have hz := hinv.unregistered_of_token hi
      refine ⟨(hinv.unregistered hz).2.2.2, rfl, hown, fun j q hj hq => ?_⟩
      rcases getElem?_set_cases hj with ⟨rfl, -⟩ | ⟨-, hj⟩
      · rfl
      · have := hinv.uses_registered q (List.mem_of_getElem? hj) (RecvRole.uses_of_owns hq)
        omega
  · -- the opening is that of another function, so the acting one does not have the stream
    obtain ⟨hlog, hheld, hown, honly⟩ := hinv.opening k hk
    have ho : r.owns = false := by
      by_contra ho
      exact hki (honly i r hi (by simpa using ho)).symm
    rcases quiet_of_not_owns hs ho with ⟨-, ho', h1, h2, h3⟩ | rfl | ⟨hown', -⟩
    · refine ⟨h1.trans hlog, h2.trans hheld, h3.trans hown, fun j q hj hq => ?_⟩
      rcases getElem?_set_cases hj with ⟨rfl, rfl⟩ | ⟨-, hj⟩
      · rw [ho'] at hq
        cases hq
      · exact honly j q hj hq
    · have hz := hinv.unregistered_of_token hi
      have := hinv.uses_registered _ (List.mem_of_getElem? hk) rfl
      omega
    · rw [hown] at hown'
      cases hown'

theorem open_first_step (hinv : RecvOwner d rs) (hi : rs[i]? = some r)
    (hs : d.Step l dead blocked r e r') : (d.apply e).log.Pairwise fun _ y => y ≠ .openBi := by
  have happ : ∀ x : RecvItem, x ≠ .openBi → (d.log ++ [x]).Pairwise fun _ y => y ≠ .openBi := by
    intro x hx
    refine List.pairwise_append.2 ⟨hinv.open_first, List.pairwise_singleton _ _, ?_⟩
    intro _ _ y hy
    cases List.mem_singleton.1 hy
    exact hx
  cases hs with
  | publishOpen =>
      have hlog := (hinv.opening i hi).1
      show (d.log ++ [RecvItem.openBi]).Pairwise _
      rw [hlog]
      exact List.pairwise_singleton _ _
  | publishCredit => exact happ _ (by simp)
  | publishStop => exact happ _ (by simp)
  | _ => exact hinv.open_first

/-- A frame is not passed on to another function. -/
theorem arrives_of_step (hs : d.Step l dead blocked r e r') (h : r'.arrives = true) :
    r.arrives = true := by
  have hlight : ∀ {q : RecvRole}, q.light = true → q.arrives = true → False := by
    intro q hq ha
    rcases RecvRole.light_cases hq with rfl | rfl <;> cases ha
  cases hs with
  | lower hr' => exact (hlight hr' h).elim
  | dropFinished _ hr' => exact (hlight hr' h).elim
  | dropSkip _ hr' => exact (hlight hr' h).elim
  | publishStop hr' => exact (hlight hr' h).elim
  | stopFail _ hr' => exact (hlight hr' h).elim
  | read _ hr' => rcases hr' with rfl | rfl <;> cases h
  | _ => first | exact h | rfl | cases h

theorem arrives_first_step (hinv : RecvOwner d rs) (hi : rs[i]? = some r)
    (hs : d.Step l dead blocked r e r') :
    ∀ (j : Nat) q, (rs.set i r')[j]? = some q → q.arrives = true → j = 0 := by
  intro j q hj hq
  rcases getElem?_set_cases hj with ⟨rfl, rfl⟩ | ⟨-, hj⟩
  · exact hinv.arrives_first j r hi (arrives_of_step hs hq)
  · exact hinv.arrives_first j q hj hq

/-- **One function acts.** -/
theorem act (hinv : RecvOwner d rs) (hi : rs[i]? = some r) (hs : d.Step l dead blocked r e r') :
    RecvOwner (d.after e dead blocked) (rs.set i r') where
  fresh := hinv.fresh_step hi hs
  unregistered := hinv.unregistered_step hi hs
  uses_registered := hinv.uses_step hi hs
  opening _ hk := hinv.opening_step hi hs hk
  open_first := hinv.open_first_step hi hs
  arrives_first := hinv.arrives_first_step hi hs

/-- A frame arrives. -/
theorem arrive {x : SendItem} (hinv : RecvOwner d rs) (hi : rs[0]? = some .none)
    (hx : RecvDirection.Arrives dead blocked x r') :
    RecvOwner { d with got := d.got ++ [x], dead := dead, blocked := blocked } (rs.set 0 r') := by
  have h : r'.tokens = 0 ∧ r'.uses = false ∧ r' ≠ .opening := by
    cases hx <;> exact ⟨rfl, rfl, by simp⟩
  refine ⟨?_, hinv.unregistered, ?_, ?_, hinv.open_first, ?_⟩
  · rw [total_set_of_eq hi (h.1.trans rfl)]
    exact hinv.fresh
  · refine forall_mem_set hinv.uses_registered fun hu => ?_
    rw [h.2.1] at hu
    cases hu
  · intro k hk
    rcases getElem?_set_cases hk with ⟨-, hr⟩ | ⟨-, hk⟩
    · exact absurd hr.symm h.2.2
    · obtain ⟨hlog, hheld, hown, honly⟩ := hinv.opening k hk
      refine ⟨hlog, hheld, hown, fun j q hj hq => ?_⟩
      rcases getElem?_set_cases hj with ⟨-, rfl⟩ | ⟨-, hj⟩
      · have := RecvRole.uses_of_owns hq
        rw [h.2.1] at this
        cases this
      · exact honly j q hj hq
  · intro j q hj hq
    rcases getElem?_set_cases hj with ⟨rfl, -⟩ | ⟨-, hj⟩
    · rfl
    · exact hinv.arrives_first j q hj hq

/-- An operation starts that does not have the stream. -/
theorem spawn (hinv : RecvOwner d rs) : RecvOwner (d.after .none dead blocked) (rs ++ [.none]) := by
  refine ⟨?_, hinv.unregistered, ?_, ?_, hinv.open_first, ?_⟩
  · rw [total_append]
    exact hinv.fresh
  · exact forall_mem_concat hinv.uses_registered fun hu => by cases hu
  · intro k hk
    rcases getElem?_concat_cases hk with h | hk
    · cases h
    · obtain ⟨hlog, hheld, hown, honly⟩ := hinv.opening k hk
      refine ⟨hlog, hheld, hown, fun j q hj hq => ?_⟩
      rcases getElem?_concat_cases hj with rfl | hj
      · cases hq
      · exact honly j q hj hq
  · intro j q hj hq
    rcases getElem?_concat_cases hj with rfl | hj
    · cases hq
    · exact hinv.arrives_first j q hj hq

/-- An operation starts on the stream: the application holds it, so it is not being opened. -/
theorem borrow (hinv : RecvOwner d rs) (hr : r = .ref ∨ r = .reading)
    (he : e = .none ∨ e = .hold false) (hh : d.cell.reader.held = true) :
    RecvOwner (d.after e dead blocked) (rs ++ [r]) := by
  have hpos := hinv.registered_of_held hh
  have hreg : (d.apply e).registered = d.registered := by rcases he with rfl | rfl <;> rfl
  have halloc : (d.apply e).allocated = d.allocated := by rcases he with rfl | rfl <;> rfl
  have hlog : (d.apply e).log = d.log := by rcases he with rfl | rfl <;> rfl
  have htok : r.tokens = 0 := by rcases hr with rfl | rfl <;> rfl
  refine ⟨?_, fun hz => ?_, ?_, ?_, ?_, ?_⟩
  · show (d.apply e).registered + _ ≤ (d.apply e).allocated.toNat
    rw [total_append, htok, hreg, halloc]
    exact hinv.fresh
  · have hz' : (d.apply e).registered = 0 := hz
    omega
  · show ∀ x ∈ rs ++ [r], x.uses = true → 0 < (d.apply e).registered
    rw [hreg]
    exact forall_mem_concat hinv.uses_registered fun _ => hpos
  · intro k hk
    rcases getElem?_concat_cases hk with rfl | hk
    · rcases hr with hr | hr <;> cases hr
    · have := (hinv.opening k hk).2.1
      rw [hh] at this
      cases this
  · show (d.apply e).log.Pairwise _
    rw [hlog]
    exact hinv.open_first
  · intro j q hj hq
    rcases getElem?_concat_cases hj with rfl | hj
    · rcases hr with rfl | rfl <;> cases hq
    · exact hinv.arrives_first j q hj hq

/-- The outbound task takes a credit. -/
theorem takeCredit (hinv : RecvOwner d rs) (h : d.pending = true) :
    RecvOwner (d.after .takeCredit dead blocked) rs where
  fresh := hinv.fresh
  unregistered hz := by
    have hpos := hinv.registered_of_pending h
    have hz' : d.registered = 0 := hz
    omega
  uses_registered := hinv.uses_registered
  opening := hinv.opening
  open_first := hinv.open_first
  arrives_first := hinv.arrives_first

/-- **A step of the pool keeps the invariant.** -/
theorem poolStep (hinv : RecvOwner d rs) (hs : d.PoolStep l rs dead blocked d' rs') :
    RecvOwner d' rs' := by
  cases hs with
  | act hi hs => exact hinv.act hi hs
  | arrive hi _ hx => exact hinv.arrive hi hx
  | spawn => exact hinv.spawn
  | borrow hr he hh => exact hinv.borrow hr he hh
  | takeCredit h => exact hinv.takeCredit h
  | idle =>
      exact ⟨hinv.fresh, hinv.unregistered, hinv.uses_registered, hinv.opening, hinv.open_first,
        hinv.arrives_first⟩

end RecvOwner

end WebsockMux.Native
