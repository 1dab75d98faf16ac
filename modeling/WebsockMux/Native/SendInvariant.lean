import WebsockMux.Native.SendRefine

/-!
# Send directions over whole runs

Every move of a session is, for every stream identifier, a step of the abstract send direction with
its pool of roles (`Moves.sendPoolStep`). So the invariant `SendInv` holds in every state of every
session, for every identifier and whatever the peer sends (`sendsInv_of_reachable`).
-/

set_option autoImplicit false

namespace WebsockMux.Native

open WebsockMux.Lib WebsockMux.Proto

variable {cfg : Config} {m : Memory} {v v' : View} {who : Option Nat}

/-- The roles of the functions in progress in the send direction of `id`. -/
def sendRoles (id : StreamId) (ts : List Task) : List SendRole := ts.map (Task.sendRole id)

/-- What holds of the memory and the functions in progress of a session, for its send directions. -/
structure SendsInv (cfg : Config) (m : Memory) (ts : List Task) : Prop where
  wf : ∀ t ∈ ts, t.WF cfg
  shared : m.SharedRegistered
  send : ∀ id, SendInv (m.sendDirection cfg id) (sendRoles id ts)

/-! ## Streams that other functions can get hold of -/

theorem SendTable.registered_apply (s : SendTable) (a : SendAccess) {id : StreamId}
    (h : id ∈ s.registered) : id ∈ (s.apply a).registered := by
  cases a with
  | register i => exact List.mem_append_left _ h
  | _ => exact h

/-- The handles after an access are the old ones, up to their flags, and at most a new one. -/
theorem SendHandle.id_of_mem_apply {hs : List SendHandle} {acks : Nat} {a : HandleAccess}
    {x : SendHandle} (hx : x ∈ SendHandle.apply hs acks a) :
    (∃ y ∈ hs, y.id = x.id) ∨ ∃ held, a = .new x.id held := by
  have hmod : ∀ {g : SendHandle → SendHandle} {n : Nat}, x ∈ hs.modify n g →
      (∀ y, (g y).id = y.id) → ∃ y ∈ hs, y.id = x.id := by
    intro g n hx hg
    obtain ⟨j, hj, rfl⟩ := List.getElem_of_mem hx
    rw [List.length_modify] at hj
    refine ⟨hs[j], List.getElem_mem hj, ?_⟩
    rw [List.getElem_modify]
    split_ifs
    · exact (hg _).symm
    · rfl
  cases a with
  | new i held =>
      rcases List.mem_append.1 hx with hx | hx
      · exact .inl ⟨x, hx, rfl⟩
      · cases List.mem_singleton.1 hx
        exact .inr ⟨held, rfl⟩
  | _ => exact .inl (hmod hx fun _ => rfl)

theorem Accept.mem_bi_apply {x : Accept} {a : AcceptAccess} {p : Nat × StreamId}
    (hp : p ∈ (x.apply a).bi) : p ∈ x.bi ∨ a = .push p.2 (some p.1) := by
  cases a with
  | push i h =>
      cases h with
      | none => exact .inl hp
      | some h =>
          rcases List.mem_append.1 hp with hp | hp
          · exact .inl hp
          · cases List.mem_singleton.1 hp
            exact .inr rfl
  | pop bi =>
      cases bi with
      | false => exact .inl hp
      | true => exact .inl (List.mem_of_mem_tail hp)
  | takeTx bi => cases bi <;> exact .inl hp
  | closeRx bi => cases bi <;> exact .inl hp

/-- An access keeps `SharedRegistered` when it shares only a registered stream. -/
theorem Memory.SharedRegistered.apply (cfg : Config) (hsh : m.SharedRegistered) {a : Access}
    (ha : ∀ id, a.sendEvent cfg m id = .share → id ∈ m.sends.registered) :
    (m.apply a).SharedRegistered := by
  cases a with
  | send b =>
      exact ⟨fun x hx => m.sends.registered_apply b (hsh.handles x hx),
        fun p hp => m.sends.registered_apply b (hsh.accept p hp)⟩
  | handle b =>
      refine ⟨fun x hx => ?_, hsh.accept⟩
      rcases SendHandle.id_of_mem_apply hx with ⟨y, hy, hyx⟩ | ⟨held, rfl⟩
      · exact hyx ▸ hsh.handles y hy
      · exact ha x.id (if_pos rfl)
  | accept b =>
      refine ⟨hsh.handles, fun p hp => ?_⟩
      rcases Accept.mem_bi_apply hp with hp | rfl
      · exact hsh.accept p hp
      · exact ha p.2 (if_pos rfl)
  | session clone => cases clone <;> exact ⟨hsh.handles, hsh.accept⟩
  | _ => exact ⟨hsh.handles, hsh.accept⟩

/-! ## One move -/

theorem Task.advances_next {t t' : Task} {b : IdAccess} (hwf : t.WF cfg)
    (h : t.next cfg m = some (.id b, t')) : m.ids.Advances b := by
  generalize ha : Access.id b = a at h
  replace h := Task.steps_of_next h
  induction h with
  | validatePeer i bi hv =>
      cases ha
      exact ⟨of_decide_eq_true hv, hwf.2.2⟩
  | fetchAdd dir | fetchAddFailed dir =>
      cases ha
      trivial
  | closeAll c k => cases c <;> cases ha
  | _ => cases ha

/-- The accesses of the loops concern a send direction only when they start a shutdown. -/
theorem LoopAccess.sendPoolStep {a : Access} (ha : LoopAccess m a) (id : StreamId)
    (rs : List SendRole) :
    SendDirection.PoolStep (m.sendDirection cfg id) rs ((m.apply a).sendDirection cfg id) rs := by
  cases ha with
  | shutdownStarted => exact .shutdown
  | _ => exact .idle

theorem LoopAccess.sendEvent_ne {a : Access} (ha : LoopAccess m a) (id : StreamId) :
    a.sendEvent cfg m id ≠ .share := by
  cases ha with
  | _ => exact fun h => by cases h

theorem SendRole.light_on_ref (i id : StreamId) : (SendRole.on i id .ref).light = true := by
  unfold SendRole.on
  split_ifs <;> rfl

theorem SendRole.eq_of_uses_on {i id : StreamId} {r : SendRole}
    (h : (SendRole.on i id r).uses = true) : i = id := by
  unfold SendRole.on at h
  split_ifs at h with hi
  · exact hi
  · cases h

/-- What the start of a call means for a send direction. -/
structure Call.SendStart (cfg : Config) (m : Memory) (a : Access) (t : Task) (id : StreamId) :
    Prop where
  light : (t.sendRole id).light = true
  uses : (t.sendRole id).uses = true → id ∈ m.sends.registered
  direction : (m.apply a).sendDirection cfg id = m.sendDirection cfg id
  share : a.sendEvent cfg m id = .share → id ∈ m.sends.registered

theorem Call.SendStart.quiet {t : Task} {id : StreamId} (ht : t.sendRole id = .none) {a : Access}
    (hd : (m.apply a).sendDirection cfg id = m.sendDirection cfg id)
    (ha : a.sendEvent cfg m id = .none) : Call.SendStart cfg m a t id where
  light := by rw [ht]; rfl
  uses h := by rw [ht] at h; cases h
  direction := hd
  share h := by rw [ha] at h; cases h

/-- A call that keeps a reference to the stream of its handle. -/
theorem Call.SendStart.ref {t : Task} {i id : StreamId} (hi : i ∈ m.sends.registered)
    (ht : t.sendRole id = .on i id .ref) {a : Access}
    (hd : (m.apply a).sendDirection cfg id = m.sendDirection cfg id)
    (ha : a.sendEvent cfg m id = .none) : Call.SendStart cfg m a t id where
  light := by rw [ht]; exact SendRole.light_on_ref i id
  uses h := by
    rw [ht] at h
    exact SendRole.eq_of_uses_on h ▸ hi
  direction := hd
  share h := by rw [ha] at h; cases h

theorem Call.send_start {c : Call} {u : Use} {a : Access} {t : Task}
    (hsh : m.SharedRegistered) (h : c.start m = some (u, a, t)) (id : StreamId) :
    Call.SendStart cfg m a t id := by
  have hreg : ∀ {k : Nat} {x : SendHandle}, m.handles[k]? = some x → x.id ∈ m.sends.registered :=
    fun hx => hsh.handles _ (List.mem_of_getElem? hx)
  cases Call.starts_of_start h with
  | write hx hh data => exact .ref (hreg hx) rfl rfl rfl
  | finish hx hh => exact .ref (hreg hx) rfl rfl rfl
  | reset hx hh code => exact .ref (hreg hx) rfl rfl rfl
  | pollWrite hx hh data => exact .ref (hreg hx) rfl rfl rfl
  | pollFlush hx hh => exact .ref (hreg hx) rfl rfl rfl
  | pollShutdown hx hh => exact .ref (hreg hx) rfl rfl rfl
  | dropSend hx hh => exact .ref (hreg hx) rfl rfl rfl
  | cloneSend hx hh =>
      refine ⟨rfl, fun h => (by cases h), rfl, fun hs => ?_⟩
      -- the clone is shared, but its stream is that of an old handle
      simp only [Access.sendEvent, SendEvent.on] at hs
      split_ifs at hs with hid
      exact hid ▸ hreg hx
  | _ => exact .quiet rfl rfl rfl

/-- **A move is a step of the pool**, for every stream identifier. -/
theorem Moves.sendPoolStep (hinv : SendsInv cfg v.mem v.tasks) (h : Moves cfg v who v')
    (id : StreamId) :
    SendDirection.PoolStep (v.mem.sendDirection cfg id) (sendRoles id v.tasks)
      (v'.mem.sendDirection cfg id) (sendRoles id v'.tasks) := by
  have hat : ∀ {i : Nat} {t : Task}, v.tasks[i]? = some t →
      (sendRoles id v.tasks)[i]? = some (t.sendRole id) := by
    intro i t hi
    simp [sendRoles, hi]
  have hset : ∀ (i : Nat) (t' : Task),
      sendRoles id (v.tasks.set i t') = (sendRoles id v.tasks).set i (t'.sendRole id) := by
    intro i t'
    simp [sendRoles, List.map_set]
  -- a function without a part in the direction goes on to another one
  have hquiet : ∀ {i : Nat} {t t' : Task}, v.tasks[i]? = some t →
      t.sendRole id = .none ∧ t'.sendRole id = .none →
      sendRoles id (v.tasks.set i t') = sendRoles id v.tasks := by
    intro i t t' hi ht
    rw [hset, ht.2, ← ht.1]
    exact set_same (hat hi)
  cases h with
  | next hi hn =>
      have hwf := hinv.wf _ (List.mem_of_getElem? hi)
      rw [hset, Memory.sendDirection_apply cfg id v.mem
        (fun b hb => Task.advances_next hwf (hb ▸ hn))]
      exact .act (hat hi) (Task.sendStep hwf hinv.shared hn)
  | cancel hi hc =>
      rw [hset]
      exact .act (e := .none) (hat hi) (Task.sendStep_cancelled hc)
  | @timeout who i t t' hi hc =>
      rw [hset]
      obtain ⟨h, h'⟩ : t.sendRole id = .none ∧ t'.sendRole id = .none := Task.sendRole_timedOut hc
      exact .act (e := .none) (hat hi) (by rw [h, h']; exact .stay _)
  | abort hi ha =>
      rw [hset]
      exact .act (e := .none) (hat hi) (Task.sendStep_aborted ha)
  | turn hi ht =>
      rw [hquiet hi ht.sendRole]
      exact .idle
  | exit hi =>
      rw [hquiet hi ⟨rfl, rfl⟩]
      exact .idle
  | spawn hc =>
      have hst : Call.SendStart cfg v.mem _ _ id := Call.send_start hinv.shared hc id
      rw [hst.direction, show sendRoles id (v.tasks ++ [_]) = sendRoles id v.tasks ++ [_] from by
        simp [sendRoles]; rfl]
      exact .spawn hst.light fun hu => List.count_pos_iff.2 (hst.uses hu)
  | loop ha hb => exact ha.sendPoolStep id _

/-! ## Whole runs -/

/-- **A move keeps the invariant.** -/
theorem SendsInv.moves (hinv : SendsInv cfg v.mem v.tasks) (h : Moves cfg v who v') :
    SendsInv cfg v'.mem v'.tasks where
  wf := h.wf hinv.wf
  send id := (hinv.send id).poolStep (h.sendPoolStep hinv id)
  shared := by
    cases h with
    | next hi hn =>
        refine hinv.shared.apply cfg fun id hs => ?_
        have hst : SendDirection.Step (v.mem.sendDirection cfg id) _ _ _ :=
          Task.sendStep (hinv.wf _ (List.mem_of_getElem? hi)) hinv.shared hn
        have hmem := List.mem_map_of_mem (f := Task.sendRole id) (List.mem_of_getElem? hi)
        rw [hs] at hst
        exact List.count_pos_iff.1 ((hinv.send id).uses_registered _ hmem hst.uses_of_share)
    | cancel hi hc => exact hinv.shared
    | timeout hi hc => exact hinv.shared
    | abort hi ha => exact hinv.shared
    | turn hi ht => exact hinv.shared
    | exit hi => exact ⟨hinv.shared.handles, hinv.shared.accept⟩
    | spawn hc =>
        refine hinv.shared.apply cfg fun id => ?_
        have hst : Call.SendStart cfg v.mem _ _ id := Call.send_start hinv.shared hc id
        exact hst.share
    | loop ha hb =>
        exact hinv.shared.apply cfg fun id hs => absurd hs (ha.sendEvent_ne id)

theorem Memory.sendDirection_init (cfg : Config) (id : StreamId) :
    ({} : Memory).sendDirection cfg id = {} := by
  have hf : ({} : Ids).frontier cfg id = 0 := by
    unfold Ids.frontier Ids.next Ids.nextPeer
    split_ifs <;> cases id.dir <;> rfl
  simp [Memory.sendDirection, SendTable.direction, hf]

theorem SendsInv.init (cfg : Config) : SendsInv cfg {} [.done, .done] where
  wf := by
    intro t ht
    simp only [List.mem_cons, List.not_mem_nil, or_false, or_self] at ht
    rw [ht]
    trivial
  shared := ⟨fun x hx => (by cases hx), fun p hp => (by cases hp)⟩
  send id := by
    rw [Memory.sendDirection_init]
    exact SendInv.init

/-- **The invariant of send directions** holds in every state of every run. -/
theorem sendsInv_of_reachable {ok : Session → Label → Prop} {s : Session}
    (hr : Reachable (Session.step cfg) ok {} s) : SendsInv cfg s.mem s.tasks :=
  hr.invariant (I := fun s => SendsInv cfg s.mem s.tasks) (SendsInv.init cfg)
    fun _ hinv _ hs => hinv.moves (Session.moves_of_step hs)

/-- **A step of a run is a step of every send direction.** -/
theorem sendPoolStep_of_step {ok : Session → Label → Prop} {s s' : Session} {l : Label}
    (hr : Reachable (Session.step cfg) ok {} s) (hs : s.step cfg l = some s') (id : StreamId) :
    (s.mem.sendDirection cfg id).PoolStep (sendRoles id s.tasks) (s'.mem.sendDirection cfg id)
      (sendRoles id s'.tasks) :=
  (Session.moves_of_step hs).sendPoolStep (sendsInv_of_reachable hr) id

/-- **An invariant of the abstract machine holds in every run.** -/
theorem send_invariant {P : SendDirection → List SendRole → Prop} (hinit : P {} [.none, .none])
    (hstep : ∀ {d d' rs rs'}, SendInv d rs → P d rs → d.PoolStep rs d' rs' → P d' rs')
    {ok : Session → Label → Prop} {s : Session} (hr : Reachable (Session.step cfg) ok {} s)
    (id : StreamId) : P (s.mem.sendDirection cfg id) (sendRoles id s.tasks) := by
  induction hr with
  | init =>
      have hd : (({} : Session).mem).sendDirection cfg id = {} := Memory.sendDirection_init cfg id
      rw [hd]
      exact hinit
  | step hr _ hs ih =>
      exact hstep ((sendsInv_of_reachable hr).send id) ih (sendPoolStep_of_step hr hs id)

end WebsockMux.Native
