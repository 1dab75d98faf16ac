import WebsockMux.Native.RecvOwner
import WebsockMux.Native.RecvRefine
import WebsockMux.Native.SendInvariant

/-!
# The receive directions of a session

Every step of a session is a step of each of its receive directions (`Moves.recvPoolStep`). So an
invariant of the abstract machine holds in every run (`recv_invariant`); the first one is that of
registration and ownership.
-/

set_option autoImplicit false

namespace WebsockMux.Native

open WebsockMux.Lib WebsockMux.Proto

variable {cfg : Config} {m : Memory} {v v' : View} {who : Option Nat}

/-- The roles of the functions in progress in the receive direction of `id`. -/
def recvRoles (id : StreamId) (ts : List Task) : List RecvRole := ts.map (Task.recvRole id)

/-! ## Accept queues -/

/-- The streams of an accept queue after an access. -/
theorem Accept.mem_uni_apply {x : Accept} {a : AcceptAccess} {i : StreamId}
    (h : i ∈ (x.apply a).uni) : i ∈ x.uni ∨ a = .push i none := by
  cases a with
  | push j h' =>
      cases h' with
      | none =>
          rcases List.mem_append.1 h with h | h
          · exact .inl h
          · cases List.mem_singleton.1 h
            exact .inr rfl
      | some h' => exact .inl h
  | pop bi =>
      cases bi with
      | false => exact .inl (List.mem_of_mem_tail h)
      | true => exact .inl h
  | takeTx bi => cases bi <;> exact .inl h
  | closeRx bi => cases bi <;> exact .inl h

theorem Accept.mem_bi_push {x : Accept} {a : AcceptAccess} {p : Nat × StreamId}
    (h : p ∈ (x.apply a).bi) : p ∈ x.bi ∨ a = .push p.2 (some p.1) := by
  cases a with
  | push j h' =>
      cases h' with
      | none => exact .inl h
      | some h' =>
          rcases List.mem_append.1 h with h | h
          · exact .inl h
          · cases List.mem_singleton.1 h
            exact .inr rfl
  | pop bi =>
      cases bi with
      | false => exact .inl h
      | true => exact .inl (List.mem_of_mem_tail h)
  | takeTx bi => cases bi <;> exact .inl h
  | closeRx bi => cases bi <;> exact .inl h

theorem RecvTable.registered_apply (s : RecvTable) (a : RecvAccess) {id : StreamId}
    (h : id ∈ s.registered) : id ∈ (s.apply a).registered := by
  cases a with
  | register i w => exact List.mem_append_left _ h
  | _ => exact h

theorem Memory.recvRegistered_apply (a : Access) {id : StreamId} (h : id ∈ m.recvs.registered) :
    id ∈ (m.apply a).recvs.registered := by
  cases a with
  | recv b => exact m.recvs.registered_apply b h
  | session clone => cases clone <;> exact h
  | _ => exact h

/-- An access keeps `SharedRecv` when it accepts only registered streams of the peer. -/
theorem Memory.SharedRecv.apply (hsh : m.SharedRecv cfg) {a : Access}
    (ha : ∀ i h, a = .accept (.push i h) →
      i ∈ m.recvs.registered ∧ i.initiatorIsServer ≠ cfg.isServer) :
    (m.apply a).SharedRecv cfg := by
  have hold : ∀ i : StreamId, i ∈ m.recvs.registered ∧ i.initiatorIsServer ≠ cfg.isServer →
      i ∈ (m.apply a).recvs.registered ∧ i.initiatorIsServer ≠ cfg.isServer :=
    fun i hi => ⟨Memory.recvRegistered_apply a hi.1, hi.2⟩
  cases a with
  | accept b =>
      constructor
      · intro i hi
        rcases Accept.mem_uni_apply hi with hi | rfl
        · exact hold i (hsh.uni i hi)
        · exact hold i (ha i none rfl)
      · intro p hp
        rcases Accept.mem_bi_push hp with hp | rfl
        · exact hold p.2 (hsh.bi p hp)
        · exact hold p.2 (ha p.2 (some p.1) rfl)
  | session clone =>
      cases clone <;> exact ⟨fun i hi => hold i (hsh.uni i hi), fun p hp => hold p.2 (hsh.bi p hp)⟩
  | _ => exact ⟨fun i hi => hold i (hsh.uni i hi), fun p hp => hold p.2 (hsh.bi p hp)⟩

/-- Only `handle_frame` puts a stream into an accept queue. -/
theorem Task.eq_acceptSend {t t' : Task} {i : StreamId} {h : Option Nat}
    (hn : t.next cfg m = some (.accept (.push i h), t')) : t = .acceptSend i h := by
  generalize ha : Access.accept (.push i h) = a at hn
  replace hn := Task.steps_of_next hn
  induction hn with
  | acceptSend j x =>
      cases ha
      rfl
  | closeAll c k => cases c <;> cases ha
  | _ => cases ha

/-! ## One move -/

theorem RecvRole.readers_on {r : RecvRole} (h : r.readers = 0) (i id : StreamId) :
    (RecvRole.on i id r).readers = 0 := by
  unfold RecvRole.on
  split_ifs
  · exact h
  · rfl

theorem RecvRole.readers_on_reader {r : RecvRole} (h : r.readers = 1) (i id : StreamId) :
    (RecvRole.on i id r).readers = if some i = some id then 1 else 0 := by
  by_cases hi : i = id
  · rw [RecvRole.on, if_pos hi, if_pos (congrArg some hi), h]
  · rw [RecvRole.on, if_neg hi, if_neg (fun hs => hi (Option.some.inj hs))]
    rfl

theorem Ret.readers_recvRole (id : StreamId) (k : Ret) : (k.recvRole id).readers = 0 := by
  have hl : (k.recvRole id).light = true := k.recvRole_light
  rcases RecvRole.light_cases hl with h | h <;> rw [h] <;> rfl

theorem SendSite.readers_recvRole (id : StreamId) (s : SendSite) :
    (s.recvRole id).readers = 0 := by
  cases s <;> first | rfl | exact RecvRole.readers_on rfl _ _

theorem TrySite.readers_recvRole (id : StreamId) (k : Ret) (s : TrySite) :
    (s.recvRole id k).readers = 0 := by
  cases s with
  | dropRecv i =>
      simp only [TrySite.recvRole]
      split_ifs
      · rfl
      · exact k.readers_recvRole id
  | _ => exact k.readers_recvRole id

/-- The roles of readers are those of the functions that read. -/
theorem Task.readers_recvRole (id : StreamId) (t : Task) :
    (t.recvRole id).readers = t.reads id := by
  cases t with
  | anyOf fs c =>
      cases c with
      | send s => exact s.readers_recvRole id
      | trySend s k => exact s.readers_recvRole id k
      | dropSend h i k => exact k.readers_recvRole id
      | _ => rfl
  | reserve s => exact s.readers_recvRole id
  | publish s => exact s.readers_recvRole id
  | trySend s k => exact s.readers_recvRole id k
  | storeShutdown k => exact k.readers_recvRole id
  | cancel k => exact k.readers_recvRole id
  | closeAll c k => exact k.readers_recvRole id
  | dropSend h i k => exact k.readers_recvRole id
  | dropSendRemove h i k => exact k.readers_recvRole id
  | releaseHandle h k => exact k.readers_recvRole id
  | closeReceiver i k => exact k.readers_recvRole id
  | dropTx i k => exact k.readers_recvRole id
  | dropRecv i k =>
      simp only [Task.recvRole]
      split_ifs
      · rfl
      · exact k.readers_recvRole id
  | dropRecvSwap i k =>
      simp only [Task.recvRole]
      split_ifs
      · rfl
      · exact k.readers_recvRole id
  | registerSendFlow dir i => cases dir <;> first | rfl | exact RecvRole.readers_on rfl _ _
  | openReturn dir i => cases dir <;> first | rfl | exact RecvRole.readers_on rfl _ _
  | undoFlow i bi => cases bi <;> first | rfl | exact RecvRole.readers_on rfl _ _
  | read i api n => exact RecvRole.readers_on_reader rfl i id
  | storeMax i target => exact RecvRole.readers_on_reader rfl i id
  | queueCredit i target => exact RecvRole.readers_on_reader rfl i id
  | _ => first | rfl | exact RecvRole.readers_on rfl _ _

theorem recvRoles_readers (id : StreamId) (ts : List Task) :
    total RecvRole.readers (recvRoles id ts) = total (Task.reads id) ts := by
  unfold total recvRoles
  rw [List.map_map]
  congr 1
  exact List.map_congr_left fun t _ => t.readers_recvRole id

/-- What the inbound task takes up is an arrival in the direction of the frame. -/
theorem recvArrives_handleFrame {f : Frame} {x : SendItem} {dead blocked : Prop} (id : StreamId)
    (hx : sendItem id f = some x) (hd : (handleFrame cfg f).doomed = true → dead)
    (hb : (handleFrame cfg f).failing = true → blocked) :
    RecvDirection.Arrives dead blocked x ((handleFrame cfg f).recvRole id) := by
  cases f with
  | stream i data fin =>
      have hi : i = id ∧ SendItem.stream data fin = x := by
        simpa [sendItem] using hx
      obtain ⟨rfl, rfl⟩ := hi
      simp only [handleFrame] at hd hb ⊢
      split_ifs at hd hb ⊢
      · exact .refuse data fin (hd rfl) (hb rfl)
      · rw [Task.recvRole, RecvRole.on, if_pos rfl]
        exact .stream data fin
  | resetStream i code =>
      have hi : i = id ∧ SendItem.reset = x := by
        simpa [sendItem] using hx
      obtain ⟨rfl, rfl⟩ := hi
      rw [handleFrame, Task.recvRole, RecvRole.on, if_pos rfl]
      exact .reset
  | _ => cases hx

theorem recvRole_handleFrame {f : Frame} (id : StreamId) (hx : sendItem id f = none) :
    (handleFrame cfg f).recvRole id = .none := by
  cases f with
  | stream i data fin =>
      have hi : i ≠ id := by
        rintro rfl
        simp [sendItem] at hx
      simp only [handleFrame]
      split_ifs
      · rfl
      · rw [Task.recvRole, RecvRole.on, if_neg hi]
  | resetStream i code =>
      have hi : i ≠ id := by
        rintro rfl
        simp [sendItem] at hx
      rw [handleFrame, Task.recvRole, RecvRole.on, if_neg hi]
  | _ =>
      simp only [handleFrame]
      (try split_ifs) <;> rfl

/-- The accesses of the loops: only a taken credit concerns a receive direction. -/
theorem LoopAccess.recvPoolStep {a : Access} (ha : LoopAccess v.mem a) (id : StreamId)
    (rs : List RecvRole) (dead blocked : Prop) :
    (v.recvDirection cfg id).PoolStep cfg.limits rs dead blocked
      ((v.recvDirection cfg id).after (a.recvChange cfg v.mem id) dead blocked) rs := by
  cases ha with
  | @takeCredit i h =>
      simp only [Access.recvChange, RecvAccess.change, RecvChange.on]
      split_ifs with hi
      · exact .takeCredit (decide_eq_true (hi ▸ h))
      · exact .idle
  | _ => exact .idle

/-- What an operation of the application is in the receive direction of `id` when it starts. -/
theorem Call.recvPoolStep {c : Call} {u : Use} {a : Access} {t : Task}
    (h : c.start v.mem = some (u, a, t)) (id : StreamId) (rs : List RecvRole) (dead blocked : Prop)
    (hone : total RecvRole.readers (rs ++ [t.recvRole id]) ≤ 1) :
    (v.recvDirection cfg id).PoolStep cfg.limits rs dead blocked
      ((v.recvDirection cfg id).after (a.recvChange cfg v.mem id) dead blocked)
      (rs ++ [t.recvRole id]) := by
  cases Call.starts_of_start h with
  | @read i hh api n =>
      -- the stream is held, or another one is concerned
      by_cases hi : i = id
      · subst hi
        simp only [Task.recvRole, RecvRole.on, if_pos] at hone ⊢
        exact .borrow (.inr rfl) (.inl rfl) hh hone
      · simp only [Task.recvRole, RecvRole.on, if_neg hi]
        exact .spawn
  | @stop i hh code hc =>
      by_cases hi : i = id
      · subst hi
        simp only [Task.recvRole, RecvRole.on, if_pos] at hone ⊢
        exact .borrow (.inl rfl) (.inl rfl) hh hone
      · simp only [Task.recvRole, RecvRole.on, if_neg hi]
        exact .spawn
  | @dropRecv i hh =>
      by_cases hi : i = id
      · subst hi
        simp only [Task.recvRole, Access.recvChange, RecvAccess.change, RecvChange.on, if_pos]
          at hone ⊢
        exact .borrow (.inl rfl) (.inr rfl) hh hone
      · simp only [Task.recvRole, Ret.recvRole, Access.recvChange, RecvAccess.change, RecvChange.on,
          if_neg hi]
        exact .spawn
  | _ => exact .spawn

theorem Call.start_ne_id {c : Call} {u : Use} {a : Access} {t : Task} {b : IdAccess}
    (h : c.start m = some (u, a, t)) : a ≠ .id b := by
  rintro rfl
  cases Call.starts_of_start h

theorem Call.start_ne_push {c : Call} {u : Use} {a : Access} {t : Task} {i : StreamId}
    {x : Option Nat} (h : c.start m = some (u, a, t)) : a ≠ .accept (.push i x) := by
  rintro rfl
  cases Call.starts_of_start h

/-- **A move is a step of every receive direction.** -/
theorem Moves.recvPoolStep (h : Moves cfg v who v') (hctl : ControlInv cfg v)
    (hsh : v.mem.SharedRecv cfg) (id : StreamId)
    (hown : RecvOwner (v.recvDirection cfg id) (recvRoles id v.tasks))
    (hone : total RecvRole.readers (recvRoles id v'.tasks) ≤ 1) :
    (v.recvDirection cfg id).PoolStep cfg.limits (recvRoles id v.tasks) (Doomed v'.mem v'.tasks)
      (Blocked v') (v'.recvDirection cfg id) (recvRoles id v'.tasks) := by
  have hat : ∀ {i : Nat} {t : Task}, v.tasks[i]? = some t →
      (recvRoles id v.tasks)[i]? = some (t.recvRole id) := by
    intro i t hi
    simp [recvRoles, hi]
  have hset : ∀ (i : Nat) (t' : Task), recvRoles id (v.tasks.set i t') =
      (recvRoles id v.tasks).set i (t'.recvRole id) := by
    intro i t'
    simp [recvRoles, List.map_set]
  have hmem : ∀ {i : Nat} {t t' : Task}, v.tasks[i]? = some t → t' ∈ v.tasks.set i t' :=
    fun hi => List.mem_set (List.getElem?_eq_some_iff.1 hi).1 _
  have hdead : Doomed v.mem v.tasks → Doomed v'.mem v'.tasks := fun hd => hd.moves h
  have happly : ∀ a, v'.mem = v.mem.apply a →
      v'.handled.filterMap (sendItem id) = v.handled.filterMap (sendItem id) →
      (∀ b, a = .id b → v.mem.ids.Advances b) →
      v'.recvDirection cfg id = (v.recvDirection cfg id).after (a.recvChange cfg v.mem id)
        (Doomed v'.mem v'.tasks) (Blocked v') :=
    fun a hm hh ha => View.recvDirection_apply hm hh ha
  -- a function without a part in the direction goes on to another one
  have hquiet : ∀ {i : Nat} {t t' : Task}, v.tasks[i]? = some t →
      t.recvRole id = .none ∧ t'.recvRole id = .none →
      recvRoles id (v.tasks.set i t') = recvRoles id v.tasks := by
    intro i t t' hi ht
    rw [hset, ht.2, ← ht.1]
    exact set_same (hat hi)
  cases h with
  | @next i t t' a hi hn =>
      have htm := List.mem_of_getElem? hi
      have hwf := hctl.wf t htm
      rw [happly a rfl rfl fun b hb => Task.advances_next hwf (hb ▸ hn), hset]
      refine .act (hat hi) (Task.recvStep hwf (hctl.names t htm) ?_ hsh (fun hc => hdead (.inl hc))
        (fun hrx => hdead (hctl.rxDropped hrx)) (fun hd => .inr ⟨t', hmem hi, hd⟩) ?_ hn)
      · exact (hctl.justified t htm).mono (fun hc => hc) hdead
      · intro harr hf
        have h0 := hown.arrives_first i _ (hat hi) harr
        subst h0
        exact .inr ⟨t', by rw [List.getElem?_set_self', hi]; rfl, hf⟩
  | @cancel who i t t' hi hc =>
      rw [happly .skip rfl rfl nofun, hset]
      exact .act (hat hi) (Task.recvStep_cancelled (fun hd => .inr ⟨t', hmem hi, hd⟩) hc)
  | @timeout who i t t' hi hc =>
      obtain ⟨h, h'⟩ : t.recvRole id = .none ∧ t'.recvRole id = .none := Task.recvRole_timedOut hc
      rw [happly .skip rfl rfl nofun, hquiet hi ⟨h, h'⟩]
      exact .idle
  | @abort who t t' hi ha =>
      rw [happly .skip rfl rfl nofun, hset]
      exact .act (hat hi) (Task.recvStep_aborted (fun hd => .inr ⟨t', hmem hi, hd⟩) ha)
  | @turn who t t' fs b hi ht =>
      cases ht with
      | @frame f hl hf =>
          cases hx : sendItem id f with
          | none =>
              have hgot : (v.handled ++ [f]).filterMap (sendItem id) =
                  v.handled.filterMap (sendItem id) := by simp [hx]
              rw [happly .skip rfl hgot nofun, hquiet hi ⟨rfl, recvRole_handleFrame id hx⟩]
              exact .idle
          | some x =>
              have hgot : (v.handled ++ [f]).filterMap (sendItem id) =
                  v.handled.filterMap (sendItem id) ++ [x] := by simp [hx]
              have h0 : (v.tasks.set 0 (handleFrame cfg f))[0]? = some (handleFrame cfg f) := by
                rw [List.getElem?_set_self', hi]
                rfl
              rw [hset]
              unfold View.recvDirection
              rw [hgot]
              exact .arrive (hat hi) (not_blocked_of_done hl hi) (recvArrives_handleFrame id hx
                (fun hd => .inr ⟨_, hmem hi, hd⟩) (fun hf => .inr ⟨_, h0, hf⟩))
      | refuse =>
          rw [happly .skip rfl rfl nofun, hquiet hi ⟨rfl, rfl⟩]
          exact .idle
      | returned =>
          rw [happly .skip rfl rfl nofun, hquiet hi ⟨rfl, rfl⟩]
          exact .idle
      | failed =>
          rw [happly .skip rfl rfl nofun, hquiet hi ⟨rfl, rfl⟩]
          exact .idle
      | leave =>
          rw [happly .skip rfl rfl nofun, hquiet hi ⟨rfl, rfl⟩]
          exact .idle
  | exit hi =>
      rw [happly (.chan .dropRx) rfl rfl nofun, hquiet hi ⟨rfl, rfl⟩]
      exact .idle
  | @spawn who c u a t hc =>
      rw [happly a rfl rfl ?_]
      · have happ : recvRoles id (v.tasks ++ [t]) = recvRoles id v.tasks ++ [t.recvRole id] := by
          simp [recvRoles]
        rw [happ]
        exact Call.recvPoolStep hc id _ _ _ (happ ▸ hone)
      · rintro b rfl
        exact absurd rfl (Call.start_ne_id hc)
  | @loop who a b ha hb =>
      rw [happly a rfl rfl ?_]
      · exact ha.recvPoolStep id _ _ _
      · rintro b rfl
        cases ha

/-! ## Whole runs -/

/-- What holds of every receive direction of a session. -/
structure RecvsInv (cfg : Config) (v : View) : Prop where
  control : ControlInv cfg v
  shared : v.mem.SharedRecv cfg
  owner : ∀ id, RecvOwner (v.recvDirection cfg id) (recvRoles id v.tasks)

/-- A receive direction at the start of a session. -/
def RecvDirection.initial (own : Bool) (dead blocked : Prop) : RecvDirection where
  own := own
  allocated := false
  registered := 0
  inTable := false
  pending := false
  cell := {}
  log := []
  got := []
  dead := dead
  blocked := blocked

theorem RecvOwner.initial (own : Bool) (dead blocked : Prop) :
    RecvOwner (.initial own dead blocked) [.none, .none] where
  fresh := Nat.zero_le _
  unregistered _ := ⟨rfl, rfl, rfl, rfl⟩
  uses_registered := by simp [RecvRole.uses, RecvRole.owns]
  opening := by
    intro i hi
    have := List.mem_of_getElem? hi
    simp at this
  open_first := .nil
  arrives_first := by
    intro i r hi ha
    have := List.mem_of_getElem? hi
    simp only [List.mem_cons, List.not_mem_nil, or_false, or_self] at this
    subst this
    cases ha

theorem View.recvDirection_init (cfg : Config) (id : StreamId) :
    ({} : Session).view.recvDirection cfg id =
      .initial (decide (id.initiatorIsServer = cfg.isServer))
        (Doomed ({} : Session).mem ({} : Session).tasks) (Blocked ({} : Session).view) := by
  have hf : ({} : Ids).frontier cfg id = 0 := by
    unfold Ids.frontier Ids.next Ids.nextPeer
    split_ifs <;> cases id.dir <;> rfl
  simp [View.recvDirection, RecvDirection.initial, Session.view, hf]

theorem RecvsInv.moves (hinv : RecvsInv cfg v) (h : Moves cfg v who v')
    (hone : ∀ id, total RecvRole.readers (recvRoles id v'.tasks) ≤ 1) : RecvsInv cfg v' where
  control := hinv.control.moves h
  owner id := (hinv.owner id).poolStep
    (h.recvPoolStep hinv.control hinv.shared id (hinv.owner id) (hone id))
  shared := by
    -- a stream that is put into an accept queue is that of a reference
    have hpush : ∀ {t : Task} {i : StreamId} {x : Option Nat}, t ∈ v.tasks → t = .acceptSend i x →
        i ∈ v.mem.recvs.registered ∧ i.initiatorIsServer ≠ cfg.isServer := by
      rintro t i x ht rfl
      have hrole : (Task.acceptSend i x).recvRole i = .ref := by
        rw [Task.recvRole, RecvRole.on, if_pos rfl]
      have huse := (hinv.owner i).uses_registered .ref
        (hrole ▸ List.mem_map_of_mem (f := Task.recvRole i) ht) rfl
      exact ⟨List.count_pos_iff.1 huse, (hinv.control.names _ ht).1⟩
    cases h with
    | next hi hn =>
        refine hinv.shared.apply fun i x ha => ?_
        subst ha
        exact hpush (List.mem_of_getElem? hi) (Task.eq_acceptSend hn)
    | exit hi => exact ⟨hinv.shared.uni, hinv.shared.bi⟩
    | spawn hc =>
        refine hinv.shared.apply fun i x ha => ?_
        subst ha
        exact absurd rfl (Call.start_ne_push hc)
    | loop ha hb =>
        refine hinv.shared.apply fun i x he => ?_
        subst he
        cases ha
    | _ => exact hinv.shared

/-- **The receive directions of every run** keep the invariant of ownership. -/
theorem recvsInv_of_reachable {ok : Session → Label → Prop} {s : Session}
    (hr : Reachable (Session.step cfg) ok {} s) : RecvsInv cfg s.view := by
  induction hr with
  | init =>
      have hinit : Reachable (Session.step cfg) anyStep {} {} := .init
      refine ⟨controlInv_of_reachable hinit, ⟨nofun, nofun⟩, fun id => ?_⟩
      rw [View.recvDirection_init]
      exact .initial _ _ _
  | step hr hok hs ih =>
      refine ih.moves (Session.moves_of_step hs) fun id => ?_
      rw [recvRoles_readers]
      exact reads_le_one (hr.step hok hs) id

/-- **A step of a run is a step of every receive direction.** -/
theorem recvPoolStep_of_step {ok : Session → Label → Prop} {s s' : Session} {l : Label}
    (hr : Reachable (Session.step cfg) ok {} s) (hok : ok s l) (hs : s.step cfg l = some s')
    (id : StreamId) :
    (s.view.recvDirection cfg id).PoolStep cfg.limits (recvRoles id s.tasks)
      (Doomed s'.mem s'.tasks) (Blocked s'.view) (s'.view.recvDirection cfg id)
      (recvRoles id s'.tasks) := by
  have hinv := recvsInv_of_reachable hr
  have hone := reads_le_one (hr.step hok hs) id
  rw [← recvRoles_readers] at hone
  exact (Session.moves_of_step hs).recvPoolStep hinv.control hinv.shared id (hinv.owner id) hone

/-- **An invariant of the abstract machine holds in every run.** -/
theorem recv_invariant {P : RecvDirection → List RecvRole → Prop}
    (hinit : ∀ own dead blocked, P (.initial own dead blocked) [.none, .none])
    (hstep : ∀ {d d' rs rs' dead blocked}, RecvOwner d rs → (d.dead → dead) →
      (d.blocked → blocked) → P d rs → d.PoolStep cfg.limits rs dead blocked d' rs' → P d' rs')
    {ok : Session → Label → Prop} {s : Session} (hr : Reachable (Session.step cfg) ok {} s)
    (id : StreamId) : P (s.view.recvDirection cfg id) (recvRoles id s.tasks) := by
  induction hr with
  | init =>
      rw [View.recvDirection_init]
      exact hinit _ _ _
  | @step s s' l hr hok hs ih =>
      have hmoves := Session.moves_of_step hs
      exact hstep ((recvsInv_of_reachable hr).owner id) (fun hd => Doomed.moves hd hmoves)
        (fun hb => Blocked.moves hb hmoves) ih (recvPoolStep_of_step hr hok hs id)

end WebsockMux.Native
