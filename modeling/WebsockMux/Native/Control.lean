import WebsockMux.Native.Doomed

/-!
# What a control point says about the session

Where a function stands tells more than its own state: which identifiers it can carry
(`Task.Names`), that the session ends where an error path is taken (`Task.Justified`), and that the
inbound task will handle no further frame once a call of `handle_frame` has failed (`Blocked`).
-/

set_option autoImplicit false

namespace WebsockMux.Native

open WebsockMux.Lib WebsockMux.Proto

variable {cfg : Config} {m : Memory} {v v' : View} {who : Option Nat}

/-! ## Identifiers -/

/-- An identifier of a stream that this session opens, or that its peer opens. -/
def IsLocal (cfg : Config) (dir : StreamDir) (id : StreamId) : Prop :=
  id.initiatorIsServer = cfg.isServer ∧ id.dir = dir

def IsRemote (cfg : Config) (dir : StreamDir) (id : StreamId) : Prop :=
  id.initiatorIsServer ≠ cfg.isServer ∧ id.dir = dir

/-- The direction of a stream that is opened for one or both ways. -/
def dirOf (bi : Bool) : StreamDir := if bi then .bi else .uni

/-- The identifiers of a call of `send_frame`. -/
def SendSite.Names (cfg : Config) : SendSite → Prop
  | .openUni id => IsLocal cfg .uni id
  | .openBi id => IsLocal cfg .bi id
  | .openCredit id => IsLocal cfg .bi id
  | .inboundCredit id bi => IsRemote cfg (dirOf bi) id
  | _ => True

/-- The identifiers that the functions opening a stream carry. -/
def Task.Names (cfg : Config) : Task → Prop
  | .anyOf _ (.send s) => s.Names cfg
  | .reserve s => s.Names cfg
  | .publish s => s.Names cfg
  | .registerSendFlow dir id => IsLocal cfg dir id
  | .registerRecvStream id => IsLocal cfg .bi id
  | .tryRegister id bi => IsRemote cfg (dirOf bi) id
  | .registerFlow id => IsRemote cfg .bi id
  | .newSend id => IsRemote cfg .bi id
  | .acceptLock id h => IsRemote cfg (dirOf h.isSome) id
  | .acceptSend id h => IsRemote cfg (dirOf h.isSome) id
  | _ => True

theorem Ret.names_resume (k : Ret) : k.resume.Names cfg := by
  cases k <;> trivial

theorem SendSite.names_resume {s : SendSite} (hs : s.Names cfg) (ok : Bool) :
    (s.resume cfg ok).Names cfg := by
  cases s with
  | openBi id => cases ok with
    | false => trivial
    | true => exact hs
  | inboundCredit id bi =>
      cases ok with
      | false => cases bi <;> trivial
      | true => cases bi <;> exact hs
  | write c =>
      cases ok with
      | false => trivial
      | true =>
          simp only [SendSite.resume, writeLoop]
          split_ifs <;> trivial
  | _ => cases ok <;> trivial

theorem Check.names_resume {c : Check} {fs : List Flag} (hc : (Task.anyOf fs c).Names cfg)
    (b : Bool) : (c.resume cfg b).Names cfg := by
  cases c with
  | send s =>
      cases b with
      | false => exact hc
      | true => exact SendSite.names_resume hc _
  | trySend s k =>
      cases b with
      | false => trivial
      | true => cases s <;> trivial
  | writeStart w =>
      cases b with
      | false =>
          simp only [Check.resume, writeLoop]
          split_ifs <;> trivial
      | true => trivial
  | reserveOpen w =>
      cases b with
      | false => trivial
      | true =>
          simp only [Check.resume, outOfCredit]
          split_ifs <;> trivial
  | noCredit w =>
      cases b with
      | false =>
          simp only [Check.resume]
          split_ifs <;> trivial
      | true => trivial
  | _ => cases b <;> trivial

/-- A step keeps the kind of its identifier. -/
theorem Task.names_next {t t' : Task} {a : Access} (hwf : t.WF cfg) (hnm : t.Names cfg)
    (h : t.next cfg m = some (a, t')) : t'.Names cfg := by
  replace h := Task.steps_of_next h
  induction h with
  | anyOfNil c | anyOfSet f fs c | anyOfLast f c => exact Check.names_resume hnm _
  | anyOf f fs c => cases c <;> exact hnm
  | reserveClosed | publish | unpublished => exact SendSite.names_resume hnm _
  | trySend s k | trySendFull s k => cases s <;> trivial
  | closeAll c k =>
      cases c with
      | closeFlows => exact k.names_resume
      | _ => trivial
  | fetchAdd dir id hnew =>
      obtain ⟨-, hs, hd, -⟩ := StreamId.new_ok hnew
      exact ⟨hs, hd⟩
  | selectApi c | selectApiSame c => cases c <;> trivial
  | swapOperation c => cases c <;> simp only [SendCall.body] <;> (try split_ifs) <;> trivial
  | outOfCredit w => exact outOfCredit_elim w fun _ => trivial
  | casSent => exact granted_elim _ trivial trivial
  | validatePeer id bi => exact ⟨hwf.1, hwf.2.1⟩
  | cancel k | closeAllAgain k | releaseHandle _ k | closeReceiver _ k | dropTx _ k =>
      exact k.names_resume
  | acceptLockGone | acceptClosed => exact Ret.names_resume _
  | reserve | registerUni | registerBi | registerRecvStream | tryRegister | registerFlow | newSend
  | acceptLock => exact hnm
  | _ => trivial

theorem Task.names_cancelled {t t' : Task} (h : t.cancelled = some t') : t'.Names cfg := by
  cases t with
  | reserve s => cases s <;> cases h <;> trivial
  | _ => cases h <;> trivial

theorem Task.names_aborted {t t' : Task} (h : t.aborted = some t') : t'.Names cfg := by
  cases t with
  | reserve s => cases s <;> cases h <;> trivial
  | acceptLock i x =>
      cases h
      exact Ret.names_resume _
  | closeAll c k => cases c <;> cases h <;> exact k.names_resume
  | _ => cases h

theorem Task.names_timedOut {t t' : Task} (h : t.timedOut = some t') : t'.Names cfg := by
  cases t <;> cases h <;> trivial

theorem Turn.names {t t' : Task} {fs : List Frame} {b : Bool} (h : Turn cfg v t t' fs b) :
    t'.Names cfg := by
  cases h with
  | @frame f hl hf =>
      cases f <;> simp only [handleFrame] <;> (try split_ifs) <;> trivial
  | _ => trivial

theorem Call.names_start {c : Call} {u : Use} {a : Access} {t : Task}
    (h : c.start m = some (u, a, t)) : t.Names cfg := by
  cases Call.starts_of_start h <;> trivial

/-! ## Error paths -/

/-- What holds where an error path is taken, `dead` saying that the session ends: `send_frame` and
`try_send_frame` check the flags of `is_closed` only, `close_all` has set `closed`, and `open_uni`
and `open_bi` undo their registrations only when the session ends. -/
def Task.Justified (m : Memory) (dead : Prop) : Task → Prop
  | .anyOf fs (.send _) => ∀ f ∈ fs, f ∈ isClosed
  | .anyOf fs (.trySend _ _) => ∀ f ∈ fs, f ∈ isClosed
  | .closeAll .swapClosed _ => True
  | .closeAll _ _ => m.flags.closed = true
  | .undoRecv _ => dead
  | .undoFlow _ _ => dead
  | _ => True

/-- A set flag of `is_closed`. -/
theorem Memory.isClosed_of_flag {f : Flag} (hf : f ∈ isClosed) (h : m.flag f = true) :
    m.flags.isClosed = true := by
  unfold Flags.isClosed
  rw [Bool.or_eq_true]
  rcases List.mem_cons.1 hf with rfl | hf
  · exact .inl h
  · cases List.mem_singleton.1 hf
    exact .inr h

theorem Memory.closed_apply (a : Access) (h : m.flags.closed = true) :
    (m.apply a).flags.closed = true := by
  cases a with
  | flag b => cases b <;> first | rfl | exact h
  | session clone => cases clone <;> exact h
  | _ => exact h

theorem Task.Justified.mono {m' : Memory} {dead dead' : Prop} {t : Task} (h : t.Justified m dead)
    (hm : m.flags.closed = true → m'.flags.closed = true) (hd : dead → dead') :
    t.Justified m' dead' := by
  cases t with
  | anyOf fs c => cases c <;> exact h
  | closeAll c k =>
      cases c with
      | swapClosed => trivial
      | _ => exact hm h
  | undoRecv i => exact hd h
  | undoFlow i bi => exact hd h
  | _ => trivial

section Justified

variable {dead : Prop}

theorem Ret.justified_resume (k : Ret) : k.resume.Justified m dead := by
  cases k with
  | protocolError code reason k => exact fun f hf => hf
  | _ => trivial

theorem justified_sendFrame (s : SendSite) : (sendFrame s).Justified m dead := fun _ hf => hf

/-- The error path of `send_frame`. -/
theorem SendSite.justified_fail (s : SendSite) (hd : dead) :
    (s.resume cfg false).Justified m dead := by
  cases s with
  | inboundCredit i bi => cases bi <;> trivial
  | _ => first | exact hd | trivial

theorem SendSite.justified_sent (s : SendSite) : (s.resume cfg true).Justified m dead := by
  cases s with
  | openBi i => exact justified_sendFrame _
  | write c =>
      simp only [SendSite.resume, writeLoop]
      split_ifs <;> trivial
  | inboundCredit i bi => cases bi <;> trivial
  | _ => trivial

theorem TrySite.justified_resume (k : Ret) (s : TrySite) (ok : Bool) :
    (s.resume k ok).Justified m dead := by
  cases s <;> cases ok <;> trivial

/-- A check has decided; a check of `send_frame` found a flag only if the session ends. -/
theorem Check.justified_resume {c : Check} {b : Bool}
    (hd : ∀ s, c = .send s → b = true → dead) : (c.resume cfg b).Justified m dead := by
  cases c with
  | send s =>
      cases b with
      | false => trivial
      | true => exact s.justified_fail (hd s rfl rfl)
  | trySend s k =>
      cases b with
      | false => trivial
      | true => exact s.justified_resume k _
  | writeStart w =>
      cases b with
      | false =>
          simp only [Check.resume, writeLoop]
          split_ifs <;> trivial
      | true => trivial
  | reserveOpen w =>
      cases b with
      | false => trivial
      | true =>
          simp only [Check.resume, outOfCredit]
          split_ifs <;> trivial
  | noCredit w =>
      cases b with
      | false =>
          simp only [Check.resume]
          split_ifs <;> trivial
      | true => trivial
  | dropSend h i k =>
      cases b with
      | false => exact fun f hf => hf
      | true => trivial
  | _ => cases b <;> trivial

/-- A `Stream` frame is the only one that `send_frame` may find unpublishable. -/
theorem SendSite.justified_unpublished {s : SendSite}
    (h : ¬ m.sends.mayPublish (s.frame cfg) = true) : (s.resume cfg false).Justified m dead := by
  cases s with
  | write c => trivial
  | finish i => trivial
  | _ => exact absurd rfl h

/-- **An error path is taken only when the session ends.** -/
theorem Task.justified_next {t t' : Task} {a : Access} (hj : t.Justified m dead)
    (hflag : m.flags.isClosed = true → dead) (hrx : m.chan.rxDropped = true → dead)
    (h : t.next cfg m = some (a, t')) : t'.Justified (m.apply a) dead := by
  replace h := Task.steps_of_next h
  induction h with
  | anyOfNil | anyOfLast => exact Check.justified_resume fun _ _ hb => by cases hb
  | anyOfSet f fs c hf =>
      refine Check.justified_resume ?_
      rintro s rfl -
      exact hflag (Memory.isClosed_of_flag (hj f List.mem_cons_self) hf)
  | anyOf f fs c =>
      cases c <;> first | trivial | exact fun g hg => hj g (List.mem_cons_of_mem _ hg)
  | reserveClosed s hr => exact s.justified_fail (hrx hr)
  | publish s => exact s.justified_sent
  | unpublished s hp => exact SendSite.justified_unpublished hp
  | trySend s k | trySendFull s k => exact s.justified_resume k _
  | closeAll c k =>
      cases c with
      | swapClosed => exact rfl
      | closeFlows => exact k.justified_resume
      | _ => exact hj
  | undoRecv i => exact hj
  | selectApi c | selectApiSame c => cases c <;> trivial
  | swapOperation c => cases c <;> simp only [SendCall.body] <;> (try split_ifs) <;> trivial
  | outOfCredit w => exact outOfCredit_elim w fun _ => trivial
  | casSent => exact granted_elim _ (justified_sendFrame _) trivial
  | registerUni | registerRecvStream | casFinished | resetRemove | stopMark | tryRegister | stopFlow =>
      exact justified_sendFrame _
  | dropRecvSwap i k => exact fun f hf => hf
  | cancel k | closeAllAgain k | releaseHandle _ k | closeReceiver _ k | dropTx _ k =>
      exact k.justified_resume
  | _ => first | trivial | exact Ret.justified_resume _

theorem Task.justified_cancelled {t t' : Task} (h : t.cancelled = some t') :
    t'.Justified m dead := by
  cases t with
  | reserve s => cases s <;> cases h <;> trivial
  | _ => cases h <;> trivial

theorem Task.justified_aborted {t t' : Task} (h : t.aborted = some t') : t'.Justified m dead := by
  cases t with
  | reserve s => cases s <;> cases h <;> trivial
  | acceptLock i x =>
      cases h
      exact Ret.justified_resume _
  | closeAll c k => cases c <;> cases h <;> exact k.justified_resume
  | _ => cases h

theorem Task.justified_timedOut {t t' : Task} (h : t.timedOut = some t') :
    t'.Justified m dead := by
  cases t <;> cases h <;> trivial

theorem Turn.justified {t t' : Task} {fs : List Frame} {b : Bool} (h : Turn cfg v t t' fs b) :
    t'.Justified m dead := by
  cases h with
  | @frame f hl hf =>
      cases f <;> simp only [handleFrame] <;> (try split_ifs) <;>
        first | trivial | exact Ret.justified_resume _
  | refuse => exact Ret.justified_resume _
  | _ => trivial

theorem Call.justified_start {c : Call} {u : Use} {a : Access} {t : Task} {m' : Memory}
    (h : c.start m = some (u, a, t)) : t.Justified m' dead := by
  cases Call.starts_of_start h <;> trivial

end Justified

/-- What every control point of a session satisfies. -/
structure ControlInv (cfg : Config) (v : View) : Prop where
  wf : ∀ t ∈ v.tasks, t.WF cfg
  names : ∀ t ∈ v.tasks, t.Names cfg
  justified : ∀ t ∈ v.tasks, t.Justified v.mem (Doomed v.mem v.tasks)
  rxDropped : v.mem.chan.rxDropped = true → Doomed v.mem v.tasks

theorem Moves.names (h : Moves cfg v who v') (hwf : ∀ t ∈ v.tasks, t.WF cfg)
    (hnm : ∀ t ∈ v.tasks, t.Names cfg) : ∀ t ∈ v'.tasks, t.Names cfg := by
  cases h with
  | next hi hn =>
      have hmem := List.mem_of_getElem? hi
      exact forall_mem_set hnm (Task.names_next (hwf _ hmem) (hnm _ hmem) hn)
  | cancel hi hc => exact forall_mem_set hnm (Task.names_cancelled hc)
  | timeout hi hc => exact forall_mem_set hnm (Task.names_timedOut hc)
  | abort hi ha => exact forall_mem_set hnm (Task.names_aborted ha)
  | turn hi ht => exact forall_mem_set hnm ht.names
  | exit hi => exact forall_mem_set hnm trivial
  | spawn hc => exact forall_mem_concat hnm (Call.names_start hc)
  | loop ha hb => exact hnm

theorem ControlInv.moves (hinv : ControlInv cfg v) (h : Moves cfg v who v') :
    ControlInv cfg v' where
  wf := h.wf hinv.wf
  names := h.names hinv.wf hinv.names
  rxDropped hrx := by
    rcases h.rxDropped hrx with hrx | hd
    · exact (hinv.rxDropped hrx).moves h
    · exact hd
  justified := by
    have hdead : Doomed v.mem v.tasks → Doomed v'.mem v'.tasks := fun hd => hd.moves h
    have hkeep : ∀ {a : Access}, ∀ t ∈ v.tasks,
        t.Justified (v.mem.apply a) (Doomed v'.mem v'.tasks) :=
      fun t ht => (hinv.justified t ht).mono (Memory.closed_apply _) hdead
    have hsame : ∀ t ∈ v.tasks, t.Justified v.mem (Doomed v'.mem v'.tasks) :=
      fun t ht => (hinv.justified t ht).mono (fun hc => hc) hdead
    cases h with
    | next hi hn =>
        have hmem := List.mem_of_getElem? hi
        exact forall_mem_set hkeep (Task.justified_next (hsame _ hmem)
          (fun hc => hdead (.inl hc)) (fun hrx => hdead (hinv.rxDropped hrx)) hn)
    | cancel hi hc => exact forall_mem_set hsame (Task.justified_cancelled hc)
    | timeout hi hc => exact forall_mem_set hsame (Task.justified_timedOut hc)
    | abort hi ha => exact forall_mem_set hsame (Task.justified_aborted ha)
    | turn hi ht => exact forall_mem_set hsame ht.justified
    | exit hi => exact forall_mem_set hkeep trivial
    | spawn hc => exact forall_mem_concat hkeep (Call.justified_start hc)
    | loop ha hb => exact hkeep

/-- **The control points of every run** satisfy it. -/
theorem controlInv_of_reachable {ok : Session → Label → Prop} {s : Session}
    (hr : Reachable (Session.step cfg) ok {} s) : ControlInv cfg s.view := by
  induction hr with
  | init =>
      have hall : ∀ t ∈ ({} : Session).view.tasks, t = .done := by
        intro t ht
        rcases List.mem_cons.1 ht with rfl | ht
        · rfl
        · exact List.mem_singleton.1 ht
      refine ⟨?_, ?_, ?_, fun h => by cases h⟩ <;>
      · intro t ht
        rw [hall t ht]
        trivial
  | step _ _ hs ih => exact ih.moves (Session.moves_of_step hs)

/-! ## Failed calls of `handle_frame` -/

/-- A continuation that ends in a failed `handle_frame`. -/
def Ret.failing : Ret → Bool
  | .handled ok => !ok
  | .requestShutdown k => k.failing
  | .protocolError _ _ k => k.failing
  | .releaseHandle _ k => k.failing
  | .closeReceiver _ k => k.failing
  | .dropRecv _ k => k.failing
  | .dropSend _ _ k => k.failing
  | .dropTx _ k => k.failing
  | _ => false

def Check.failing : Check → Bool
  | .trySend _ k => k.failing
  | .dropSend _ _ k => k.failing
  | _ => false

/-- A call of `handle_frame` that will return an error. -/
def Task.failing : Task → Bool
  | .handled ok => !ok
  | .anyOf _ c => c.failing
  | .trySend _ k => k.failing
  | .storeShutdown k => k.failing
  | .cancel k => k.failing
  | .closeAll _ k => k.failing
  | .dropSend _ _ k => k.failing
  | .dropSendRemove _ _ k => k.failing
  | .releaseHandle _ k => k.failing
  | .dropRecv _ k => k.failing
  | .dropRecvSwap _ k => k.failing
  | .closeReceiver _ k => k.failing
  | .dropTx _ k => k.failing
  | _ => false

/-- The inbound task will handle no further frame. -/
def Blocked (v : View) : Prop :=
  v.listening = false ∨ ∃ t, v.tasks[0]? = some t ∧ t.failing = true

theorem Ret.failing_resume (k : Ret) : k.resume.failing = k.failing := by
  cases k <;> rfl

theorem TrySite.failing_resume (k : Ret) (s : TrySite) (ok : Bool) :
    (s.resume k ok).failing = k.failing := by
  cases s <;> cases ok <;> rfl

theorem Check.failing_resume {c : Check} (hf : c.failing = true) (b : Bool) :
    (c.resume cfg b).failing = true := by
  cases c with
  | trySend s k =>
      cases b with
      | false => exact hf
      | true => exact (s.failing_resume k _).trans hf
  | dropSend h i k => cases b <;> exact hf
  | _ => cases hf

/-- A failing call keeps failing. -/
theorem Task.failing_next {t t' : Task} {a : Access} (hf : t.failing = true)
    (hn : t.next cfg m = some (a, t')) : t'.failing = true := by
  cases t with
  | handled ok => cases hn
  | anyOf flags c =>
      cases flags with
      | nil =>
          cases hn
          exact Check.failing_resume hf _
      | cons f fs =>
          simp only [Task.next] at hn
          split_ifs at hn
          · cases hn
            exact Check.failing_resume hf _
          · cases hn
            exact Check.failing_resume hf _
          · cases hn
            exact hf
  | trySend s k =>
      simp only [Task.next] at hn
      split_ifs at hn <;> cases hn <;> exact (s.failing_resume k _).trans hf
  | closeAll c k =>
      cases c with
      | swapClosed =>
          simp only [Task.next] at hn
          split_ifs at hn
          · cases hn
            exact k.failing_resume.trans hf
          · cases hn
            exact hf
      | closeFlows =>
          cases hn
          exact k.failing_resume.trans hf
      | _ =>
          cases hn
          exact hf
  | storeShutdown k =>
      cases hn
      exact hf
  | cancel k =>
      cases hn
      exact k.failing_resume.trans hf
  | dropSend x i k =>
      simp only [Task.next] at hn
      split_ifs at hn <;> cases hn <;> exact hf
  | dropSendRemove x i k =>
      cases hn
      exact hf
  | releaseHandle x k =>
      cases hn
      exact k.failing_resume.trans hf
  | dropRecv i k =>
      simp only [Task.next] at hn
      split_ifs at hn <;> cases hn <;> exact hf
  | dropRecvSwap i k =>
      simp only [Task.next] at hn
      split_ifs at hn <;> cases hn <;> exact hf
  | closeReceiver i k =>
      cases hn
      exact k.failing_resume.trans hf
  | dropTx i k =>
      cases hn
      exact k.failing_resume.trans hf
  | _ => cases hf

/-- A function of the inbound task that is dropped with its loop, after that. -/
theorem Task.failing_aborted {t t' : Task} (hf : t.failing = true) (h : t.aborted = some t') :
    t'.failing = true := by
  cases t with
  | closeAll c k => cases c <;> cases h <;> exact k.failing_resume.trans hf
  | reserve s => cases hf
  | acceptLock i x => cases hf
  | _ => cases h

/-- **A blocked inbound task stays blocked.** -/
theorem Blocked.moves (hb : Blocked v) (h : Moves cfg v who v') : Blocked v' := by
  rcases hb with hl | ⟨t₀, h0, hf⟩
  · left
    cases h with
    | turn hi ht =>
        cases ht with
        | frame hl' => rw [hl] at hl'; cases hl'
        | refuse hl' => rw [hl] at hl'; cases hl'
        | returned hl' => rw [hl] at hl'; cases hl'
        | failed => rfl
        | leave => rfl
    | @loop who a b ha hb =>
        cases b with
        | false => rfl
        | true =>
            rw [hl] at hb
            cases hb rfl
    | _ => exact hl
  · -- the failing call is at index 0; only its own steps change it
    have hset : ∀ {i : Nat} {t t' : Task}, v.tasks[i]? = some t → (t.failing = true →
        t'.failing = true) → ∃ q, (v.tasks.set i t')[0]? = some q ∧ q.failing = true := by
      intro i t t' hi hkeep
      cases i with
      | zero =>
          rw [h0] at hi
          cases hi
          exact ⟨t', by rw [List.getElem?_set_self' , h0]; rfl, hkeep hf⟩
      | succ i => exact ⟨t₀, by rw [List.getElem?_set_ne (by omega)]; exact h0, hf⟩
    cases h with
    | next hi hn => exact .inr (hset hi fun hf => Task.failing_next hf hn)
    | @cancel who i t t' hi hc =>
        refine .inr (hset hi fun hf => ?_)
        cases t <;> first | cases hf | cases hc
    | @timeout who i t t' hi hc =>
        refine .inr (hset hi fun hf => ?_)
        cases t <;> first | cases hf | cases hc
    | abort hi ha => exact .inr (hset hi fun hf => Task.failing_aborted hf ha)
    | turn hi ht =>
        rw [h0] at hi
        cases hi
        cases ht with
        | failed => exact .inl rfl
        | _ => cases hf
    | exit hi => exact .inr (hset hi fun hf => by cases hf)
    | spawn hc =>
        refine .inr ⟨t₀, ?_, hf⟩
        rw [List.getElem?_append_left (List.getElem?_eq_some_iff.1 h0).1]
        exact h0
    | loop ha hb => exact .inr ⟨t₀, h0, hf⟩

/-- Where the inbound task takes a frame, it is not blocked. -/
theorem not_blocked_of_done (hl : v.listening = true) (h0 : v.tasks[0]? = some .done) :
    ¬ Blocked v := by
  rintro (hl' | ⟨t, ht, hf⟩)
  · rw [hl] at hl'
    cases hl'
  · rw [h0] at ht
    cases ht
    cases hf

end WebsockMux.Native
