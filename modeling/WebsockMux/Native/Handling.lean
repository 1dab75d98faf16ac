import WebsockMux.Native.Control

/-!
# Handling a frame

The control points of `handle_frame` for each kind of frame (`Handling`). A call of `handle_frame`
stays at the control points of its frame until it returns, or it fails, after which the inbound task
handles no further frame (`handling_of_reachable`). So what a call does before it returns has been
done for every frame but the last one, unless the task is blocked (`Settles.step`). No other function
comes to these control points (`running_of_inHandle`).
-/

set_option autoImplicit false

namespace WebsockMux.Native

open WebsockMux.Lib WebsockMux.Proto

variable {cfg : Config} {m : Memory} {v v' : View} {who : Option Nat} {f : Frame} {t t' : Task}
  {a : Access}

/-- The frame that opens a stream. -/
def openFrame : Bool → StreamId → Frame
  | false, id => .openUni id
  | true, id => .openBi id

/-- **Where `handle_frame` is** with a frame, before it has failed. -/
inductive Handling : Frame → Task → Prop where
  | validate (id : StreamId) (bi : Bool) : Handling (openFrame bi id) (.validatePeer id bi)
  | register (id : StreamId) (bi : Bool) : Handling (openFrame bi id) (.tryRegister id bi)
  | creditCheck (id : StreamId) (bi : Bool) (fs : List Flag) :
      Handling (openFrame bi id) (.anyOf fs (.send (.inboundCredit id bi)))
  | creditSlot (id : StreamId) (bi : Bool) :
      Handling (openFrame bi id) (.reserve (.inboundCredit id bi))
  | credit (id : StreamId) (bi : Bool) :
      Handling (openFrame bi id) (.publish (.inboundCredit id bi))
  | flow (id : StreamId) : Handling (.openBi id) (.registerFlow id)
  | newSend (id : StreamId) : Handling (.openBi id) (.newSend id)
  | acceptLock (id : StreamId) (h : Option Nat) :
      Handling (openFrame h.isSome id) (.acceptLock id h)
  | acceptSend (id : StreamId) (h : Option Nat) :
      Handling (openFrame h.isSome id) (.acceptSend id h)
  | data (id : StreamId) (data : List UInt8) (fin : Bool) :
      Handling (.stream id data fin) (.receiveData id data fin)
  | deliver (id : StreamId) (data : List UInt8) (fin : Bool) :
      Handling (.stream id data fin) (.deliver id data fin)
  | removeRecv (id : StreamId) (data : List UInt8) :
      Handling (.stream id data true) (.removeRecv id)
  | dropTx (id : StreamId) (data : List UInt8) (fin : Bool) :
      Handling (.stream id data fin) (.dropTx id (.handled true))
  | reset (id : StreamId) (code : Nat) : Handling (.resetStream id code) (.recvReset id)
  | resetRetired (id : StreamId) (code : Nat) : Handling (.resetStream id code) (.retired id true)
  | stop (id : StreamId) (code : Nat) : Handling (.stopSending id code) (.stopFlow id code)
  | resetCheck (id : StreamId) (code : Nat) (fs : List Flag) :
      Handling (.stopSending id code) (.anyOf fs (.send (.inboundReset id code)))
  | resetSlot (id : StreamId) (code : Nat) :
      Handling (.stopSending id code) (.reserve (.inboundReset id code))
  | resetReply (id : StreamId) (code : Nat) :
      Handling (.stopSending id code) (.publish (.inboundReset id code))
  | stopRetired (id : StreamId) (code : Nat) : Handling (.stopSending id code) (.retired id false)
  | updateMax (id : StreamId) (max : Nat) : Handling (.maxStreamData id max) (.updateMax id max)
  | handled (f : Frame) : Handling f (.handled true)

namespace Handling

/-- Where a call of `handle_frame` starts. -/
theorem start (cfg : Config) (f : Frame) :
    Handling f (handleFrame cfg f) ∨ (handleFrame cfg f).failing = true := by
  cases f with
  | openUni id =>
      simp only [handleFrame]
      split_ifs
      · exact .inr rfl
      · exact .inr rfl
      · exact .inl (.validate id false)
  | openBi id =>
      simp only [handleFrame]
      split_ifs
      · exact .inr rfl
      · exact .inr rfl
      · exact .inl (.validate id true)
  | stream id data fin =>
      simp only [handleFrame]
      split_ifs
      · exact .inr rfl
      · exact .inl (.data id data fin)
  | resetStream id code => exact .inl (.reset id code)
  | stopSending id code => exact .inl (.stop id code)
  | maxStreamData id max => exact .inl (.updateMax id max)
  | connectionClose code reason => exact .inr rfl

/-- The check of `send_frame` in `handle_frame`. -/
theorem checked {s : SendSite} {fs : List Flag}
    (hn : (Task.anyOf fs (.send s)).next cfg m = some (a, t')) :
    t' = s.resume cfg false ∨ t' = .reserve s ∨ ∃ gs, t' = .anyOf gs (.send s) := by
  cases fs with
  | nil =>
      cases hn
      exact .inr (.inl rfl)
  | cons g gs =>
      simp only [Task.next] at hn
      split_ifs at hn
      · cases hn
        exact .inl rfl
      · cases hn
        exact .inr (.inl rfl)
      · cases hn
        exact .inr (.inr ⟨gs, rfl⟩)

/-- **A step of `handle_frame`**: it stays with its frame, or fails. -/
theorem next (h : Handling f t) (hn : t.next cfg m = some (a, t')) :
    Handling f t' ∨ t'.failing = true := by
  cases h with
  | validate id bi =>
      simp only [Task.next] at hn
      split_ifs at hn
      · cases hn
        exact .inl (.register id bi)
      all_goals
        cases hn
        exact .inr rfl
  | register id bi =>
      simp only [Task.next] at hn
      split at hn
      · cases hn
        exact .inr rfl
      · cases hn
        exact .inl (.creditCheck id bi _)
  | creditCheck id bi fs =>
      rcases checked hn with rfl | rfl | ⟨gs, rfl⟩
      · exact .inr (by cases bi <;> rfl)
      · exact .inl (.creditSlot id bi)
      · exact .inl (.creditCheck id bi gs)
  | creditSlot id bi =>
      simp only [Task.next] at hn
      split_ifs at hn
      · cases hn
        exact .inr (by cases bi <;> rfl)
      · cases hn
        exact .inl (.credit id bi)
  | credit id bi =>
      -- a credit needs no flow in the table
      simp only [Task.next, SendSite.frame, SendTable.mayPublish, if_true] at hn
      cases hn
      cases bi with
      | false => exact .inl (.acceptLock id none)
      | true => exact .inl (.flow id)
  | flow id =>
      simp only [Task.next] at hn
      split at hn
      · cases hn
        exact .inr rfl
      · cases hn
        exact .inl (.newSend id)
  | newSend id =>
      cases hn
      exact .inl (.acceptLock id (some _))
  | acceptLock id h =>
      simp only [Task.next] at hn
      split_ifs at hn
      · cases hn
        exact .inl (.acceptSend id h)
      · cases hn
        exact .inr (by cases h <;> rfl)
  | acceptSend id h =>
      simp only [Task.next] at hn
      split_ifs at hn
      · cases hn
        exact .inr (by cases h <;> rfl)
      · cases hn
        exact .inr (by cases h <;> rfl)
      · cases hn
        exact .inl (.handled _)
  | data id data fin =>
      simp only [Task.next] at hn
      split at hn
      · cases hn
        exact .inr rfl
      · split_ifs at hn with _ hf
        · cases hn
          subst hf
          exact .inl (.removeRecv id data)
        · cases hn
          exact .inl (.dropTx id data fin)
        · cases hn
          exact .inl (.deliver id data fin)
  | deliver id data fin =>
      simp only [Task.next] at hn
      split_ifs at hn with _ hf _ hf
      · cases hn
        subst hf
        exact .inl (.removeRecv id data)
      · cases hn
        exact .inl (.dropTx id data fin)
      · cases hn
        exact .inr rfl
      · cases hn
        subst hf
        exact .inl (.removeRecv id data)
      · cases hn
        exact .inl (.dropTx id data fin)
  | removeRecv id data =>
      cases hn
      exact .inl (.dropTx id data true)
  | dropTx id data fin =>
      cases hn
      exact .inl (.handled _)
  | reset id code =>
      simp only [Task.next] at hn
      split_ifs at hn
      · cases hn
        exact .inl (.handled _)
      · cases hn
        exact .inl (.resetRetired id code)
  | resetRetired id code =>
      simp only [Task.next] at hn
      split_ifs at hn
      · cases hn
        exact .inl (.handled _)
      · cases hn
        exact .inr rfl
  | stop id code =>
      simp only [Task.next] at hn
      split_ifs at hn
      · cases hn
        exact .inl (.resetCheck id code _)
      · cases hn
        exact .inl (.stopRetired id code)
  | resetCheck id code fs =>
      rcases checked hn with rfl | rfl | ⟨gs, rfl⟩
      · exact .inr rfl
      · exact .inl (.resetSlot id code)
      · exact .inl (.resetCheck id code gs)
  | resetSlot id code =>
      simp only [Task.next] at hn
      split_ifs at hn
      · cases hn
        exact .inr rfl
      · cases hn
        exact .inl (.resetReply id code)
  | resetReply id code =>
      simp only [Task.next, SendSite.frame, SendTable.mayPublish, if_true] at hn
      cases hn
      exact .inl (.handled _)
  | stopRetired id code =>
      simp only [Task.next] at hn
      split_ifs at hn
      · cases hn
        exact .inl (.handled _)
      all_goals
        cases hn
        exact .inr rfl
  | updateMax id max =>
      cases hn
      exact .inl (.handled _)
  | handled f => cases hn

/-- A call of `handle_frame` that is aborted has failed. -/
theorem failing_aborted (h : Handling f t) (ha : t.aborted = some t') : t'.failing = true := by
  cases h with
  | creditSlot id bi =>
      cases ha
      rfl
  | resetSlot id code =>
      cases ha
      rfl
  | acceptLock id h =>
      cases ha
      cases h <;> rfl
  | _ => cases ha

/-- A call of `handle_frame` is not an operation that could be cancelled or time out. -/
theorem not_cancelled (h : Handling f t) : t.cancelled = none ∧ t.timedOut = none := by
  cases h <;> exact ⟨rfl, rfl⟩

end Handling

/-! ## The frame of the inbound task -/

/-- A failing call is not an operation that could be cancelled or time out. -/
theorem Task.not_cancelled_of_failing (h : t.failing = true) :
    t.cancelled = none ∧ t.timedOut = none := by
  cases t <;> first | exact ⟨rfl, rfl⟩ | cases h

/-- While its loop is running, the inbound task waits, fails, or handles the last frame it took. -/
def HandlesLast (v : View) : Prop :=
  ∃ t, v.tasks[0]? = some t ∧ (v.listening = true →
    t = .done ∨ t.failing = true ∨ ∃ f, v.handled.getLast? = some f ∧ Handling f t)

/-- **A step keeps the inbound task with its frame.** -/
theorem HandlesLast.moves (hinv : HandlesLast v) (h : Moves cfg v who v') : HandlesLast v' := by
  obtain ⟨t₀, h0, hinv⟩ := hinv
  have hlen := (List.getElem?_eq_some_iff.1 h0).1
  -- a function acts: another one, or that of the inbound task
  have hset : ∀ {i : Nat} {t t' : Task}, v.tasks[i]? = some t →
      (i = 0 → t = t₀ → v.listening = true → (t' = .done ∨ t'.failing = true ∨
        ∃ f, v.handled.getLast? = some f ∧ Handling f t')) →
      ∃ q, (v.tasks.set i t')[0]? = some q ∧ (v.listening = true →
        q = .done ∨ q.failing = true ∨ ∃ f, v.handled.getLast? = some f ∧ Handling f q) := by
    intro i t t' hi hact
    cases i with
    | zero =>
        refine ⟨t', List.getElem?_set_self hlen, hact rfl ?_⟩
        exact Option.some.inj (hi.symm.trans h0)
    | succ i =>
        refine ⟨t₀, ?_, hinv⟩
        rw [List.getElem?_set_ne (by omega)]
        exact h0
  cases h with
  | next hi hn =>
      refine hset hi ?_
      rintro rfl rfl hl
      rcases hinv hl with rfl | hf | ⟨f, hlast, hh⟩
      · cases hn
      · exact .inr (.inl (Task.failing_next hf hn))
      · exact .inr ((hh.next hn).symm.imp_right fun hh => ⟨f, hlast, hh⟩)
  | cancel hi hc =>
      refine hset hi ?_
      rintro rfl rfl hl
      rcases hinv hl with rfl | hf | ⟨f, hlast, hh⟩
      · cases hc
      · rw [(Task.not_cancelled_of_failing hf).1] at hc
        cases hc
      · rw [hh.not_cancelled.1] at hc
        cases hc
  | timeout hi hc =>
      refine hset hi ?_
      rintro rfl rfl hl
      rcases hinv hl with rfl | hf | ⟨f, hlast, hh⟩
      · cases hc
      · rw [(Task.not_cancelled_of_failing hf).2] at hc
        cases hc
      · rw [hh.not_cancelled.2] at hc
        cases hc
  | abort hi ha =>
      refine hset hi ?_
      rintro - rfl hl
      rcases hinv hl with rfl | hf | ⟨f, hlast, hh⟩
      · cases ha
      · exact .inr (.inl (Task.failing_aborted hf ha))
      · exact .inr (.inl (hh.failing_aborted ha))
  | @turn who t t' fs b hi ht =>
      refine ⟨t', List.getElem?_set_self hlen, fun hl => ?_⟩
      cases ht with
      | @frame f _ hf =>
          rcases Handling.start cfg f with hh | hfail
          · exact .inr (.inr ⟨f, List.getLast?_concat, hh⟩)
          · exact .inr (.inl hfail)
      | refuse hl code reason => exact .inr (.inl rfl)
      | returned hl => exact .inl rfl
      | failed => cases hl
      | leave => cases hl
  | exit hi => exact hset hi nofun
  | spawn hc => exact ⟨t₀, (List.getElem?_append_left hlen).trans h0, hinv⟩
  | loop ha hb => exact ⟨t₀, h0, fun hl => hinv (hb hl)⟩

/-- **The inbound task in every run.** -/
theorem handlesLast_of_reachable {ok : Session → Label → Prop} {s : Session}
    (hr : Reachable (Session.step cfg) ok {} s) : HandlesLast s.view :=
  hr.invariant (I := fun s => HandlesLast s.view) ⟨.done, rfl, fun _ => .inl rfl⟩
    fun _ h _ hs => h.moves (Session.moves_of_step hs)

/-- In `handle_frame`, the task has failed or is at a control point of a frame that it took. -/
theorem handling_of_reachable {ok : Session → Label → Prop} {s : Session}
    (hr : Reachable (Session.step cfg) ok {} s) {cursor : List UInt8}
    (hp : s.inb.phase = .running t cursor) :
    t.failing = true ∨ t = .done ∨ ∃ f ∈ s.inb.handled, Handling f t := by
  obtain ⟨t₀, h0, hinv⟩ := handlesLast_of_reachable hr
  have ht : t₀ = t := by
    have h := Session.tasks_inb hp
    exact Option.some.inj (h0.symm.trans h)
  subst ht
  rcases hinv (Session.listening_view hp rfl) with rfl | hf | ⟨f, hlast, hh⟩
  · exact .inr (.inl rfl)
  · exact .inl hf
  · exact .inr (.inr ⟨f, List.mem_of_getLast? hlast, hh⟩)

/-! ## What was done for the handled frames -/

/-- A property `P` that `handle_frame` establishes before it returns: until then the call is at a
control point in `W`. -/
structure Settles (cfg : Config) (P : Frame → Memory → Prop) (W : Frame → Task → Prop) : Prop where
  busy : ∀ {f t}, W f t → t ≠ .done ∧ t ≠ .handled true
  start : ∀ f m, W f (handleFrame cfg f) ∨ (handleFrame cfg f).failing = true ∨ P f m
  next : ∀ {f t m a t'}, W f t → t.next cfg m = some (a, t') →
    W f t' ∨ t'.failing = true ∨ P f (m.apply a)
  handling : ∀ {f t}, W f t → Handling f t

/-- The property holds for a handled frame, or the call for it is still in progress, or the inbound
task is blocked. -/
def Settled (P : Frame → Memory → Prop) (W : Frame → Task → Prop) (v : View) (f : Frame) : Prop :=
  P f v.mem ∨ Blocked v ∨ ∃ t, v.tasks[0]? = some t ∧ W f t

variable {P : Frame → Memory → Prop} {W : Frame → Task → Prop}

/-- **A step settles a frame or leaves its call in progress**, where it keeps the property. -/
theorem Settles.moves (hset : Settles cfg P W) (h : Moves cfg v who v')
    (hkeep : P f v.mem → P f v'.mem) (hs : Settled P W v f) : Settled P W v' f := by
  rcases hs with hP | hb | ⟨t₀, h0, hw⟩
  · exact .inl (hkeep hP)
  · exact .inr (.inl (hb.moves h))
  · have hlen := (List.getElem?_eq_some_iff.1 h0).1
    have hh := hset.handling hw
    -- another function acts
    have hother : ∀ {i : Nat} {t' : Task}, i ≠ 0 → (v.tasks.set i t')[0]? = some t₀ := by
      intro i t' hi
      rw [List.getElem?_set_ne hi]
      exact h0
    cases h with
    | @next i t t' a hi hn =>
        by_cases hz : i = 0
        · subst hz
          rw [h0] at hi
          cases hi
          rcases hset.next hw hn with hw' | hf | hP
          · exact .inr (.inr ⟨t', List.getElem?_set_self hlen, hw'⟩)
          · exact .inr (.inl (.inr ⟨t', List.getElem?_set_self hlen, hf⟩))
          · exact .inl hP
        · exact .inr (.inr ⟨t₀, hother hz, hw⟩)
    | @cancel who i t t' hi hc =>
        by_cases hz : i = 0
        · subst hz
          rw [h0] at hi
          cases hi
          rw [hh.not_cancelled.1] at hc
          cases hc
        · exact .inr (.inr ⟨t₀, hother hz, hw⟩)
    | @timeout who i t t' hi hc =>
        by_cases hz : i = 0
        · subst hz
          rw [h0] at hi
          cases hi
          rw [hh.not_cancelled.2] at hc
          cases hc
        · exact .inr (.inr ⟨t₀, hother hz, hw⟩)
    | @abort who t t' hi ha =>
        rw [h0] at hi
        cases hi
        exact .inr (.inl (.inr ⟨t', List.getElem?_set_self hlen, hh.failing_aborted ha⟩))
    | turn hi ht =>
        rw [h0] at hi
        cases hi
        cases ht with
        | frame hl hf => exact absurd rfl (hset.busy hw).1
        | refuse hl code reason => exact absurd rfl (hset.busy hw).1
        | returned hl => exact absurd rfl (hset.busy hw).2
        | failed => exact .inr (.inl (.inl rfl))
        | leave => exact absurd rfl (hset.busy hw).1
    | exit hi => exact .inr (.inr ⟨t₀, hother (by decide), hw⟩)
    | spawn hc => exact .inr (.inr ⟨t₀, (List.getElem?_append_left hlen).trans h0, hw⟩)
    | loop ha hb => exact .inr (.inr ⟨t₀, h0, hw⟩)

/-- A step takes at most one frame, which is settled or has its call in progress. -/
theorem Settles.grows (hset : Settles cfg P W) (h : Moves cfg v who v') :
    v'.handled = v.handled ∨ ∃ f, v'.handled = v.handled ++ [f] ∧ Settled P W v' f := by
  cases h with
  | turn hi ht =>
      have hlen := (List.getElem?_eq_some_iff.1 hi).1
      cases ht with
      | @frame f hl hf =>
          refine .inr ⟨f, rfl, ?_⟩
          rcases hset.start f v.mem with hw | hfail | hP
          · exact .inr (.inr ⟨_, List.getElem?_set_self hlen, hw⟩)
          · exact .inr (.inl (.inr ⟨_, List.getElem?_set_self hlen, hfail⟩))
          · exact .inl hP
      | _ => exact .inl rfl
  | _ => exact .inl rfl

/-- A frame that a step takes is settled or has its call in progress. -/
theorem Settles.taken (hset : Settles cfg P W) (h : Moves cfg v who v') (hf : f ∈ v'.handled) :
    f ∈ v.handled ∨ Settled P W v' f := by
  rcases hset.grows h with heq | ⟨g, heq, hg⟩
  · exact .inl (heq ▸ hf)
  · rw [heq] at hf
    rcases List.mem_append.1 hf with hf | hf
    · exact .inl hf
    · cases List.mem_singleton.1 hf
      exact .inr hg

/-- **All handled frames are settled**, where the steps of the run keep the property. -/
theorem Settles.step {s s' : Session} {l : Label} (hset : Settles cfg P W)
    (hs : s.step cfg l = some s') (hkeep : ∀ f ∈ s.inb.handled, P f s.mem → P f s'.mem)
    (hall : ∀ f ∈ s.inb.handled, Settled P W s.view f) :
    ∀ f ∈ s'.inb.handled, Settled P W s'.view f := by
  intro f hf
  have hm := Session.moves_of_step hs
  rcases hset.taken hm hf with hf | h
  · exact hset.moves hm (hkeep f hf) (hall f hf)
  · exact h

/-- Between two frames, all handled frames have the property. -/
theorem Settled.of_done {s : Session} (hset : Settles cfg P W) (h : Settled P W s.view f)
    (hl : s.inb.phase.listening = true) (hd : s.inb.phase.task = .done) : P f s.mem := by
  have h0 : s.view.tasks[0]? = some .done := by
    rw [Session.tasks_inb rfl, hd]
  rcases h with hP | hb | ⟨t, ht, hw⟩
  · exact hP
  · exact absurd hb (not_blocked_of_done (Session.listening_view rfl hl) h0)
  · cases h0.symm.trans ht
    exact absurd rfl (hset.busy hw).1

/-! ## The control points of `handle_frame` -/

/-- What is left to do before `handle_frame` returns. -/
def Ret.inHandle : Ret → Bool
  | .handled _ => true
  | .requestShutdown k => k.inHandle
  | .protocolError _ _ k => k.inHandle
  | .releaseHandle _ k => k.inHandle
  | .closeReceiver _ k => k.inHandle
  | .dropRecv _ k => k.inHandle
  | .dropSend _ _ k => k.inHandle
  | .dropTx _ _ => true
  | _ => false

def SendSite.inHandle : SendSite → Bool
  | .inboundCredit _ _ => true
  | .inboundReset _ _ => true
  | _ => false

def Check.inHandle : Check → Bool
  | .send s => s.inHandle
  | .trySend _ k => k.inHandle
  | .dropSend _ _ k => k.inHandle
  | _ => false

/-- A control point in a call of `handle_frame`. -/
def Task.inHandle : Task → Bool
  | .handled _ => true
  | .anyOf _ c => c.inHandle
  | .reserve s => s.inHandle
  | .publish s => s.inHandle
  | .trySend _ k => k.inHandle
  | .storeShutdown k => k.inHandle
  | .cancel k => k.inHandle
  | .closeAll _ k => k.inHandle
  | .dropSend _ _ k => k.inHandle
  | .dropSendRemove _ _ k => k.inHandle
  | .releaseHandle _ k => k.inHandle
  | .dropRecv _ k => k.inHandle
  | .dropRecvSwap _ k => k.inHandle
  | .closeReceiver _ k => k.inHandle
  | .validatePeer _ _ => true
  | .tryRegister _ _ => true
  | .registerFlow _ => true
  | .newSend _ => true
  | .acceptLock _ _ => true
  | .acceptSend _ _ => true
  | .receiveData _ _ _ => true
  | .deliver _ _ _ => true
  | .removeRecv _ => true
  | .dropTx _ _ => true
  | .recvReset _ => true
  | .stopFlow _ _ => true
  | .retired _ _ => true
  | .updateMax _ _ => true
  | _ => false

theorem Ret.inHandle_resume (k : Ret) : k.resume.inHandle = k.inHandle := by
  cases k <;> rfl

theorem writeLoop_not_inHandle (w : Writer) : (writeLoop cfg w).inHandle = false := by
  unfold writeLoop
  split_ifs <;> rfl

theorem outOfCredit_not_inHandle (w : Writer) : (outOfCredit w).inHandle = false := by
  unfold outOfCredit
  split_ifs <;> rfl

theorem SendSite.inHandle_resume {s : SendSite} {ok : Bool}
    (h : (s.resume cfg ok).inHandle = true) : s.inHandle = true := by
  cases s with
  | inboundCredit i bi => rfl
  | inboundReset i code => rfl
  | write c =>
      cases ok with
      | false => cases h
      | true =>
          rw [SendSite.resume, writeLoop_not_inHandle] at h
          cases h
  | _ => cases ok <;> cases h

theorem TrySite.inHandle_resume (s : TrySite) (k : Ret) (ok : Bool) :
    (s.resume k ok).inHandle = k.inHandle := by
  cases s <;> cases ok <;> rfl

theorem Check.inHandle_resume {c : Check} {b : Bool} (h : (c.resume cfg b).inHandle = true) :
    c.inHandle = true := by
  cases c with
  | send s =>
      cases b with
      | false => exact h
      | true => exact SendSite.inHandle_resume h
  | trySend s k =>
      cases b with
      | false => exact h
      | true => exact (s.inHandle_resume k false).symm.trans h
  | writeStart w =>
      cases b with
      | false =>
          rw [Check.resume, writeLoop_not_inHandle] at h
          cases h
      | true => cases h
  | reserveOpen w =>
      cases b with
      | false => cases h
      | true =>
          rw [Check.resume, outOfCredit_not_inHandle] at h
          cases h
  | noCredit w =>
      cases b with
      | false =>
          simp only [Check.resume] at h
          split_ifs at h <;> cases h
      | true => cases h
  | dropSend h' i k => cases b <;> exact h
  | _ => cases b <;> cases h

/-- **Only `handle_frame` comes to a control point of `handle_frame`.** -/
theorem Task.inHandle_next (hn : t.next cfg m = some (a, t')) (h : t'.inHandle = true) :
    t.inHandle = true := by
  replace hn := Task.steps_of_next hn
  induction hn with
  | anyOfNil | anyOfSet | anyOfLast => exact Check.inHandle_resume h
  | reserveClosed | publish | unpublished => exact SendSite.inHandle_resume h
  | trySend s k | trySendFull s k => exact (s.inHandle_resume k _).symm.trans h
  | closeAll c k =>
      cases c with
      | closeFlows => exact k.inHandle_resume.symm.trans h
      | _ => exact h
  | cancel k | closeAllAgain k | releaseHandle _ k | closeReceiver _ k =>
      exact k.inHandle_resume.symm.trans h
  | selectApi c | selectApiSame c => cases c <;> cases h
  | swapOperation c =>
      cases c <;> simp only [SendCall.body] at h <;> (try split_ifs at h) <;> cases h
  | outOfCredit w =>
      rw [outOfCredit_not_inHandle] at h
      cases h
  | casSent w sent max =>
      unfold granted at h
      split_ifs at h <;> cases h
  | _ => first | rfl | exact h

theorem Task.inHandle_aborted (ha : t.aborted = some t') (h : t'.inHandle = true) :
    t.inHandle = true := by
  cases t with
  | reserve s => cases s <;> first | rfl | cases ha
  | acceptLock i x => rfl
  | closeAll c k =>
      cases c with
      | takeUni =>
          cases ha
          exact k.inHandle_resume.symm.trans h
      | takeBi =>
          cases ha
          exact k.inHandle_resume.symm.trans h
      | _ => cases ha
  | _ => cases ha

theorem Task.not_inHandle_of_cancelled (hc : t.cancelled = some t') : t'.inHandle = false := by
  cases t with
  | reserve s => cases s <;> cases hc <;> rfl
  | _ => cases hc <;> rfl

theorem Task.not_inHandle_of_timedOut (hc : t.timedOut = some t') : t'.inHandle = false := by
  cases t <;> cases hc <;> rfl

theorem Call.not_inHandle_start {c : Call} {u : Use} (h : c.start m = some (u, a, t)) :
    t.inHandle = false := by
  cases Call.starts_of_start h <;> rfl

/-- Only the function of the inbound task is in `handle_frame`. -/
def HandlesFirst (v : View) : Prop := ∀ (i : Nat) t, v.tasks[i]? = some t → t.inHandle = true → i = 0

/-- **A step leaves `handle_frame` to the inbound task.** -/
theorem HandlesFirst.moves (hinv : HandlesFirst v) (h : Moves cfg v who v') : HandlesFirst v' := by
  -- a function is replaced by one that is in `handle_frame` only where the old one was
  have hset : ∀ {i : Nat} {t'}, (t'.inHandle = true → i = 0) →
      ∀ (j : Nat) q, (v.tasks.set i t')[j]? = some q → q.inHandle = true → j = 0 := by
    intro i t' hi j q hq hin
    rcases getElem?_set_cases hq with ⟨rfl, rfl⟩ | ⟨-, hq⟩
    · exact hi hin
    · exact hinv j q hq hin
  have hout : ∀ {t' : Task} {P : Prop}, t'.inHandle = false → t'.inHandle = true → P := by
    intro t' P hf ht
    rw [hf] at ht
    cases ht
  cases h with
  | next hi hn => exact hset fun hin => hinv _ _ hi (Task.inHandle_next hn hin)
  | cancel hi hc => exact hset (hout (Task.not_inHandle_of_cancelled hc))
  | timeout hi hc => exact hset (hout (Task.not_inHandle_of_timedOut hc))
  | abort hi ha => exact hset fun _ => rfl
  | turn hi ht => exact hset fun _ => rfl
  | exit hi => exact hset (hout rfl)
  | spawn hc =>
      intro j q hq hin
      rcases getElem?_concat_cases hq with rfl | hq
      · exact hout (Call.not_inHandle_start hc) hin
      · exact hinv j q hq hin
  | loop ha hb => exact hinv

/-- Behind its loop, the inbound task is not in `handle_frame`. -/
theorem Inbound.not_inHandle_ending {s s' : Session} {l : Label}
    (h : ∀ t, s.inb.phase = .ending t → t.inHandle = false) (hs : s.step cfg l = some s') :
    ∀ t, s'.inb.phase = .ending t → t.inHandle = false := by
  -- how the loop is left
  have hleave : ∀ {b b' : Inbound}, b.leave = some b' →
      ∀ t, b'.phase = .ending t → t.inHandle = false := by
    intro b b' hb t ht
    unfold Inbound.leave at hb
    split at hb <;> cases hb <;> cases ht <;> rfl
  have hm := Session.inboundMoves_of_step hs
  generalize s'.inb = b' at hm
  intro t ht
  cases hm with
  | same => exact h t ht
  | @receive msg a b' hp hb =>
      cases msg <;> simp only [Inbound.receive] at hb <;> (try split_ifs at hb) <;> cases hb <;>
        first | cases ht | (rw [hp] at ht; cases ht)
  | leave hb => exact hleave hb t ht
  | next hb =>
      cases Inbound.steps_of_step hb with
      | @finishing q q' a hp hn =>
          cases ht
          by_contra hin
          have := Task.inHandle_next hn (Bool.eq_true_of_not_eq_false hin)
          rw [h q hp] at this
          cases this
      | failed hp =>
          cases ht
          rfl
      | _ => cases ht
  | cancel hb =>
      unfold Inbound.cancel at hb
      split at hb
      · split at hb <;> cases hb
        cases ht
      · exact hleave hb t ht

/-- **Who is in `handle_frame`**: the inbound task, in its loop. -/
theorem running_of_inHandle {ok : Session → Label → Prop} {s : Session}
    (hr : Reachable (Session.step cfg) ok {} s) (ht : t ∈ s.tasks) (hin : t.inHandle = true) :
    ∃ cursor, s.inb.phase = .running t cursor := by
  have hfirst : HandlesFirst s.view := by
    refine hr.invariant (I := fun s => HandlesFirst s.view) ?_
      fun _ h _ hs => h.moves (Session.moves_of_step hs)
    intro i t ht hin
    have hmem : t ∈ [Task.done, Task.done] := List.mem_of_getElem? ht
    obtain rfl : t = .done := by simpa using hmem
    cases hin
  have hend : ∀ t, s.inb.phase = .ending t → t.inHandle = false :=
    hr.invariant (I := fun s => ∀ t, s.inb.phase = .ending t → t.inHandle = false) nofun
      fun _ h _ hs => Inbound.not_inHandle_ending h hs
  obtain ⟨i, hi⟩ := List.getElem?_of_mem ht
  obtain rfl := hfirst i t hi hin
  have h0 : s.inb.phase.task = t := Option.some.inj hi
  cases hp : s.inb.phase with
  | running q cursor =>
      rw [hp] at h0
      cases h0
      exact ⟨cursor, rfl⟩
  | ending q =>
      rw [hp] at h0
      cases h0
      cases (hend q hp).symm.trans hin
  | _ =>
      rw [hp] at h0
      cases h0
      cases hin

/-- A control point of `handle_frame` in a session: the call fails, or it is that of a handled
frame. -/
theorem handling_of_inHandle {ok : Session → Label → Prop} {s : Session}
    (hr : Reachable (Session.step cfg) ok {} s) (ht : t ∈ s.tasks) (hin : t.inHandle = true) :
    t.failing = true ∨ ∃ f ∈ s.inb.handled, Handling f t := by
  obtain ⟨cursor, hp⟩ := running_of_inHandle hr ht hin
  rcases handling_of_reachable hr hp with hf | rfl | hh
  · exact .inl hf
  · cases hin
  · exact .inr hh

end WebsockMux.Native
