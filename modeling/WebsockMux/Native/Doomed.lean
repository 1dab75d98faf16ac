import WebsockMux.Native.WellFormed

/-!
# Sessions that end

A session is doomed when it is closed, when its shutdown has started, or when a function in progress
will close it or start the shutdown before it returns (`Doomed`). Doomed sessions stay doomed
(`Doomed.moves`). Where the functions of a session take an error path, the session is doomed: a
refused `send_frame` finds a flag set or the queue's receiver dropped, and the receiver is dropped
only by a task that then closes the session (`doomed_of_rxDropped`).
-/

set_option autoImplicit false

namespace WebsockMux.Native

open WebsockMux.Lib WebsockMux.Proto

variable {cfg : Config} {m : Memory} {v v' : View} {who : Option Nat}

/-- A continuation that ends the session. -/
def Ret.doomed : Ret → Bool
  | .handled ok => !ok
  | .requestShutdown _ => true
  | .protocolError _ _ _ => true
  | .releaseHandle _ k => k.doomed
  | .closeReceiver _ k => k.doomed
  | .dropRecv _ k => k.doomed
  | .dropSend _ _ k => k.doomed
  | .dropTx _ k => k.doomed
  | _ => false

/-- A call of `try_send_frame` after which the session ends. -/
def TrySite.doomed (k : Ret) : TrySite → Bool
  | .protocolError _ _ => true
  | _ => k.doomed

def Check.doomed : Check → Bool
  | .trySend s k => s.doomed k
  | .dropSend _ _ k => k.doomed
  | _ => false

/-- A function in progress that will close the session or start its shutdown. -/
def Task.doomed : Task → Bool
  | .handled ok => !ok
  | .anyOf _ c => c.doomed
  | .trySend s k => s.doomed k
  | .storeShutdown _ => true
  | .cancel k => k.doomed
  | .closeAll .swapClosed _ => true
  | .closeAll _ k => k.doomed
  | .abandon _ _ => true
  | .dropSend _ _ k => k.doomed
  | .dropSendRemove _ _ k => k.doomed
  | .releaseHandle _ k => k.doomed
  | .dropRecv _ k => k.doomed
  | .dropRecvSwap _ k => k.doomed
  | .closeReceiver _ k => k.doomed
  | .dropTx _ k => k.doomed
  | _ => false

/-- `is_closed`. -/
def Flags.isClosed (x : Flags) : Bool := x.closed || x.shutdownStarted

/-- A session that has ended or will end. -/
def Doomed (m : Memory) (ts : List Task) : Prop :=
  m.flags.isClosed = true ∨ ∃ t ∈ ts, t.doomed = true

theorem Ret.doomed_resume (k : Ret) : k.resume.doomed = k.doomed := by
  cases k <;> rfl

/-- `closed` and `shutdown_started` are never cleared. -/
theorem Memory.isClosed_apply (a : Access) (h : m.flags.isClosed = true) :
    (m.apply a).flags.isClosed = true := by
  unfold Flags.isClosed at h ⊢
  rw [Bool.or_eq_true] at h ⊢
  cases a with
  | flag b =>
      cases b with
      | closed => exact .inl rfl
      | shutdownStarted => exact .inr rfl
      | _ => exact h
  | session clone => cases clone <;> exact h
  | _ => exact h

theorem TrySite.doomed_resume {s : TrySite} {k : Ret} (hd : s.doomed k = true) (ok : Bool) :
    (s.resume k ok).doomed = true := by
  cases s with
  | protocolError code reason => rfl
  | dropSend h i =>
      cases ok with
      | false => rfl
      | true => exact hd
  | dropRecv i =>
      cases ok with
      | false => rfl
      | true => exact hd

theorem Check.doomed_resume {c : Check} (hd : c.doomed = true) (b : Bool) :
    (c.resume cfg b).doomed = true := by
  cases c with
  | trySend s k =>
      cases b with
      | false => exact hd
      | true => exact TrySite.doomed_resume hd false
  | dropSend h i k => cases b <;> exact hd
  | _ => cases hd

/-- A step of a function that will end the session: it still will, or the session is closed. -/
theorem Task.doomed_next {t t' : Task} {a : Access} (hd : t.doomed = true)
    (hn : t.next cfg m = some (a, t')) :
    t'.doomed = true ∨ (m.apply a).flags.isClosed = true := by
  have hshut : ({ m.flags with shutdownStarted := true } : Flags).isClosed = true :=
    Bool.or_true _
  cases t with
  | handled ok => cases hn
  | anyOf flags c =>
      left
      cases flags with
      | nil =>
          cases hn
          exact Check.doomed_resume hd _
      | cons f fs =>
          simp only [Task.next] at hn
          split_ifs at hn
          · cases hn
            exact Check.doomed_resume hd _
          · cases hn
            exact Check.doomed_resume hd _
          · cases hn
            exact hd
  | trySend s k =>
      left
      simp only [Task.next] at hn
      split_ifs at hn <;> cases hn <;> exact TrySite.doomed_resume hd _
  | storeShutdown k =>
      cases hn
      exact .inr hshut
  | abandon i n =>
      cases hn
      exact .inr hshut
  | cancel k =>
      cases hn
      exact .inl (k.doomed_resume.trans hd)
  | closeAll c k =>
      cases c with
      | swapClosed =>
          right
          simp only [Task.next] at hn
          split_ifs at hn with hc
          · cases hn
            exact Bool.or_eq_true_iff.2 (.inl hc)
          · cases hn
            rfl
      | closeFlows =>
          cases hn
          exact .inl (k.doomed_resume.trans hd)
      | _ =>
          cases hn
          exact .inl hd
  | dropSend x i k =>
      simp only [Task.next] at hn
      split_ifs at hn <;> cases hn <;> exact .inl hd
  | dropSendRemove x i k =>
      cases hn
      exact .inl hd
  | releaseHandle x k =>
      cases hn
      exact .inl (k.doomed_resume.trans hd)
  | dropRecv i k =>
      simp only [Task.next] at hn
      split_ifs at hn <;> cases hn <;> exact .inl hd
  | dropRecvSwap i k =>
      simp only [Task.next] at hn
      split_ifs at hn <;> cases hn <;> exact .inl hd
  | closeReceiver i k =>
      cases hn
      exact .inl (k.doomed_resume.trans hd)
  | dropTx i k =>
      cases hn
      exact .inl (k.doomed_resume.trans hd)
  | _ => cases hd

theorem Task.not_doomed_of_cancelled {t t' : Task} (h : t.cancelled = some t') :
    t.doomed = false := by
  cases t <;> first | rfl | cases h

theorem Task.not_doomed_of_timedOut {t t' : Task} (h : t.timedOut = some t') :
    t.doomed = false := by
  cases t <;> first | rfl | cases h

theorem Task.doomed_aborted {t t' : Task} (hd : t.doomed = true) (h : t.aborted = some t') :
    t'.doomed = true := by
  cases t with
  | closeAll c k => cases c <;> cases h <;> exact k.doomed_resume.trans hd
  | reserve s => cases hd
  | acceptLock i x => cases hd
  | _ => cases h

theorem Turn.doomed {t t' : Task} {fs : List Frame} {b : Bool} (h : Turn cfg v t t' fs b)
    (hd : t.doomed = true) : t'.doomed = true := by
  cases h with
  | failed => rfl
  | _ => cases hd

/-- **Doomed sessions stay doomed.** -/
theorem Doomed.moves (hd : Doomed v.mem v.tasks) (h : Moves cfg v who v') :
    Doomed v'.mem v'.tasks := by
  rcases hd with hc | hex
  · left
    cases h with
    | next hi hn => exact Memory.isClosed_apply _ hc
    | spawn hcall => exact Memory.isClosed_apply _ hc
    | loop ha hb => exact Memory.isClosed_apply _ hc
    | _ => exact hc
  · cases h with
    | @next i t t' a hi hn =>
        rcases exists_mem_set (y := t') hi hex with hd | hex
        · rcases Task.doomed_next hd hn with hd' | hc
          · exact .inr ⟨t', List.mem_set (List.getElem?_eq_some_iff.1 hi).1 _, hd'⟩
          · exact .inl hc
        · exact .inr hex
    | @cancel who i t t' hi hc =>
        rcases exists_mem_set (y := t') hi hex with hd | hex
        · rw [Task.not_doomed_of_cancelled hc] at hd
          cases hd
        · exact .inr hex
    | @timeout who i t t' hi hc =>
        rcases exists_mem_set (y := t') hi hex with hd | hex
        · rw [Task.not_doomed_of_timedOut hc] at hd
          cases hd
        · exact .inr hex
    | @abort who t t' hi ha =>
        rcases exists_mem_set (y := t') hi hex with hd | hex
        · exact .inr ⟨t', List.mem_set (List.getElem?_eq_some_iff.1 hi).1 _,
            Task.doomed_aborted hd ha⟩
        · exact .inr hex
    | @turn who t t' fs b hi ht =>
        rcases exists_mem_set (y := t') hi hex with hd | hex
        · exact .inr ⟨t', List.mem_set (List.getElem?_eq_some_iff.1 hi).1 _, ht.doomed hd⟩
        · exact .inr hex
    | exit hi =>
        exact .inr ⟨taskFinished, List.mem_set (List.getElem?_eq_some_iff.1 hi).1 _, rfl⟩
    | spawn hc =>
        obtain ⟨t, ht, hd⟩ := hex
        exact .inr ⟨t, List.mem_append_left _ ht, hd⟩
    | loop ha hb => exact .inr hex

/-! ## The receiver of the queue -/

theorem Memory.rxDropped_apply {a : Access} (ha : a ≠ .chan .dropRx)
    (h : (m.apply a).chan.rxDropped = true) : m.chan.rxDropped = true := by
  cases a with
  | chan b =>
      cases b with
      | dropRx => exact absurd rfl ha
      | _ => exact h
  | handle b => cases b <;> exact h
  | session clone => cases clone <;> exact h
  | _ => exact h

theorem Task.next_ne_dropRx {t t' : Task} {a : Access} (hn : t.next cfg m = some (a, t')) :
    a ≠ .chan .dropRx := by
  replace hn := Task.steps_of_next hn
  induction hn with
  | closeAll c k => cases c <;> rintro ⟨⟩
  | _ => rintro ⟨⟩

theorem Call.start_ne_dropRx {c : Call} {u : Use} {a : Access} {t : Task}
    (h : c.start m = some (u, a, t)) : a ≠ .chan .dropRx := by
  rintro rfl
  cases Call.starts_of_start h

/-- A move keeps the receiver of the queue, or the session was or becomes doomed. -/
theorem Moves.rxDropped (h : Moves cfg v who v') (hrx : v'.mem.chan.rxDropped = true) :
    v.mem.chan.rxDropped = true ∨ Doomed v'.mem v'.tasks := by
  cases h with
  | next hi hn => exact .inl (Memory.rxDropped_apply (Task.next_ne_dropRx hn) hrx)
  | exit hi =>
      exact .inr (.inr ⟨taskFinished, List.mem_set (List.getElem?_eq_some_iff.1 hi).1 _, rfl⟩)
  | spawn hc => exact .inl (Memory.rxDropped_apply (Call.start_ne_dropRx hc) hrx)
  | loop ha hb =>
      refine .inl (Memory.rxDropped_apply ?_ hrx)
      rintro rfl
      cases ha
  | _ => exact .inl hrx

/-- **When the receiver of the queue is dropped, the session ends.** -/
theorem doomed_of_rxDropped {ok : Session → Label → Prop} {s : Session}
    (hr : Reachable (Session.step cfg) ok {} s) (h : s.mem.chan.rxDropped = true) :
    Doomed s.mem s.tasks := by
  induction hr with
  | init => cases h
  | step hr _ hs ih =>
      have hmoves := Session.moves_of_step hs
      rcases hmoves.rxDropped h with hrx | hd
      · exact (ih hrx).moves hmoves
      · exact hd

end WebsockMux.Native
