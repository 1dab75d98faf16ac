import WebsockMux.Native.Moves

/-!
# Admission to the outbound queue

Which accesses put a frame into the outbound queue (`Access.frame?`), and which functions perform
them: `send_frame`, `try_send_frame`, `poll_write` and `poll_shutdown` (`Task.admits`).
-/

set_option autoImplicit false

namespace WebsockMux.Native

open WebsockMux.Lib WebsockMux.Proto

variable {cfg : Config} {m : Memory} {v v' : View} {who : Option Nat}

/-- The frame that an access puts into the outbound queue. -/
def Access.frame? : Access → Option Frame
  | .chan (.publish f) => some f
  | .chan (.trySend f) => some f
  | .handle (.sendData _ f) => some f
  | .handle (.sendFin _ f) => some f
  | _ => none

theorem Memory.admitted_apply (m : Memory) (a : Access) :
    (m.apply a).chan.admitted = m.chan.admitted ++ a.frame?.toList := by
  cases a with
  | handle b => cases b <;> simp [Memory.apply, Channel.poll, Channel.enqueue, Access.frame?]
  | chan b => cases b <;> simp [Memory.apply, Channel.apply, Channel.enqueue, Access.frame?]
  | session clone => cases clone <;> simp [Memory.apply, Access.frame?]
  | _ => simp [Memory.apply, Access.frame?]

/-- The frame that a function puts into the queue if its next access publishes. -/
inductive Task.Admits (cfg : Config) : Task → Frame → Prop where
  | publish (s : SendSite) : Admits cfg (.publish s) (s.frame cfg)
  | trySend (s : TrySite) (k : Ret) : Admits cfg (.trySend s k) s.frame
  | pollWrite (c : Chunk) : Admits cfg (.pollPublish c) c.frame
  | pollShutdown (h : Nat) (id : StreamId) : Admits cfg (.shutdownPublish h id) (.stream id [] true)

/-- **Who puts a frame into the queue.** -/
theorem Task.admits {t t' : Task} {a : Access} {f : Frame} (hn : t.next cfg m = some (a, t'))
    (ha : a.frame? = some f) : Task.Admits cfg t f := by
  replace hn := Task.steps_of_next hn
  induction hn with
  | publish s =>
      cases ha
      exact .publish s
  | trySend s k =>
      cases ha
      exact .trySend s k
  | pollPublish c =>
      cases ha
      exact .pollWrite c
  | shutdownPublish h i =>
      cases ha
      exact .pollShutdown h i
  | closeAll c k => cases c <;> contradiction
  | _ => contradiction

theorem LoopAccess.frame?_eq {a : Access} (ha : LoopAccess m a) : a.frame? = none := by
  cases ha <;> rfl

theorem Call.frame?_start {c : Call} {u : Use} {a : Access} {t : Task}
    (h : c.start m = some (u, a, t)) : a.frame? = none := by
  cases Call.starts_of_start h <;> rfl

/-- **A move leaves the queue's history alone, or a function admits its frame.** -/
theorem Moves.admitted (h : Moves cfg v who v') :
    v'.mem.chan.admitted = v.mem.chan.admitted ∨
      ∃ i t t' a f, who = some i ∧ v.tasks[i]? = some t ∧ t.next cfg v.mem = some (a, t') ∧
        a.frame? = some f ∧ v' = { v with mem := v.mem.apply a, tasks := v.tasks.set i t' } ∧
        v'.mem.chan.admitted = v.mem.chan.admitted ++ [f] := by
  cases h with
  | @next i t t' a hi hn =>
      cases hf : a.frame? with
      | none =>
          left
          show (v.mem.apply a).chan.admitted = _
          rw [Memory.admitted_apply, hf]
          exact List.append_nil _
      | some f =>
          right
          refine ⟨i, t, t', a, f, rfl, hi, hn, hf, rfl, ?_⟩
          show (v.mem.apply a).chan.admitted = _
          rw [Memory.admitted_apply, hf]
          rfl
  | cancel hi hc => exact .inl rfl
  | timeout hi hc => exact .inl rfl
  | abort hi ha => exact .inl rfl
  | turn hi ht => exact .inl rfl
  | exit hi => exact .inl rfl
  | @spawn who c u a t hc =>
      left
      show (v.mem.apply a).chan.admitted = _
      rw [Memory.admitted_apply, Call.frame?_start hc]
      exact List.append_nil _
  | @loop who a b ha hb =>
      left
      show (v.mem.apply a).chan.admitted = _
      rw [Memory.admitted_apply, ha.frame?_eq]
      exact List.append_nil _

end WebsockMux.Native
