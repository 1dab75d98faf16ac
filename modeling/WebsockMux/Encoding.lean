import WebsockMux.Native.Encodable
import WebsockMux.Native.Outcome
import WebsockMux.Wasm.Encodable

/-!
# Frames that can be encoded

`Frame::encode` writes the fields of a frame as varints and has no answer for a value of 62 bits or
more. No session comes to that: every frame that a native or a browser session with validated limits
puts into its queue, or would get from `next_credit`, has all its varints in range. The one place
where a value of the application enters a frame unchanged is the code of `reset` and `stop`, and
there a value out of range is refused before it can touch the stream (`frames_encodable`).
-/

set_option autoImplicit false

namespace WebsockMux.Native

open WebsockMux.Lib WebsockMux.Proto

variable {cfg : Config} {m : Memory} {t t' : Task} {a : Access} {i code : Nat} {id : StreamId}
  {x x' : OpWatch} {l : Label}

/-! ## Codes out of range in a native session -/

/-- The control points of a `reset` that is refused, and what it will return: it takes the guard, if
it gets it, finds the code out of range, and gives the guard back. -/
inductive Task.Refuses (id : StreamId) (code : Nat) : Task → Option Outcome → Prop where
  | swap : Refuses id code (.swapOperation (.reset id code)) none
  | ending : Refuses id code (.endOperation id) (some .err)
  | done : Refuses id code .done (some .err)

/-- A step of a refused `reset` moves the guard, or nothing. -/
theorem Task.Refuses.next {r : Option Outcome} (h : t.Refuses id code r) (hc : VarInt.max < code)
    (hn : t.next cfg m = some (a, t')) :
    t'.Refuses id code (r <|> t.outcome cfg m) ∧
      (a = .skip ∨ ∃ b, a = .send (.setOperation id b)) := by
  cases h with
  | swap =>
      have hbody : (SendCall.reset id code).body = .endOperation id := if_neg (by omega)
      have hout : (SendCall.reset id code).outcome = some .err := if_neg (by omega)
      simp only [Task.next] at hn
      simp only [Task.outcome]
      split_ifs at hn ⊢
      · cases hn
        exact ⟨.done, .inl rfl⟩
      · cases hn
        rw [hbody, hout]
        exact ⟨.ending, .inr ⟨true, rfl⟩⟩
  | ending =>
      cases hn
      exact ⟨.done, .inr ⟨false, rfl⟩⟩
  | done => cases hn

/-- A refused `reset` has no deadline, cannot be suspended, and goes on until it has returned. -/
theorem Task.Refuses.runs {r : Option Outcome} (h : t.Refuses id code r) (cfg : Config)
    (m : Memory) :
    t.timedOut = none ∧ t.cancelled = none ∧ (t = .done ∨ ∃ y, t.next cfg m = some y) := by
  cases h with
  | swap =>
      refine ⟨rfl, rfl, .inr ?_⟩
      simp only [Task.next]
      split_ifs
      · exact ⟨_, rfl⟩
      · exact ⟨_, rfl⟩
  | ending => exact ⟨rfl, rfl, .inr ⟨_, rfl⟩⟩
  | done => exact ⟨rfl, rfl, .inl rfl⟩

/-- The record of a refused `reset`. -/
structure Refused (id : StreamId) (code i : Nat) (x : OpWatch) : Prop where
  task : ∃ t, x.task? i = some t ∧ t.Refuses id code x.result
  enqueued : x.enqueued = []
  kept : x.dropped = false

/-- **A refused `reset` stays refused**, whatever else the session does. -/
theorem Refused.step (h : Refused id code i x) (hc : VarInt.max < code)
    (hs : x.step cfg i id l = some x') : Refused id code i x' := by
  obtain ⟨t, ht, href⟩ := h.task
  obtain ⟨htime, hcancelled, -⟩ := href.runs cfg x.session.mem
  have hsession := OpWatch.session_of_step hs
  rcases OpWatch.step_cases hs with ⟨rfl, hx⟩ | ⟨hl, hx⟩
  · obtain ⟨a, t', hn, hmem, htask, hresult, henq⟩ := OpWatch.own hsession ht id
    obtain ⟨href', ha⟩ := href.next hc hn
    have hquiet : a.frame? = none := by
      rcases ha with rfl | ⟨b, rfl⟩
      · rfl
      · rfl
    rw [hx]
    refine ⟨⟨t', htask, hresult ▸ href'⟩, ?_, h.kept⟩
    rw [henq, hquiet, h.enqueued]
    rfl
  · have hcancel : l ≠ .cancelOp i := by
      rintro rfl
      obtain ⟨o, ho, rfl⟩ := OpWatch.op_of_task ht
      simp only [Session.step, ho, hcancelled] at hsession
      cases hsession
    rw [hx]
    refine ⟨⟨t, OpWatch.task?_other hsession ht hl hcancel htime, href⟩, h.enqueued, ?_⟩
    exact Bool.or_eq_false_iff.2 ⟨h.kept, decide_eq_false hcancel⟩

/-- The guard is taken and given back: the table is as before. -/
theorem SendTable.setOperation_back {s : SendTable} (h : (s.cell id).operation = false) :
    (s.apply (.setOperation id true)).apply (.setOperation id false) = s := by
  have hcell : { s.cell id with operation := false } = s.cell id := by
    rw [← h]
  simp [SendTable.apply, SendTable.modify, hcell]

/-- The refused call starts at the swap of `operation`, with the memory unchanged. -/
theorem reset_start {s₀ s₁ : Session} {h : Nat} {y : SendHandle}
    (hy : s₀.mem.handles[h]? = some y) (hs : s₀.step cfg (.call (.reset h code)) = some s₁) :
    s₁.mem = s₀.mem ∧ ({ session := s₁ } : OpWatch).task? s₀.ops.length =
      some (.swapOperation (.reset y.id code)) := by
  obtain ⟨u, a, t, hst, hmem, htask⟩ := Session.call_cases hs
  simp only [Call.start, Call.onSend, hy] at hst
  split_ifs at hst
  cases hst
  exact ⟨hmem, htask⟩

/-- **`reset` with a code out of range is refused.** In every continuation the operation has put
nothing into the queue, and it has returned an error or goes on with a step that moves the guard or
nothing. -/
theorem reset_refused {s₀ s₁ : Session} {h : Nat} {y : SendHandle}
    (hy : s₀.mem.handles[h]? = some y) (hc : VarInt.max < code)
    (hs : s₀.step cfg (.call (.reset h code)) = some s₁)
    (hx : Reachable (OpWatch.step cfg s₀.ops.length y.id) anyStep { session := s₁ } x) :
    x.enqueued = [] ∧ x.dropped = false ∧
      ((x.task? s₀.ops.length = some .done ∧ x.result = some .err) ∨
        ∃ s, x.session.step cfg (.op s₀.ops.length) = some s ∧
          (s.mem = x.session.mem ∨
            ∃ b, s.mem = x.session.mem.apply (.send (.setOperation y.id b)))) := by
  have hinit : Refused y.id code s₀.ops.length { session := s₁ } :=
    ⟨⟨_, (reset_start hy hs).2, .swap⟩, rfl, rfl⟩
  have hr : Refused y.id code s₀.ops.length x :=
    hx.invariant hinit fun _ h _ hs => h.step hc hs
  obtain ⟨t, ht, href⟩ := hr.task
  refine ⟨hr.enqueued, hr.kept, ?_⟩
  obtain ⟨-, -, rfl | ⟨⟨a, t'⟩, hn⟩⟩ := href.runs cfg x.session.mem
  · generalize x.result = r at href
    cases href
    exact .inl ⟨ht, rfl⟩
  · obtain ⟨o, ho, rfl⟩ := OpWatch.op_of_task ht
    refine .inr ⟨x.session.setOp s₀.ops.length o a t', ?_, ?_⟩
    · simp only [Session.step, ho, hn]
      rfl
    · rcases (href.next hc hn).2 with rfl | ⟨b, rfl⟩
      · exact .inl rfl
      · exact .inr ⟨b, rfl⟩

/-- **Run alone, a refused `reset` leaves the memory as it was.** -/
theorem reset_refused_alone {s₀ s₁ : Session} {h : Nat} {y : SendHandle}
    (hy : s₀.mem.handles[h]? = some y) (hc : VarInt.max < code)
    (hs : s₀.step cfg (.call (.reset h code)) = some s₁) :
    ∃ n s, run (Session.step cfg) anyStep s₁ (List.replicate n (.op s₀.ops.length)) = some s ∧
      s.mem = s₀.mem ∧ ({ session := s } : OpWatch).task? s₀.ops.length = some .done := by
  obtain ⟨hmem, htask⟩ := reset_start hy hs
  obtain ⟨o, ho, hot⟩ := OpWatch.op_of_task htask
  have hlt : s₀.ops.length < s₁.ops.length := (List.getElem?_eq_some_iff.1 ho).1
  have hself : ∀ o', (s₁.ops.set s₀.ops.length o')[s₀.ops.length]? = some o' := fun _ =>
    List.getElem?_set_self hlt
  have hbody : (SendCall.reset y.id code).body = .endOperation y.id := if_neg (by omega)
  cases hop : (s₁.mem.sends.cell y.id).operation with
  | true =>
      -- another operation has the guard
      refine ⟨1, s₁.setOp s₀.ops.length o .skip .done, ?_, hmem, ?_⟩
      · have hn : o.task.next cfg s₁.mem = some (.skip, .done) := by
          rw [hot]
          simp only [Task.next, SendCall.id, hop, if_true]
        simp [run, anyStep, Session.step, ho, hn]
      · show ((s₁.ops.set _ _)[_]?).map Op.task = _
        rw [hself]
        rfl
  | false =>
      let o₁ : Op := { o with task := .endOperation y.id }
      let s₂ := s₁.setOp s₀.ops.length o (.send (.setOperation y.id true)) (.endOperation y.id)
      refine ⟨2, s₂.setOp s₀.ops.length o₁ (.send (.setOperation y.id false)) .done, ?_, ?_, ?_⟩
      · have hn : o.task.next cfg s₁.mem =
            some (.send (.setOperation y.id true), .endOperation y.id) := by
          rw [hot]
          simp only [Task.next, SendCall.id, hop, hbody]
          rfl
        have h₁ : s₁.step cfg (.op s₀.ops.length) = some s₂ := by
          simp only [Session.step, ho, hn]
          rfl
        have ho₂ : s₂.ops[s₀.ops.length]? = some o₁ := hself o₁
        have h₂ : s₂.step cfg (.op s₀.ops.length) =
            some (s₂.setOp s₀.ops.length o₁ (.send (.setOperation y.id false)) .done) := by
          simp only [Session.step, ho₂]
          rfl
        simp [run, anyStep, h₁, h₂]
      · show { s₁.mem with sends :=
          (s₁.mem.sends.apply (.setOperation y.id true)).apply (.setOperation y.id false) } = s₀.mem
        rw [SendTable.setOperation_back hop]
        exact hmem
      · show (((s₁.ops.set _ _).set _ _)[_]?).map Op.task = _
        rw [List.set_set, hself]
        rfl

/-- **`stop` with a code out of range is refused** at once. -/
theorem stop_refused {s₀ s₁ : Session} (hc : VarInt.max < code)
    (hs : s₀.step cfg (.call (.stop id code)) = some s₁) :
    s₁.mem = s₀.mem ∧ ({ session := s₁ } : OpWatch).task? s₀.ops.length = some .done ∧
      (Call.stop id code).outcome = some .err := by
  obtain ⟨u, a, t, hst, hmem, htask⟩ := Session.call_cases hs
  have hle : ¬ code ≤ VarInt.max := by omega
  simp only [Call.start, Call.onRecv, if_neg hle] at hst
  split_ifs at hst
  cases hst
  exact ⟨hmem, htask, if_neg hle⟩

end WebsockMux.Native

namespace WebsockMux.Wasm

open WebsockMux.Lib WebsockMux.Proto
open WebsockMux.Native (Limits)

/-! ## Codes out of range in a browser session -/

/-- **`reset` with a code out of range is refused**, and the memory is as before. -/
theorem Memory.reset_refused (l : Limits) (m : Memory) (id : StreamId) {code : Nat}
    (hc : VarInt.max < code) :
    (m.reset l id code).1 = m ∧ ∃ e, (m.reset l id code).2 = .error e := by
  cases hop : (m.sends.cell id).operation with
  | true =>
      have hb : m.beginOperation id 0 =
          (m, .error (.protocol "concurrent send operations are unsupported")) := by
        simp [Memory.beginOperation, Memory.selectApi, hop]
      simp only [Memory.reset, hb]
      exact ⟨trivial, _, rfl⟩
  | false =>
      have hb : m.beginOperation id 0 =
          ({ m with sends := m.sends.apply (.setOperation id true) }, .ok ()) := by
        simp [Memory.beginOperation, Memory.selectApi, hop]
      simp only [Memory.reset, hb, Memory.resetBody, if_pos hc, Memory.endOperation,
        Native.SendTable.setOperation_back hop]
      exact ⟨trivial, _, rfl⟩

/-- **`stop` with a code out of range is refused**, and the memory is as before. -/
theorem Memory.stop_refused (l : Limits) (m : Memory) (id : StreamId) {code : Nat}
    (hc : VarInt.max < code) :
    (m.stop l id code).1 = m ∧ ∃ e, (m.stop l id code).2 = .error e := by
  simp only [Memory.stop, if_pos hc]
  exact ⟨trivial, _, rfl⟩

end WebsockMux.Wasm

namespace WebsockMux

open WebsockMux.Lib WebsockMux.Proto
open WebsockMux.Native (Limits Config OpWatch SendHandle)

/-! ## Both sessions -/

/-- **Every frame that a session enqueues can be encoded.** With validated limits, in every state of
a native and of a browser session: every frame that was put into the queue, every frame that
`next_credit` would give and every frame that was taken for the wire has its varints below `2 ^ 62`,
so `Frame::encode` is defined on it. A code of `2 ^ 62` or more is refused by `reset` and `stop` of
either session: the operation returns an error, enqueues nothing and leaves the stream as it was. A
native `reset` only takes and gives back the guard in between. -/
theorem frames_encodable {l : Limits} (hl : l.validate = .ok ()) :
    (∀ (isServer : Bool) (s : Native.Session),
      Reachable (Native.Session.step ⟨isServer, l⟩) anyStep {} s →
      ∀ f, (f ∈ s.mem.chan.admitted ∨ f ∈ s.out.taken ∨ ∃ id ∈ s.mem.recvs.pendingCredit,
          f = .maxStreamData id (s.mem.recvs.cell id).credit) →
        f.Encodable ∧ ∃ bytes, f.encode = some bytes) ∧
    (∀ s : Wasm.Session, Reachable (Wasm.Session.step l) anyStep {} s →
      ∀ f, (f ∈ s.mem.chan.admitted ∨ f ∈ s.taken ∨ ∃ id ∈ s.mem.recvs.pendingCredit,
          f = .maxStreamData id (s.mem.recvs.cell id).credit) →
        f.Encodable ∧ ∃ bytes, f.encode = some bytes) ∧
    ∀ code, 2 ^ 62 ≤ code →
      (∀ (cfg : Config) (s₀ s₁ : Native.Session) (h : Nat) (y : SendHandle),
        s₀.mem.handles[h]? = some y → s₀.step cfg (.call (.reset h code)) = some s₁ →
        (∀ x, Reachable (OpWatch.step cfg s₀.ops.length y.id) anyStep { session := s₁ } x →
          x.enqueued = [] ∧ x.dropped = false ∧
          ((x.task? s₀.ops.length = some .done ∧ x.result = some .err) ∨
            ∃ s, x.session.step cfg (.op s₀.ops.length) = some s ∧
              (s.mem = x.session.mem ∨
                ∃ b, s.mem = x.session.mem.apply (.send (.setOperation y.id b))))) ∧
        ∃ n s, run (Native.Session.step cfg) anyStep s₁
            (List.replicate n (.op s₀.ops.length)) = some s ∧
          s.mem = s₀.mem ∧ ({ session := s } : OpWatch).task? s₀.ops.length = some .done) ∧
      (∀ (cfg : Config) (s₀ s₁ : Native.Session) (id : StreamId),
        s₀.step cfg (.call (.stop id code)) = some s₁ →
        s₁.mem = s₀.mem ∧ ({ session := s₁ } : OpWatch).task? s₀.ops.length = some .done ∧
          (Native.Call.stop id code).outcome = some .err) ∧
      (∀ (m : Wasm.Memory) (id : StreamId),
        (m.reset l id code).1 = m ∧ ∃ e, (m.reset l id code).2 = .error e) ∧
      ∀ (m : Wasm.Memory) (id : StreamId),
        (m.stop l id code).1 = m ∧ ∃ e, (m.stop l id code).2 = .error e := by
  have hv := (Limits.validate_iff l).1 hl
  have henc : ∀ {f : Frame}, f.Encodable → f.Encodable ∧ ∃ bytes, f.encode = some bytes := by
    intro f hf
    obtain ⟨bytes, hb, -⟩ := Frame.exists_encode hf
    exact ⟨hf, bytes, hb⟩
  refine ⟨?_, ?_, ?_⟩
  · intro isServer s hr f hf
    have he : Native.EncodableFrames s := Native.encodableFrames_of_reachable hv hr
    rcases hf with hf | hf | ⟨id, hid, rfl⟩
    · exact henc (he.admitted f hf)
    · exact henc (he.taken f hf)
    · exact henc (he.credit id hid)
  · intro s hr f hf
    have he := Wasm.sessionFits_of_reachable hv hr
    rcases hf with hf | hf | ⟨id, hid, rfl⟩
    · exact henc (he.mem.admitted f hf)
    · exact henc (he.taken f hf)
    · exact henc (he.encodable_credit hid)
  · intro code hc
    have hmax : VarInt.max < code := by
      have : VarInt.max + 1 = 2 ^ 62 := by decide
      omega
    refine ⟨?_, ?_, ?_, ?_⟩
    · intro cfg s₀ s₁ h y hy hs
      exact ⟨fun x hx => Native.reset_refused hy hmax hs hx, Native.reset_refused_alone hy hmax hs⟩
    · intro cfg s₀ s₁ id hs
      exact Native.stop_refused hmax hs
    · exact fun m id => m.reset_refused l id hmax
    · exact fun m id => m.stop_refused l id hmax

/-- A stream is opened under the default limits. -/
theorem frames_encodable_open :
    ∃ s, Reachable (Native.Session.step ⟨false, {}⟩) anyStep {} s ∧
      s.mem.chan.admitted = [.openUni ⟨2⟩] ∧ ∃ bytes, (Frame.openUni ⟨2⟩).encode = some bytes := by
  obtain ⟨s, hr, hf⟩ : ∃ s, Reachable (Native.Session.step ⟨false, {}⟩) anyStep {} s ∧
      s.mem.chan.admitted = [.openUni ⟨2⟩] :=
    Reachable.exists_of_run (List.flatten [[.call .openUni], List.replicate 7 (.op 0)])
      (by decide +kernel)
  have hmem : Frame.openUni ⟨2⟩ ∈ s.mem.chan.admitted := hf ▸ List.mem_singleton.2 rfl
  exact ⟨s, hr, hf, ((frames_encodable (l := {}) (by decide)).1 false s hr _ (.inl hmem)).2⟩

end WebsockMux
