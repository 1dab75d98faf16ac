import Mathlib.Computability.StateTransition
import WebsockMux.Native.Tables

/-!
# Functions that run alone

What a function does when no other one runs in between: its steps are taken to the end
(`Task.runAlone`), and the result is unique. The functions of a session that cannot wait always return
then: a check of `is_closed`, `close_all`, `protocol_error`.

The frames that end a direction are handled so. `handle_frame` looks for the stream in the table
first and at the frontier second; in a reachable state that comes down to the rule of the
specification, that the identifier is legal and below the frontier (`terminal_frames_accepted`).
-/

set_option autoImplicit false

namespace WebsockMux.Native

open WebsockMux.Lib WebsockMux.Proto

variable {cfg : Config} {m : Memory} {t t' : Task} {a : Access}

/-- One step of a function that runs alone. -/
def aloneStep (cfg : Config) (x : Memory × Task) : Option (Memory × Task) :=
  (x.2.next cfg x.1).map fun y => (x.1.apply y.1, y.2)

/-- **A function runs alone** to its end: the memory after it and where it ends, if it does. -/
def Task.runAlone (cfg : Config) (m : Memory) (t : Task) : Part (Memory × Task) :=
  StateTransition.eval (aloneStep cfg) (m, t)

/-- A step is taken. -/
theorem Task.runAlone_next (hn : t.next cfg m = some (a, t')) :
    t.runAlone cfg m = t'.runAlone cfg (m.apply a) := by
  refine StateTransition.reaches_eval (Relation.ReflTransGen.single ?_)
  simp [aloneStep, hn]

/-- There is no step to take. -/
theorem Task.runAlone_end (hn : t.next cfg m = none) : t.runAlone cfg m = Part.some (m, t) := by
  refine Part.eq_some_iff.2 (StateTransition.mem_eval.2 ⟨.refl, ?_⟩)
  simp [aloneStep, hn]

theorem Task.runAlone_handled (ok : Bool) :
    (Task.handled ok).runAlone cfg m = Part.some (m, .handled ok) := Task.runAlone_end rfl

/-- **A function that runs alone gets to a control point**, with this memory. -/
def Task.Goes (cfg : Config) (m : Memory) (t : Task) (m' : Memory) (t' : Task) : Prop :=
  StateTransition.Reaches (aloneStep cfg) (m, t) (m', t')

namespace Task.Goes

variable {m₁ m₂ : Memory} {t₁ t₂ : Task}

theorem refl (cfg : Config) (m : Memory) (t : Task) : Goes cfg m t m t :=
  Relation.ReflTransGen.refl

theorem trans (h : Goes cfg m t m₁ t₁) (h' : Goes cfg m₁ t₁ m₂ t₂) : Goes cfg m t m₂ t₂ :=
  Relation.ReflTransGen.trans h h'

theorem single (hn : t.next cfg m = some (a, t')) : Goes cfg m t (m.apply a) t' :=
  Relation.ReflTransGen.single (by simp [aloneStep, hn])

/-- A step to a memory that is given in another form. -/
theorem last (hn : t.next cfg m = some (a, t')) (hm : m.apply a = m₁) : Goes cfg m t m₁ t' :=
  hm ▸ single hn

/-- A step is taken first. -/
theorem head (hn : t.next cfg m = some (a, t')) (h : Goes cfg (m.apply a) t' m₁ t₁) :
    Goes cfg m t m₁ t₁ := (single hn).trans h

/-- What the function does from there on is what it does. -/
theorem runAlone_eq (h : Goes cfg m t m₁ t₁) : t.runAlone cfg m = t₁.runAlone cfg m₁ :=
  StateTransition.reaches_eval h

/-- There is no step to take at the control point. -/
theorem runAlone_end (h : Goes cfg m t m₁ t₁) (hn : t₁.next cfg m₁ = none) :
    t.runAlone cfg m = Part.some (m₁, t₁) := h.runAlone_eq.trans (Task.runAlone_end hn)

end Task.Goes

/-! ## Functions that do not wait -/

/-- The session is not closed and not shutting down. -/
structure Memory.IsOpen (m : Memory) : Prop where
  closed : m.flags.closed = false
  shutdown : m.flags.shutdownStarted = false

/-- In an open session, `is_closed` is false. -/
theorem goes_isClosed (cfg : Config) (h : m.IsOpen) (c : Check) :
    (Task.anyOf isClosed c).Goes cfg m m (c.resume cfg false) := by
  have h₁ : (Task.anyOf isClosed c).next cfg m = some (.skip, .anyOf [.shutdownStarted] c) := by
    simp [isClosed, Task.next, Memory.flag, h.closed]
  have h₂ : (Task.anyOf [.shutdownStarted] c).next cfg m = some (.skip, c.resume cfg false) := by
    simp [Task.next, Memory.flag, h.shutdown]
  exact (Task.Goes.single h₁).trans (Task.Goes.single h₂)

theorem runAlone_isClosed (cfg : Config) (h : m.IsOpen) (c : Check) :
    (Task.anyOf isClosed c).runAlone cfg m = (c.resume cfg false).runAlone cfg m :=
  (goes_isClosed cfg h c).runAlone_eq

/-- Otherwise it is true. -/
theorem runAlone_isClosed_of_not (cfg : Config) (h : ¬ m.IsOpen) (c : Check) :
    (Task.anyOf isClosed c).runAlone cfg m = (c.resume cfg true).runAlone cfg m := by
  cases hc : m.flags.closed with
  | true =>
      have h₁ : (Task.anyOf isClosed c).next cfg m = some (.skip, c.resume cfg true) := by
        simp [isClosed, Task.next, Memory.flag, hc]
      exact Task.runAlone_next h₁
  | false =>
      have hs : m.flags.shutdownStarted = true := by
        by_contra hs
        exact h ⟨hc, by simpa using hs⟩
      have h₁ : (Task.anyOf isClosed c).next cfg m = some (.skip, .anyOf [.shutdownStarted] c) := by
        simp [isClosed, Task.next, Memory.flag, hc]
      have h₂ : (Task.anyOf [.shutdownStarted] c).next cfg m = some (.skip, c.resume cfg true) := by
        simp [Task.next, Memory.flag, hs]
      rw [Task.runAlone_next h₁]
      exact Task.runAlone_next h₂

/-- The memory after `close_all`. -/
def Memory.closeAll (m : Memory) : Memory :=
  if m.flags.closed then m
  else
    { m with
      flags := m.flags.apply .closed
      recvs := (m.recvs.apply .clearCredit).apply .clear
      accept := (m.accept.apply (.takeTx false)).apply (.takeTx true)
      sends := m.sends.apply .clear }

/-- `close_all` returns. -/
theorem goes_closeAll (cfg : Config) (m : Memory) (k : Ret) :
    (Task.closeAll .swapClosed k).Goes cfg m m.closeAll k.resume := by
  cases hc : m.flags.closed with
  | true =>
      have h : (Task.closeAll .swapClosed k).next cfg m = some (.skip, k.resume) := by
        simp [Task.next, hc]
      rw [Memory.closeAll, hc]
      exact Task.Goes.single h
  | false =>
      have h : (Task.closeAll .swapClosed k).next cfg m =
          some (.flag .closed, .closeAll .clearCredit k) := by
        simp [Task.next, hc, CloseStep.next]
      rw [Memory.closeAll, hc, if_neg Bool.false_ne_true]
      -- the other five steps do not depend on the memory
      exact (Task.Goes.single h).trans <| (Task.Goes.single rfl).trans <|
        (Task.Goes.single rfl).trans <| (Task.Goes.single rfl).trans <|
        (Task.Goes.single rfl).trans <| Task.Goes.last rfl rfl

theorem runAlone_closeAll (cfg : Config) (m : Memory) (k : Ret) :
    (Task.closeAll .swapClosed k).runAlone cfg m = k.resume.runAlone cfg m.closeAll :=
  (goes_closeAll cfg m k).runAlone_eq

@[simp] theorem Memory.closeAll_chan (m : Memory) : m.closeAll.chan = m.chan := by
  unfold Memory.closeAll
  split_ifs
  · rfl
  · rfl

/-- What `protocol_error` tells the peer, when the queue has room for it. -/
def Memory.notice (cfg : Config) (m : Memory) (code : Nat) (reason : String) : List Frame :=
  if m.flags.closed = false ∧ m.flags.shutdownStarted = false ∧ m.chan.rxDropped = false ∧
      m.chan.hasSlot cfg = true then
    [.connectionClose code reason]
  else []

/-- `protocol_error` returns; it tells the peer, if it can, and closes the session. -/
theorem runAlone_protocolError (cfg : Config) (m : Memory) (code : Nat) (reason : String) (k : Ret) :
    ∃ m', (protocolError code reason k).runAlone cfg m = k.resume.runAlone cfg m' ∧
      m'.chan.admitted = m.chan.admitted ++ m.notice cfg code reason := by
  have hclose : ∀ m₁ : Memory,
      m₁.chan.admitted = m.chan.admitted ++ m.notice cfg code reason →
      (protocolError code reason k).runAlone cfg m = (Task.closeAll .swapClosed k).runAlone cfg m₁ →
      ∃ m', (protocolError code reason k).runAlone cfg m = k.resume.runAlone cfg m' ∧
        m'.chan.admitted = m.chan.admitted ++ m.notice cfg code reason := by
    intro m₁ hadm h
    exact ⟨m₁.closeAll, h.trans (runAlone_closeAll cfg m₁ k), by rw [Memory.closeAll_chan, hadm]⟩
  by_cases hopen : m.IsOpen
  · have h := runAlone_isClosed cfg hopen (.trySend (.protocolError code reason) k)
    by_cases hroom : m.chan.rxDropped = false ∧ m.chan.hasSlot cfg = true
    · have hn : (Task.trySend (.protocolError code reason) k).next cfg m =
          some (.chan (.trySend (.connectionClose code reason)), .closeAll .swapClosed k) := by
        simp [Task.next, hroom.1, hroom.2, TrySite.frame, TrySite.resume]
      refine hclose (m.apply (.chan (.trySend (.connectionClose code reason)))) ?_
        (h.trans (Task.runAlone_next hn))
      rw [Memory.notice, if_pos ⟨hopen.closed, hopen.shutdown, hroom⟩]
      rfl
    · have hn : (Task.trySend (.protocolError code reason) k).next cfg m =
          some (.skip, .closeAll .swapClosed k) := by
        have : (!m.chan.rxDropped && m.chan.hasSlot cfg) = false := by
          by_contra hc
          simp only [Bool.not_eq_false, Bool.and_eq_true, Bool.not_eq_true'] at hc
          exact hroom hc
        simp [Task.next, this, TrySite.resume]
      refine hclose m ?_ (h.trans (Task.runAlone_next hn))
      rw [Memory.notice, if_neg fun hc => hroom hc.2.2, List.append_nil]
  · refine hclose m ?_ (runAlone_isClosed_of_not cfg hopen (.trySend (.protocolError code reason) k))
    rw [Memory.notice, if_neg fun hc => hopen ⟨hc.1, hc.2.1⟩, List.append_nil]

/-! ## The frames that end a direction -/

/-- `is_retired_direction` is the rule of the specification. -/
theorem isRetired_recv_iff (x : Ids) (id : StreamId) :
    x.isRetiredDirection cfg id true = true ↔ cfg.Receives id ∧ id.counter < x.frontier cfg id := by
  unfold Ids.isRetiredDirection Config.Receives
  cases hd : id.dir with
  | bi => simp
  | uni => by_cases hi : id.initiatorIsServer = cfg.isServer <;> simp [hi]

theorem isRetired_send_iff (x : Ids) (id : StreamId) :
    x.isRetiredDirection cfg id false = true ↔ cfg.Sends id ∧ id.counter < x.frontier cfg id := by
  unfold Ids.isRetiredDirection Config.Sends
  cases hd : id.dir with
  | bi => simp
  | uni => by_cases hi : id.initiatorIsServer = cfg.isServer <;> simp [hi]

/-- The second look, at the frontier: `handle_frame` succeeds below it, and else it is a protocol
error. -/
theorem runAlone_retired (cfg : Config) (m : Memory) (id : StreamId) (receiving : Bool) :
    ∃ m', (Task.retired id receiving).runAlone cfg m =
        Part.some (m', .handled (m.ids.isRetiredDirection cfg id receiving)) ∧
      m'.chan.admitted = m.chan.admitted ++
        if m.ids.isRetiredDirection cfg id receiving then []
        else m.notice cfg 1
          (if receiving then "reset on unknown stream" else "stop on unknown stream") := by
  cases hr : m.ids.isRetiredDirection cfg id receiving with
  | true =>
      have hn : (Task.retired id receiving).next cfg m = some (.skip, .handled true) := by
        simp [Task.next, hr]
      refine ⟨m, ?_, by simp⟩
      rw [Task.runAlone_next hn]
      exact Task.runAlone_handled true
  | false =>
      have hn : (Task.retired id receiving).next cfg m = some (.skip, protocolError 1
          (if receiving then "reset on unknown stream" else "stop on unknown stream")
          (.handled false)) := by
        simp [Task.next, hr]
      obtain ⟨m', h, hadm⟩ := runAlone_protocolError cfg m 1
        (if receiving then "reset on unknown stream" else "stop on unknown stream") (.handled false)
      refine ⟨m', ?_, by simpa using hadm⟩
      rw [Task.runAlone_next hn]
      exact h.trans (Task.runAlone_handled false)

section Session

variable {s : Session} {id : StreamId}

/-- A receive stream in the table is one on which the session receives, and below the frontier. -/
theorem isRetired_of_mem_streams (hr : Reachable (Session.step cfg) anyStep {} s)
    (h : id ∈ s.mem.recvs.streams) : s.mem.ids.isRetiredDirection cfg id true = true := by
  have hreg := recv_registered hr h
  exact (isRetired_recv_iff _ _).2
    ⟨(registeredLegal_of_reachable hr).recv id hreg, recv_counter_lt hr hreg⟩

/-- A send flow in the table is one on which the session sends, and below the frontier. -/
theorem isRetired_of_mem_flows (hr : Reachable (Session.step cfg) anyStep {} s)
    (h : id ∈ s.mem.sends.flows) : s.mem.ids.isRetiredDirection cfg id false = true := by
  have hreg := send_registered hr h
  exact (isRetired_send_iff _ _).2
    ⟨(registeredLegal_of_reachable hr).send id hreg, send_counter_lt hr hreg⟩

/-- `handle_frame` of a `ResetStream`, run alone: a stream in the table leaves it, and the result is
that of the look at the frontier in either case. -/
theorem runAlone_recvReset (hr : Reachable (Session.step cfg) anyStep {} s) (id : StreamId) :
    ∃ m', (Task.recvReset id).runAlone cfg s.mem =
        Part.some (m', .handled (s.mem.ids.isRetiredDirection cfg id true)) ∧
      m'.chan.admitted = s.mem.chan.admitted ++
        if s.mem.ids.isRetiredDirection cfg id true then []
        else s.mem.notice cfg 1 "reset on unknown stream" := by
  by_cases hid : id ∈ s.mem.recvs.streams
  · have hret := isRetired_of_mem_streams hr hid
    have hn : (Task.recvReset id).next cfg s.mem = some (.recv (.remove id), .handled true) := by
      simp [Task.next, hid]
    refine ⟨s.mem.apply (.recv (.remove id)), ?_, ?_⟩
    · rw [Task.runAlone_next hn, hret]
      exact Task.runAlone_handled true
    · rw [hret]
      simp [Memory.apply]
  · have hn : (Task.recvReset id).next cfg s.mem = some (.skip, .retired id true) := by
      simp [Task.next, hid]
    rw [Task.runAlone_next hn]
    exact runAlone_retired cfg s.mem id true

/-- The session can send: it is open, the outbound task is there, and its queue has room. -/
structure Memory.CanSend (cfg : Config) (m : Memory) : Prop extends m.IsOpen where
  receiver : m.chan.rxDropped = false
  slot : m.chan.hasSlot cfg = true

/-- `handle_frame` of a `StopSending`, run alone with room in the queue: an open flow leaves the
table and a reset is enqueued, and the result is that of the look at the frontier in either case. -/
theorem runAlone_stopFlow (hr : Reachable (Session.step cfg) anyStep {} s) (hs : s.mem.CanSend cfg)
    (id : StreamId) (code : Nat) :
    ∃ m', (Task.stopFlow id code).runAlone cfg s.mem =
        Part.some (m', .handled (s.mem.ids.isRetiredDirection cfg id false)) ∧
      m'.chan.admitted = s.mem.chan.admitted ++
        if id ∈ s.mem.sends.flows then [.resetStream id code]
        else if s.mem.ids.isRetiredDirection cfg id false then []
        else [.connectionClose 1 "stop on unknown stream"] := by
  by_cases hid : id ∈ s.mem.sends.flows
  · have hret := isRetired_of_mem_flows hr hid
    have h₁ : (Task.stopFlow id code).next cfg s.mem =
        some (.send (.remove id), sendFrame (.inboundReset id code)) := by
      simp [Task.next, hid]
    have hopen : (s.mem.apply (.send (.remove id))).IsOpen := ⟨hs.closed, hs.shutdown⟩
    have h₂ : (Task.reserve (.inboundReset id code)).next cfg (s.mem.apply (.send (.remove id))) =
        some (.chan .takeSlot, .publish (.inboundReset id code)) := by
      have hrx : (s.mem.apply (.send (.remove id))).chan.rxDropped = false := hs.receiver
      have hslot : (s.mem.apply (.send (.remove id))).chan.hasSlot cfg = true := hs.slot
      simp [Task.next, hrx, hslot]
    refine ⟨((s.mem.apply (.send (.remove id))).apply (.chan .takeSlot)).apply
      (.chan (.publish (.resetStream id code))), ?_, ?_⟩
    · calc (Task.stopFlow id code).runAlone cfg s.mem
          = (sendFrame (.inboundReset id code)).runAlone cfg _ := Task.runAlone_next h₁
        _ = (Task.reserve (.inboundReset id code)).runAlone cfg _ := runAlone_isClosed cfg hopen _
        _ = (Task.publish (.inboundReset id code)).runAlone cfg _ := Task.runAlone_next h₂
        _ = (Task.handled true).runAlone cfg _ := Task.runAlone_next rfl
        _ = Part.some (_, .handled (s.mem.ids.isRetiredDirection cfg id false)) := by
            rw [hret]
            exact Task.runAlone_handled true
    · rw [if_pos hid]
      rfl
  · have hn : (Task.stopFlow id code).next cfg s.mem = some (.skip, .retired id false) := by
      simp [Task.next, hid]
    have hnotice : s.mem.notice cfg 1 "stop on unknown stream" =
        [.connectionClose 1 "stop on unknown stream"] :=
      if_pos ⟨hs.closed, hs.shutdown, hs.receiver, hs.slot⟩
    rw [Task.runAlone_next hn, if_neg hid, ← hnotice]
    exact runAlone_retired cfg s.mem id false

/-- **The frames that end a direction are accepted exactly below the frontier.** In every state of a
session, of either role, `handle_frame` returns for every `ResetStream`, and it succeeds if and only
if the session receives on the stream and the counter of its identifier is below the frontier for
its initiator and direction. Where the session can send, `handle_frame` returns for every
`StopSending`, and it succeeds if and only if the session sends on the stream and the counter is
below the frontier; it enqueues a `ResetStream` with the same code exactly when the flow was in the
table, and nothing else, unless it fails and `protocol_error` tells the peer.

Other functions may run between the look at the table and the look at the frontier. The second look
(`Task.retired`) decides by the same rule, in whatever state it is taken. -/
theorem terminal_frames_accepted (hr : Reachable (Session.step cfg) anyStep {} s) (id : StreamId)
    (code : Nat) :
    (∀ t, t = handleFrame cfg (.resetStream id code) ∨ t = .retired id true →
      ∃ m' ok, t.runAlone cfg s.mem = Part.some (m', .handled ok) ∧
        (ok = true ↔ cfg.Receives id ∧ id.counter < s.mem.ids.frontier cfg id)) ∧
    (∃ m' ok, (Task.retired id false).runAlone cfg s.mem = Part.some (m', .handled ok) ∧
      (ok = true ↔ cfg.Sends id ∧ id.counter < s.mem.ids.frontier cfg id)) ∧
    (s.mem.CanSend cfg →
      ∃ m' ok, (handleFrame cfg (.stopSending id code)).runAlone cfg s.mem =
          Part.some (m', .handled ok) ∧
        (ok = true ↔ cfg.Sends id ∧ id.counter < s.mem.ids.frontier cfg id) ∧
        m'.chan.admitted = s.mem.chan.admitted ++
          if id ∈ s.mem.sends.flows then [.resetStream id code]
          else if ok then []
          else [.connectionClose 1 "stop on unknown stream"]) := by
  refine ⟨?_, ?_, ?_⟩
  · rintro t (rfl | rfl)
    · obtain ⟨m', h, -⟩ := runAlone_recvReset hr id
      exact ⟨m', _, h, isRetired_recv_iff _ _⟩
    · obtain ⟨m', h, -⟩ := runAlone_retired cfg s.mem id true
      exact ⟨m', _, h, isRetired_recv_iff _ _⟩
  · obtain ⟨m', h, -⟩ := runAlone_retired cfg s.mem id false
    exact ⟨m', _, h, isRetired_send_iff _ _⟩
  · intro hs
    obtain ⟨m', h, hadm⟩ := runAlone_stopFlow hr hs id code
    exact ⟨m', _, h, isRetired_send_iff _ _, hadm⟩

/-- A client opens a unidirectional stream. It accepts a `StopSending` for it and answers with a
reset; a `ResetStream` for it, on which the client does not receive, is an error. -/
theorem terminal_frames_accepted_run :
    ∃ s, Reachable (Session.step ⟨false, {}⟩) anyStep {} s ∧
      (∃ m', (handleFrame ⟨false, {}⟩ (.stopSending ⟨2⟩ 7)).runAlone ⟨false, {}⟩ s.mem =
          Part.some (m', .handled true) ∧
        m'.chan.admitted = [.openUni ⟨2⟩, .resetStream ⟨2⟩ 7]) ∧
      ∃ m', (handleFrame ⟨false, {}⟩ (.resetStream ⟨2⟩ 7)).runAlone ⟨false, {}⟩ s.mem =
        Part.some (m', .handled false) := by
  obtain ⟨s, hr, ⟨hc, hsh, hrx, hslot⟩, hflow, hids, hadm⟩ :
      ∃ s, Reachable (Session.step ⟨false, {}⟩) anyStep {} s ∧
        (s.mem.flags.closed = false ∧ s.mem.flags.shutdownStarted = false ∧
          s.mem.chan.rxDropped = false ∧ s.mem.chan.hasSlot ⟨false, {}⟩ = true) ∧
        (⟨2⟩ : StreamId) ∈ s.mem.sends.flows ∧ s.mem.ids = ⟨1, 0, 0, 0⟩ ∧
        s.mem.chan.admitted = [.openUni ⟨2⟩] :=
    Reachable.exists_of_run (List.flatten [[.call .openUni], List.replicate 7 (.op 0)])
      (by decide +kernel)
  obtain ⟨hreset, -, hstop⟩ := terminal_frames_accepted hr ⟨2⟩ 7
  refine ⟨s, hr, ?_, ?_⟩
  · obtain ⟨m', ok, h, hok, hm'⟩ := hstop ⟨⟨hc, hsh⟩, hrx, hslot⟩
    have htrue : ok = true := hok.2 ⟨.inr (by decide), by rw [hids]; decide⟩
    refine ⟨m', htrue ▸ h, ?_⟩
    rw [hm', if_pos hflow, hadm]
    rfl
  · obtain ⟨m', ok, h, hok⟩ := hreset _ (.inl rfl)
    have hfalse : ok = false := by
      by_contra ht
      obtain ⟨hdir | hinit, -⟩ := hok.1 (by simpa using ht)
      · revert hdir
        decide
      · exact hinit (by decide)
    exact ⟨m', hfalse ▸ h⟩

end Session

end WebsockMux.Native
