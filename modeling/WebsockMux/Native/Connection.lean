import WebsockMux.Native.Inbox
import WebsockMux.Native.RecvInvariant
import WebsockMux.Native.StillOpen

/-!
# Two sessions over reliable channels

A client and a server session, each with limits that pass `validate`, joined by a reliable channel of
WebSocket messages in each direction (`Lib.Link`). The application calls, the tasks of the two
sessions and the transport take their steps in any order.

The frames that one session has handled are a prefix of those that the other one has written
(`Connection.handled_isPrefix`), and, apart from `MaxStreamData`, of those that were put into its queue
(`Connection.ordered_isPrefix`). When everything has arrived, they are all of them
(`Connection.handled_eq`).
-/

set_option autoImplicit false

namespace WebsockMux.Native

open WebsockMux.Lib WebsockMux.Proto

/-- The limits of the two sessions of a connection. A session is only created with limits that pass
`validate`. -/
structure Connection where
  client : Limits
  server : Limits
  client_valid : client.validate = .ok ()
  server_valid : server.validate = .ok ()

namespace Connection

/-- The client is on the left, the server on the right. -/
def config (c : Connection) : Side → Config
  | .left => ⟨false, c.client⟩
  | .right => ⟨true, c.server⟩

/-- The two sessions as parties of a link. -/
def party (c : Connection) (i : Side) : Party Session Label Message := Session.party (c.config i)

/-- One step of one of the sessions. -/
def step (c : Connection) : Link Session → Side × Label → Option (Link Session) := Link.step c.party

/-- The states of the runs of a connection whose steps all satisfy `ok`. -/
def Run (c : Connection) (ok : Link Session → Side × Label → Prop) (x : Link Session) : Prop :=
  Reachable c.step ok (.initial {}) x

variable {c : Connection} {ok : Link Session → Side × Label → Prop} {x x' : Link Session} {i : Side}
  {l : Label} {id : StreamId}

theorem valid (c : Connection) (i : Side) : (c.config i).limits.Valid := by
  cases i with
  | left => exact (Limits.validate_iff _).1 c.client_valid
  | right => exact (Limits.validate_iff _).1 c.server_valid

/-- An identifier that is remote at one side is local at the other one. -/
theorem isServer_other (c : Connection) (i : Side) :
    (c.config i.other).isServer = !(c.config i).isServer := by
  cases i <;> rfl

/-- What a session has written only grows. -/
theorem written_grows (i : Side) (s : Session) (l : Label) (s' : Session)
    (h : (c.party i).step s l = some s') : (c.party i).sent s <+: (c.party i).sent s' := by
  obtain ⟨a, -, -, ht⟩ := takes_of_step h
  exact ht.grows.1

/-- Each session with its log. -/
theorem Run.logged {K : Side → Session → Label → Prop} (hr : c.Run ok x)
    (hok : ∀ x i l, ok x (i, l) → K i (x.party.get i) l) (i : Side) :
    Reachable (Session.party (c.config i)).logged (fun y l => K i y.1 l) ({}, [])
      (x.party.get i, x.log c.party i) :=
  Link.logged_of_reachable written_grows hok hr i

/-- **Each session is in a run of its own.** -/
theorem Run.session {K : Side → Session → Label → Prop} (hr : c.Run ok x)
    (hok : ∀ x i l, ok x (i, l) → K i (x.party.get i) l) (i : Side) :
    Reachable (Session.step (c.config i)) (K i) {} (x.party.get i) :=
  Link.reachable_party written_grows hok hr i

theorem Run.any (hr : c.Run ok x) (i : Side) :
    Reachable (Session.step (c.config i)) anyStep {} (x.party.get i) :=
  hr.session (K := fun _ => anyStep) (fun _ _ _ _ => trivial) i

/-- **A step of a connection** is a step of one session; the other one keeps its state. -/
theorem session_step (h : c.step x (i, l) = some x') :
    (x.party.get i).step (c.config i) l = some (x'.party.get i) ∧
      x'.party.get i.other = x.party.get i.other := by
  obtain ⟨s, hs, hget, hother, -⟩ := Link.step_cases h
  exact ⟨hs.trans (congrArg some hget.symm), hother⟩

/-- A session that a step does not concern keeps its state. -/
theorem session_eq {j : Side} (h : c.step x (i, l) = some x') (hj : j ≠ i) :
    x'.party.get j = x.party.get j := by
  rcases Side.eq_or_eq_other i j with rfl | rfl
  · exact absurd rfl hj
  · exact (session_step h).2

/-! ## What arrives -/

/-- The frames of the received messages are those that the other session has written first. -/
theorem carried_log (hr : c.Run ok x) (i : Side) :
    ∃ fs, Frame.Carried (binaries (x.log c.party i)) fs ∧
      fs <+: (x.party.get i.other).out.sunk := by
  have hsunk := (outbox_of_reachable (hr.any i.other)).sunk
  have hsplit : binaries (x.party.get i.other).out.written =
      binaries (x.log c.party i) ++
        binaries ((x.party.get i.other).out.written.drop (x.taken.get i)) := by
    unfold binaries
    rw [← List.filterMap_append]
    exact congrArg (List.filterMap _) (List.take_append_drop _ _).symm
  rw [hsplit] at hsunk
  obtain ⟨fs, gs, heq, hfs, -⟩ := hsunk.split
  exact ⟨fs, hfs, gs, heq⟩

/-- **The handled frames are those that the other session has written first.** -/
theorem handled_isPrefix (hr : c.Run ok x) (i : Side) :
    (x.party.get i).inb.handled <+: (x.party.get i.other).out.sunk := by
  obtain ⟨fs, hfs, hpre⟩ := carried_log hr i
  have hin := inbox_of_logged (hr.logged (K := fun _ => anyStep) (fun _ _ _ _ => trivial) i)
  obtain ⟨rest, heq, -⟩ := hin fs hfs
  exact (heq ▸ List.prefix_append _ rest).trans hpre

theorem handled_prefix_taken (hr : c.Run ok x) (i : Side) :
    (x.party.get i).inb.handled <+: (x.party.get i.other).out.taken :=
  (handled_isPrefix hr i).trans (outbox_of_reachable (hr.any i.other)).place.sunk_prefix

/-- Apart from `MaxStreamData`, the handled frames are those that were put first into the queue. -/
theorem ordered_isPrefix (hr : c.Run ok x) (i : Side) :
    Frame.ordered (x.party.get i).inb.handled <+:
      Frame.ordered (x.party.get i.other).mem.chan.admitted :=
  (Frame.ordered_isPrefix (handled_prefix_taken hr i)).trans
    (emission_of_reachable (hr.any i.other)).taken

/-- What is read off the frames that keep their order. -/
theorem filterMap_prefix {α : Type} {g : Frame → Option α}
    (hg : ∀ f : Frame, f.isCredit = true → g f = none) (hr : c.Run ok x) (i : Side) :
    (x.party.get i).inb.handled.filterMap g <+:
      (x.party.get i.other).mem.chan.admitted.filterMap g := by
  rw [← Frame.filterMap_ordered hg, ← Frame.filterMap_ordered hg (x.party.get i.other).mem.chan.admitted]
  exact (ordered_isPrefix hr i).filterMap g

/-- A frame that was handled and is no `MaxStreamData` was put into the queue. -/
theorem mem_admitted (hr : c.Run ok x) {f : Frame} (hf : f ∈ (x.party.get i).inb.handled)
    (hc : f.isCredit = false) : f ∈ (x.party.get i.other).mem.chan.admitted :=
  (Frame.mem_ordered.1 ((ordered_isPrefix hr i).subset (Frame.mem_ordered.2 ⟨hf, hc⟩))).1

/-- **The frames of a stream** that one session handled are those that the other one queued first. -/
theorem got_prefix (hr : c.Run ok x) (i : Side) (id : StreamId) :
    ((x.party.get i).view.recvDirection (c.config i) id).got <+:
      ((x.party.get i.other).mem.sendDirection (c.config i.other) id).log := by
  refine filterMap_prefix (g := sendItem id) ?_ hr i
  intro f hf
  cases f <;> first | rfl | cases hf

/-! ## When everything has arrived -/

/-- Nothing is on its way to a session: its inbound task waits, it has received all messages, and
the loop of the other session, which is open, has nothing to send. -/
structure Drained (x : Link Session) (i : Side) : Prop where
  idle : (x.party.get i).inb.phase = .idle
  received : x.taken.get i = (x.party.get i.other).out.written.length
  selects : (x.party.get i.other).out.pc.selects = true
  queue : (x.party.get i.other).mem.chan.queue = []
  still : (x.party.get i.other).mem.flags.isClosed = false

/-- All frames that the other session took from its queue are handled. -/
theorem Drained.handled_eq (hd : Drained x i) (hr : c.Run ok x) :
    (x.party.get i).inb.handled = (x.party.get i.other).out.taken := by
  have hbox := outbox_of_reachable (hr.any i.other)
  have hin := inbox_of_logged (hr.logged (K := fun _ => anyStep) (fun _ _ _ _ => trivial) i)
  have hlog : x.log c.party i = (x.party.get i.other).out.written := by
    show List.take (x.taken.get i) (x.party.get i.other).out.written = _
    rw [hd.received]
    exact List.take_length
  rw [hlog] at hin
  exact (hin.handled_eq hd.idle hbox.sunk).trans (hbox.sunk_eq_taken hd.selects hd.queue)

/-- All frames that were put into the queue are handled, apart from `MaxStreamData` in their
order. -/
theorem Drained.ordered_eq (hd : Drained x i) (hr : c.Run ok x) :
    Frame.ordered (x.party.get i).inb.handled =
        Frame.ordered (x.party.get i.other).mem.chan.admitted ∧
      (x.party.get i.other).mem.chan.admitted.Sublist (x.party.get i).inb.handled := by
  have hopen := stillOpen_of_reachable (hr.any i.other) hd.still
  have hemit := emission_of_reachable (hr.any i.other)
  have hleft : (x.party.get i.other).out.pc.left = false := by
    have hsel := hd.selects
    cases hp : (x.party.get i.other).out.pc <;> first | rfl | (rw [hp] at hsel; cases hsel)
  have hwhole := hemit.whole hleft hopen.shutting hopen.queue
  have hsub := hemit.sublist hleft hopen.shutting hopen.queue
  have hnil : queued [] = [] := rfl
  rw [hd.queue, hnil, List.append_nil] at hwhole hsub
  rw [hd.handled_eq hr]
  exact ⟨hwhole, hsub⟩

/-! ## Runs that can be executed -/

/-- A run that can be executed and ends in a state with a property. -/
theorem exists_run [∀ x l, Decidable (ok x l)] {P : Link Session → Prop} [DecidablePred P]
    (ls : List (Side × Label))
    (h : (run c.step ok (.initial {}) ls).any (fun x => decide (P x)) = true) :
    ∃ x, c.Run ok x ∧ P x :=
  Reachable.exists_of_run ls h

end Connection

/-- Two sessions with the default limits. -/
def defaultConnection : Connection where
  client := {}
  server := {}
  client_valid := Limits.validate_default
  server_valid := Limits.validate_default

/-- The message with one frame. -/
def messageOf (f : Frame) : Message := .binary (f.encode.getD [])

/-- A step that is taken several times. -/
def times (n : Nat) (i : Side) (l : Label) : List (Side × Label) := List.replicate n (i, l)

end WebsockMux.Native
