import WebsockMux.Lib.Link
import WebsockMux.Native.Handling
import WebsockMux.Native.Outbox

/-!
# The frames of the received messages

A session with a log of the messages that it received. Where the binary messages of the log carry
some frames, the inbound task has handled these frames in their order, up to those of the message
that it is decoding (`inbox_of_logged`). After an error it handles no further frame.
-/

set_option autoImplicit false

namespace WebsockMux.Native

open WebsockMux.Lib WebsockMux.Proto

variable {cfg : Config} {m : Memory} {b b' : Inbound} {log : List Message}

/-! ## The inbound task with a log -/

/-- The task has left its loop, or the call that it is in fails. -/
def Inbound.Stopped (b : Inbound) : Prop := b.phase.listening = false ∨ b.phase.task.failing = true

theorem Session.blocked_iff (s : Session) : Blocked s.view ↔ s.inb.Stopped := by
  constructor
  · rintro (hl | ⟨t, ht, hf⟩)
    · exact .inl hl
    · cases ht
      exact .inr hf
  · rintro (hl | hf)
    · exact .inl hl
    · exact .inr ⟨_, rfl, hf⟩

/-- The frames `rest` are still in the message that the task is decoding. -/
def InPhase.Holds (rest : List Frame) : InPhase → Prop
  | .idle => rest = []
  | .decoding cursor => Frame.encodeAll rest = some cursor
  | .running _ cursor => Frame.encodeAll rest = some cursor
  | _ => False

/-- The frames of the log are those that were handled and those that are still to be decoded, unless
the task has stopped. -/
def Inbox (b : Inbound) (log : List Message) : Prop :=
  ∀ fs, Frame.Carried (binaries log) fs → ∃ rest, b.handled ++ rest = fs ∧
    (b.Stopped ∨ b.phase.Holds rest)

namespace Inbox

/-- Before a message arrives, all frames of the earlier ones are handled. -/
theorem handled_eq (h : Inbox b log) (hp : b.phase = .idle) {fs : List Frame}
    (hfs : Frame.Carried (binaries log) fs) : b.handled = fs := by
  obtain ⟨rest, heq, (hl | hf) | hrest⟩ := h fs hfs
  · rw [hp] at hl
    cases hl
  · rw [hp] at hf
    cases hf
  · rw [hp] at hrest
    cases hrest
    rwa [List.append_nil] at heq

/-- A message without frames is received. -/
theorem receive_other {msg : Message} {p : InPhase} (h : Inbox b log) (hp : b.phase = .idle)
    (hm : msg.binary? = none) (hb : p = .idle ∨ Inbound.Stopped { b with phase := p }) :
    Inbox { b with phase := p } (log ++ [msg]) := by
  intro fs hfs
  rw [binaries_concat, hm, Option.toList_none, List.append_nil] at hfs
  refine ⟨[], (List.append_nil _).trans (h.handled_eq hp hfs), ?_⟩
  rcases hb with rfl | hb
  · exact .inr rfl
  · exact .inl hb

/-- **A message is received.** -/
theorem receive {msg : Message} {a : Access} (h : Inbox b log) (hp : b.phase = .idle)
    (hb : b.receive cfg m msg = some (a, b')) : Inbox b' (log ++ [msg]) := by
  have hsame : { b with phase := .idle } = b := by rw [← hp]
  cases msg with
  | binary data =>
      intro fs hfs
      rw [binaries_concat] at hfs
      obtain ⟨gs, part, rfl, hgs, hpart⟩ := hfs.split
      have hgs := h.handled_eq hp hgs
      simp only [Inbound.receive] at hb
      split_ifs at hb
      · cases hb
        exact ⟨part, by rw [hgs], .inl (.inr rfl)⟩
      · cases hb
        exact ⟨part, by rw [hgs], .inr hpart.encode_eq⟩
  | ping p =>
      have hother : Inbox { b with phase := .idle } (log ++ [.ping p]) :=
        h.receive_other hp rfl (.inl rfl)
      rw [hsame] at hother
      simp only [Inbound.receive] at hb
      split_ifs at hb <;> cases hb <;> exact hother
  | text =>
      cases hb
      exact h.receive_other hp rfl (.inr (.inr rfl))
  | close =>
      cases hb
      exact h.receive_other hp rfl (.inr (.inl rfl))
  | pong p =>
      cases hb
      have hother : Inbox { b with phase := .idle } (log ++ [.pong p]) :=
        h.receive_other hp rfl (.inl rfl)
      rwa [hsame] at hother

/-- A task that has stopped handles nothing more. -/
theorem stopped {p : InPhase} (h : Inbox b log) (hb : Inbound.Stopped { b with phase := p }) :
    Inbox { b with phase := p } log := by
  intro fs hfs
  obtain ⟨rest, heq, -⟩ := h fs hfs
  exact ⟨rest, heq, .inl hb⟩

/-- The task goes on and takes no frame. -/
theorem goes_on {p : InPhase} (h : Inbox b log)
    (hstays : b.Stopped → Inbound.Stopped { b with phase := p })
    (hrest : ∀ rest, b.phase.Holds rest → p.Holds rest) : Inbox { b with phase := p } log := by
  intro fs hfs
  obtain ⟨rest, heq, hb⟩ := h fs hfs
  exact ⟨rest, heq, hb.imp hstays (hrest rest)⟩

/-- **A step of the decode loop.** -/
theorem next {a : Access} (h : Inbox b log) (hstays : b.Stopped → b'.Stopped)
    (hb : b.step cfg m = some (a, b')) : Inbox b' log := by
  cases Inbound.steps_of_step hb with
  | drained hp =>
      refine h.goes_on hstays fun rest hr => ?_
      rw [hp] at hr
      exact Frame.encodeAll_eq_nil hr
  | @frame c cs tail f hp hd =>
      intro fs hfs
      obtain ⟨rest, heq, (hl | hf) | hr⟩ := h fs hfs
      · rw [hp] at hl
        cases hl
      · rw [hp] at hf
        cases hf
      · -- the first of the remaining frames is the one that is decoded
        rw [hp] at hr
        obtain ⟨g, gs, tail', rfl, hdec, htail⟩ := Frame.decode_of_encodeAll hr
        rw [hd] at hdec
        cases hdec
        refine ⟨gs, ?_, .inr htail⟩
        rw [← heq, List.append_assoc, List.singleton_append]
  | malformed hp hd => exact h.stopped (.inr rfl)
  | returned hp =>
      refine h.goes_on hstays fun rest hr => ?_
      rw [hp] at hr
      exact hr
  | next hp hn =>
      refine h.goes_on hstays fun rest hr => ?_
      rw [hp] at hr
      exact hr
  | _ => exact h.stopped (.inl rfl)

/-- The loop is left. -/
theorem leave (h : Inbox b log) (hb : b.leave = some b') : Inbox b' log := by
  unfold Inbound.leave at hb
  split at hb
  · cases hb
    exact h.stopped (.inl rfl)
  · cases hb
    exact h.stopped (.inl rfl)
  · cases hb

/-- The loop is dropped: the call that it is in fails. -/
theorem cancel (h : Inbox b log) (hb : b.cancel = some b')
    (hfail : ∀ t cursor t', b.phase = .running t cursor → t.aborted = some t' →
      t'.failing = true) : Inbox b' log := by
  unfold Inbound.cancel at hb
  split at hb
  · rename_i t cursor hp
    split at hb
    · rename_i t' ha
      cases hb
      exact h.stopped (.inr (hfail t cursor t' hp ha))
    · cases hb
  · exact h.leave hb

end Inbox

/-! ## Runs -/

/-- A session as a party of a link: it takes the messages that it receives, and sends those that it
gives to the sink. -/
def Session.party (cfg : Config) : Party Session Label Message where
  step := Session.step cfg
  takes := Label.message?
  sent s := s.out.written

/-- A call that is aborted fails. -/
theorem failing_of_aborted {ok : Session → Label → Prop} {s : Session}
    (hr : Reachable (Session.step cfg) ok {} s) {t t' : Task} {cursor : List UInt8}
    (hp : s.inb.phase = .running t cursor) (ha : t.aborted = some t') : t'.failing = true := by
  rcases handling_of_reachable hr hp with hf | rfl | ⟨f, -, hh⟩
  · exact Task.failing_aborted hf ha
  · cases ha
  · exact hh.failing_aborted ha

/-- **The inbox in every run** of a session with a log. -/
theorem inbox_of_logged {ok : Session → Label → Prop} {x : Session × List Message}
    (hr : Reachable (Session.party cfg).logged (fun x l => ok x.1 l) ({}, []) x) :
    Inbox x.1.inb x.2 := by
  refine hr.invariant (I := fun x => Inbox x.1.inb x.2) ?_ ?_
  · intro fs hfs
    obtain ⟨parts, rfl, hparts⟩ := hfs
    cases hparts
    exact ⟨[], rfl, .inr rfl⟩
  · rintro ⟨s, log⟩ l ⟨s', log'⟩ hr h hok hs
    obtain ⟨s₁, hstep, heq⟩ := Option.map_eq_some_iff.1 hs
    cases heq
    have hr' := Party.reachable_of_logged hr
    have hstays : s.inb.Stopped → s'.inb.Stopped := by
      intro hb
      rw [← Session.blocked_iff] at hb ⊢
      exact hb.moves (Session.moves_of_step hstep)
    rcases Session.receive_or_inbound hstep with ⟨msg, a, rfl, hp, hb⟩ | ⟨hmsg, hcase⟩
    · exact h.receive hp hb
    · have hlog : log ++ ((Session.party cfg).takes l).toList = log := by
        show log ++ (l.message?).toList = log
        rw [hmsg, Option.toList_none, List.append_nil]
      dsimp only
      rw [hlog]
      rcases hcase with hb | hb | ⟨a, hb⟩ | hb
      · rw [hb]
        exact h
      · exact h.leave hb
      · exact h.next hstays hb
      · exact h.cancel hb fun t cursor t' hp ha => failing_of_aborted hr' hp ha

end WebsockMux.Native
