import WebsockMux.Native.Outbox
import WebsockMux.Wasm.Steps

/-!
# Batching

The outbound loop of a native session and that of a browser session put frames into binary messages.
Both keep the sequence: what the receiver decodes from the messages, then the frames of the message
that is being sent or collected and the frame in hand, are the frames taken, in the order in which
the loop took them (`batching_preserves_frames`).
-/

set_option autoImplicit false

namespace WebsockMux.Wasm

open WebsockMux.Lib WebsockMux.Proto
open WebsockMux.Native (Limits)
open WebsockMux.Proto.Frame (encodeAll Carried)

variable {l : Limits} {s s' : Session} {label : Label}

/-! ## The loop of a browser session -/

/-- The frames of the message that is being sent. -/
def Phase.frames : Phase → List Frame
  | .sending _ frames => frames
  | _ => []

/-- **What the inner loop does**: it adds frames to the message, and at most one is carried over. -/
theorem collect_spec {maxFrames maxBytes : Nat} {queue frames : List Frame}
    {c : ParkingChannel Frame} {bytes : List UInt8} {batch : Batch}
    (h : collect maxFrames maxBytes queue c bytes frames = some batch)
    (he : encodeAll frames = some bytes) :
    encodeAll batch.frames = some batch.bytes ∧ frames <+: batch.frames := by
  induction queue generalizing c bytes frames with
  | nil =>
      cases h
      exact ⟨he, List.prefix_rfl⟩
  | cons f queue ih =>
      unfold collect at h
      split_ifs at h
      · cases h
        exact ⟨he, List.prefix_rfl⟩
      · split at h
        · cases h
        · next bytes' hf =>
            split_ifs at h
            · -- the frame is carried over
              cases h
              exact ⟨he, List.prefix_rfl⟩
            · obtain ⟨henc, hpre⟩ := ih (c := c.pop) h (Frame.encodeAll_concat he hf)
              exact ⟨henc, (List.prefix_append frames [f]).trans hpre⟩

/-- The invariant of the loop: `sunk` are the frames of the messages written. -/
structure OutLoop (s : Session) (sunk : List Frame) : Prop where
  written : Carried s.written sunk
  taken : s.phase.ending = false → s.taken = sunk ++ s.phase.frames ++ s.pendingFrame.toList
  carried : sunk <+: s.taken
  sending : ∀ batch frames, s.phase = .sending batch frames →
    batch ≠ [] ∧ encodeAll frames = some batch

theorem OutLoop.ofLoop {sunk : List Frame} (h : OutLoop s sunk) (hl : s'.loop = s.loop) :
    OutLoop s' sunk := by
  simp only [Session.loop, Prod.mk.injEq] at hl
  obtain ⟨hp, hf, ht, hw⟩ := hl
  refine ⟨hw ▸ h.written, ?_, ht ▸ h.carried, ?_⟩
  · rw [hp, hf, ht]
    exact h.taken
  · rw [hp]
    exact h.sending

/-- The phase changes, and no message is being sent before or after. -/
theorem OutLoop.ofPhase {sunk : List Frame} {m : Memory} {p : Phase} (h : OutLoop s sunk)
    (hp : s.phase.ending = false) (hf : s.phase.frames = []) (hf' : p.frames = [])
    (hsend : ∀ batch frames, p ≠ .sending batch frames) :
    OutLoop { s with mem := m, phase := p } sunk := by
  refine ⟨h.written, fun _ => ?_, h.carried, fun batch frames heq => absurd heq (hsend _ _)⟩
  have htaken := h.taken hp
  rw [hf] at htaken
  show s.taken = sunk ++ p.frames ++ s.pendingFrame.toList
  rw [hf']
  exact htaken

/-- The loop is left. -/
theorem OutLoop.leave {sunk : List Frame} {m : Memory} {p : Phase} (h : OutLoop s sunk)
    (hp : p.ending = true) : OutLoop { s with mem := m, phase := p } sunk := by
  refine ⟨h.written, fun hend => ?_, h.carried, fun batch frames heq => ?_⟩
  · rw [show p.ending = false from hend] at hp
    cases hp
  · rw [show p = .sending batch frames from heq] at hp
    cases hp

theorem OutLoop.handled {sunk : List Frame} {rest : List UInt8} (h : OutLoop s sunk)
    (hp : s.phase.ending = false) (hf : s.phase.frames = []) (r : Memory × Except Error Unit) :
    OutLoop (s.handled rest r) sunk := by
  obtain ⟨m, r⟩ := r
  cases r with
  | ok u => exact h.ofPhase hp hf rfl nofun
  | error e => exact h.leave rfl

/-- The loop has a frame in hand, and sends it with what follows in the queue. -/
theorem OutLoop.sendBatch {sunk : List Frame} {f : Frame} (hs : Carried s.written sunk)
    (ht : s.taken = sunk ++ [f]) (h : s.sendBatch l f = some s') : OutLoop s' sunk := by
  unfold Session.sendBatch at h
  split at h
  · cases h
  · next bytes hf =>
      split at h
      · cases h
      · next b hb =>
          cases h
          obtain ⟨henc, hpre⟩ := collect_spec hb (Frame.encodeAll_singleton hf)
          obtain ⟨more, hmore⟩ := hpre
          have hframes : [f] ++ b.frames.drop 1 = b.frames := by
            rw [← hmore]
            rfl
          have htaken : s.taken ++ b.frames.drop 1 ++ b.carried.toList =
              sunk ++ b.frames ++ b.carried.toList := by
            rw [ht, List.append_assoc sunk, hframes]
          refine ⟨hs, fun _ => htaken, ?_, fun batch frames hsend => ?_⟩
          · show sunk <+: s.taken ++ b.frames.drop 1 ++ b.carried.toList
            rw [htaken, List.append_assoc]
            exact List.prefix_append _ _
          · cases hsend
            refine ⟨fun hnil => ?_, henc⟩
            -- a message has at least the frame in hand
            rw [hnil] at henc
            rw [Frame.encodeAll_eq_nil henc] at hmore
            cases hmore

theorem OutLoop.out {sunk : List Frame} {credit : Option StreamId} (h : OutLoop s sunk)
    (hp : s.phase = .select) (hs : s.out l credit = some s') : OutLoop s' sunk := by
  have htaken := h.taken (by rw [hp]; rfl)
  rw [hp, show Phase.frames .select = [] from rfl, List.append_nil] at htaken
  unfold Session.out at hs
  split at hs
  · split at hs
    · next f hf =>
        -- the frame carried over was taken before
        rw [hf] at htaken
        exact OutLoop.sendBatch h.written htaken hs
    · next hf =>
        rw [hf] at htaken
        split at hs
        · next f rest hq =>
            refine OutLoop.sendBatch ?_ ?_ hs
            · exact h.written
            · show s.taken ++ [f] = sunk ++ [f]
              rw [htaken, Option.toList_none, List.append_nil]
        · split_ifs at hs
          cases hs
          exact h.leave rfl
  · split_ifs at hs with hcredit
    rw [hcredit.1] at htaken
    refine OutLoop.sendBatch ?_ ?_ hs
    · exact h.written
    · show s.taken ++ [_] = sunk ++ [_]
      rw [htaken, Option.toList_none, List.append_nil]

/-- The message was sent. -/
theorem OutLoop.sent {sunk frames : List Frame} {batch : List UInt8} (h : OutLoop s sunk)
    (hp : s.phase = .sending batch frames) :
    OutLoop { s with phase := .select, written := s.written ++ [batch] } (sunk ++ frames) := by
  have htaken := h.taken (by rw [hp]; rfl)
  rw [hp, show Phase.frames (.sending batch frames) = frames from rfl] at htaken
  obtain ⟨hne, henc⟩ := h.sending batch frames hp
  refine ⟨h.written.concat hne henc, fun _ => ?_, ?_, fun batch frames heq => by cases heq⟩
  · show s.taken = sunk ++ frames ++ [] ++ s.pendingFrame.toList
    rw [htaken, List.append_nil]
  · show sunk ++ frames <+: s.taken
    rw [htaken]
    exact List.prefix_append _ _

/-- Only the session task changes its loop. -/
theorem loop_eq_or_isTask (h : Effect l s label s') : s'.loop = s.loop ∨ label.isTask = true := by
  cases h with
  | call hm hl => exact .inl hl
  | terminal ht hm hd hl => exact .inl hl
  | openBi => exact .inl rfl
  | task ht hm hp hc => exact .inr ht
  | inbound hp hf ho hm => exact .inr rfl
  | finished hp => exact .inr rfl

theorem outLoop_step {sunk : List Frame} (h : OutLoop s sunk) (hs : s.step l label = some s') :
    ∃ sunk', OutLoop s' sunk' := by
  rcases loop_eq_or_isTask (effect_of_step hs) with hl | ht
  · exact ⟨sunk, h.ofLoop hl⟩
  cases label with
  | receive msg =>
      simp only [Session.step] at hs
      split at hs
      · next hp =>
          cases hs
          have hend : s.phase.ending = false := by rw [hp]; rfl
          have hfr : s.phase.frames = [] := by rw [hp]; rfl
          refine ⟨sunk, ?_⟩
          unfold Session.receive
          split
          · split_ifs
            · exact h.handled hend hfr _
            · exact h.ofPhase hend hfr rfl (by rintro _ _ ⟨⟩)
          · exact h.handled hend hfr _
      · cases hs
  | receiveErr =>
      simp only [Session.step] at hs
      split at hs
      · cases hs
        exact ⟨sunk, h.leave rfl⟩
      · cases hs
  | frame =>
      simp only [Session.step] at hs
      split at hs
      · next cursor hp =>
          cases hs
          have hend : s.phase.ending = false := by rw [hp]; rfl
          have hfr : s.phase.frames = [] := by rw [hp]; rfl
          refine ⟨sunk, ?_⟩
          unfold Session.frame
          split
          · exact h.ofPhase hend hfr rfl (by rintro _ _ ⟨⟩)
          · split
            · exact h.handled hend hfr _
            · exact h.handled hend hfr _
      · cases hs
  | out credit =>
      simp only [Session.step] at hs
      split at hs
      · next hp => exact ⟨sunk, h.out hp hs⟩
      · cases hs
  | sent ok =>
      simp only [Session.step] at hs
      split at hs
      · next batch frames hp =>
          split_ifs at hs
          · cases hs
            exact ⟨sunk ++ frames, h.sent hp⟩
          · cases hs
            exact ⟨sunk, h.leave rfl⟩
      · cases hs
  | connClosed =>
      simp only [Session.step] at hs
      split at hs
      · cases hs
        exact ⟨sunk, h.leave rfl⟩
      · cases hs
  | _ => cases ht

theorem outLoop_of_reachable {ok : Session → Label → Prop}
    (hr : Reachable (Session.step l) ok {} s) : ∃ sunk, OutLoop s sunk := by
  refine Reachable.invariant (I := fun s => ∃ sunk, OutLoop s sunk) ?_ ?_ hr
  · exact ⟨[], .nil, fun _ => rfl, List.prefix_rfl, fun batch frames h => by cases h⟩
  · rintro s label s' - ⟨sunk, h⟩ - hs
    exact outLoop_step h hs

end WebsockMux.Wasm

namespace WebsockMux

open WebsockMux.Lib WebsockMux.Proto
open WebsockMux.Native (Limits Config binaries)

/-! ## Both loops -/

/-- **Batching preserves the sequence of frames**, in every state of a native session `s` and of a
browser session `w`. What the receiver decodes from the binary messages written so far is a prefix
of the frames taken; while the loop runs, the rest are the frames of the message being sent, of the
batch, and the frame in hand or carried over. (A native loop drops the frames that it takes after
the close of a `Shutdown`; they are not counted.) No message is empty. A native loop that selects
while its queue is empty has an empty batch; after its close of a `Shutdown`, which is recorded
among the messages, no binary message follows. -/
theorem batching_preserves_frames {cfg : Config} {l : Limits} {s : Native.Session}
    {w : Wasm.Session} (hs : Reachable (Native.Session.step cfg) anyStep {} s)
    (hw : Reachable (Wasm.Session.step l) anyStep {} w) :
    (∃ fs, Frame.decodeMessages (binaries s.out.written) = some fs ∧ fs <+: s.out.taken ∧
      Frame.decodeMessage s.out.batch = some s.out.batched ∧
      (∀ data k, s.out.pc = .sending (.binary data) k →
        Frame.decodeMessage data = some s.out.inFlight) ∧
      (s.out.pc.left = false →
        fs ++ s.out.inFlight ++ s.out.batched ++ s.out.inHand = s.out.taken)) ∧
    [] ∉ binaries s.out.written ∧
    (s.out.pc.selects = true → s.mem.chan.queue = [] → s.out.batch = []) ∧
    (s.out.closeSent = true → .close ∈ s.out.written) ∧
    s.out.written.Pairwise (fun x y => x = .close → y.binary? = none) ∧
    (∃ fs, Frame.decodeMessages w.written = some fs ∧ fs <+: w.taken ∧
      (∀ batch frames, w.phase = .sending batch frames →
        Frame.decodeMessage batch = some frames) ∧
      (w.phase.ending = false → fs ++ w.phase.frames ++ w.pendingFrame.toList = w.taken)) ∧
    [] ∉ w.written := by
  have ho := Native.outbox_of_reachable hs
  obtain ⟨sunk, hl⟩ := Wasm.outLoop_of_reachable hw
  refine ⟨⟨s.out.sunk, ?_, ho.place.sunk_prefix, ?_, ?_, ho.place.taken_eq⟩, ho.sunk.ne_nil, ?_,
    fun hc => ho.closed (.inr hc), ho.order, ⟨sunk, ?_, hl.carried, ?_, ?_⟩, hl.written.ne_nil⟩
  · exact Frame.decodeMessages_of_carried ho.sunk
  · exact Frame.decodeMessage_of_encodeAll ho.batch
  · exact fun data k hp => Frame.decodeMessage_of_encodeAll (ho.sending hp)
  · exact ho.batch_eq_nil
  · exact Frame.decodeMessages_of_carried hl.written
  · intro batch frames hp
    exact Frame.decodeMessage_of_encodeAll (hl.sending batch frames hp).2
  · exact fun hend => (hl.taken hend).symm

/-- A native session writes the frame of an open; a browser session writes two in one message. -/
theorem batching_preserves_frames_run :
    ∃ (s : Native.Session) (w : Wasm.Session),
      Reachable (Native.Session.step ⟨false, {}⟩) anyStep {} s ∧
      Reachable (Wasm.Session.step {}) anyStep {} w ∧
      (s.out.written = [.binary [0, 2]] ∧ w.written = [[0, 2, 0, 6]]) ∧
      (∃ fs, Frame.decodeMessages (binaries s.out.written) = some fs ∧ fs <+: s.out.taken) ∧
      (∃ fs, Frame.decodeMessages w.written = some fs ∧ fs <+: w.taken) := by
  obtain ⟨s, hs, hwritten⟩ : ∃ s, Reachable (Native.Session.step ⟨false, {}⟩) anyStep {} s ∧
      s.out.written = [.binary [0, 2]] :=
    Reachable.exists_of_run (List.flatten [[.call .openUni], List.replicate 6 (.op 0),
      List.replicate 7 (.outbound .ready)]) (by decide +kernel)
  obtain ⟨w, hw, hwritten'⟩ : ∃ w, Reachable (Wasm.Session.step {}) anyStep {} w ∧
      w.written = [[0, 2, 0, 6]] :=
    Reachable.exists_of_run [.openUni, .openUni, .out none, .sent true] (by decide +kernel)
  obtain ⟨⟨fs, hfs, hpre, -⟩, -, -, -, -, ⟨gs, hgs, hpre', -⟩, -⟩ := batching_preserves_frames hs hw
  exact ⟨s, w, hs, hw, ⟨hwritten, hwritten'⟩, ⟨fs, hfs, hpre⟩, ⟨gs, hgs, hpre'⟩⟩

/-- **A frame after the close of a `Shutdown` is dropped.** `open_uni` has its slot when `shutdown`
is called, and its frame follows the `Shutdown` command in the queue. The loop has taken it, and
neither wrote nor kept it. -/
theorem frame_after_shutdown_dropped :
    ∃ s, Reachable (Native.Session.step ⟨false, {}⟩) anyStep {} s ∧
      s.out.pc.selects = true ∧ s.mem.chan.rxDropped = false ∧
      s.mem.chan.admitted = [.openUni ⟨2⟩] ∧ s.mem.chan.queue = [] ∧
      s.out.written = [.close] ∧ s.out.batch = [] :=
  Reachable.exists_of_run (List.flatten [[.call .openUni], List.replicate 5 (.op 0),
    [.call .shutdown], List.replicate 4 (.op 1), [.op 0], List.replicate 9 (.outbound .ready)]) (by decide +kernel)

end WebsockMux
