import WebsockMux.Native.Connection
import WebsockMux.Native.Opened
import WebsockMux.Native.PeerOpened

/-!
# Terminal frames that cross

`ResetStream` and `StopSending` are sent by several functions of both sessions, for one stream more
than once and also after its entries are gone. A session that gets one for a stream it has not in its
table asks `is_retired_direction`, and that the answer is yes needs two facts: the frame is one for a
direction that exists, and the stream was opened before. The open precedes the other frames of a
stream (`open_precedes`), and a stream of the receiver is known to it since its own open.
-/

set_option autoImplicit false

namespace WebsockMux.Native

open WebsockMux.Lib WebsockMux.Proto

/-- A step that drops the future of no operation. -/
def uncancelled (_ : Link Session) (l : Side × Label) : Prop := ∀ n, l.2 ≠ .cancelOp n

instance (x : Link Session) (l : Side × Label) : Decidable (uncancelled x l) :=
  match l with
  | (_, .cancelOp n) => isFalse fun h => h n rfl
  | (_, .call _) => isTrue nofun
  | (_, .op _) => isTrue nofun
  | (_, .timeout _) => isTrue nofun
  | (_, .receive _) => isTrue nofun
  | (_, .receiveEnd) => isTrue nofun
  | (_, .inbound) => isTrue nofun
  | (_, .inboundCancel) => isTrue nofun
  | (_, .outbound _) => isTrue nofun
  | (_, .outboundCancel) => isTrue nofun
  | (_, .assign _) => isTrue nofun

namespace Connection

variable {c : Connection} {ok : Link Session → Side × Label → Prop} {x x' : Link Session} {i : Side}
  {l : Label} {id : StreamId}

/-- A stream of one session is a stream of the peer for the other one. -/
theorem own_iff_peer (c : Connection) (i : Side) (id : StreamId) :
    id.initiatorIsServer = (c.config i).isServer ↔
      id.initiatorIsServer ≠ (c.config i.other).isServer := by
  rw [isServer_other]
  cases id.initiatorIsServer <;> cases (c.config i).isServer <;> decide

/-- An open that was handled is in the other session's queue. -/
theorem isOpened_of_handled (hr : c.Run ok x) {bi : Bool}
    (hf : openFrame bi id ∈ (x.party.get i).inb.handled) :
    (x.party.get i.other).mem.IsOpened id := by
  cases bi with
  | false => exact ⟨.uni, _, mem_admitted hr hf rfl, rfl⟩
  | true => exact ⟨.bi, _, mem_admitted hr hf rfl, rfl⟩

/-- **A stream of one session that the other one has registered was opened.** -/
theorem isOpened_of_registered (hr : c.Run ok x)
    (hown : id.initiatorIsServer = (c.config i).isServer)
    (hreg : id ∈ (x.party.get i.other).mem.recvs.registered ∨
      id ∈ (x.party.get i.other).mem.sends.registered) : (x.party.get i).mem.IsOpened id := by
  have hby := registered_by_open (hr.any i.other)
  have hpeer := (own_iff_peer c i id).1 hown
  have hget : ∀ {bi : Bool}, openFrame bi id ∈ (x.party.get i.other).inb.handled →
      (x.party.get i).mem.IsOpened id := by
    intro bi hf
    have h := isOpened_of_handled hr hf
    rwa [Side.other_other] at h
  rcases hreg with hreg | hreg
  · obtain ⟨bi, hf⟩ := hby.recv id hreg hpeer
    exact hget hf
  · exact hget (hby.send id hreg hpeer)

/-- Who sends a `StopSending` has the receive direction. -/
theorem recv_registered_of_stop (hr : c.Run ok x) {code : Nat}
    (hf : .stopSending id code ∈ (x.party.get i).inb.handled) :
    id ∈ (x.party.get i.other).mem.recvs.registered := by
  have hown := (recvsInv_of_reachable (hr.any i.other)).owner id
  have hadm := mem_admitted hr hf rfl
  have hitem : RecvItem.stop ∈ ((x.party.get i.other).view.recvDirection (c.config i.other) id).log :=
    List.mem_filterMap.2 ⟨_, hadm, by simp [recvItem]⟩
  by_contra hreg
  have hlog := (hown.unregistered (List.count_eq_zero.2 hreg)).2.2.2
  rw [hlog] at hitem
  cases hitem

/-- Who sends a `ResetStream` has the send direction. -/
theorem send_registered_of_reset (hr : c.Run ok x) {code : Nat}
    (hf : .resetStream id code ∈ (x.party.get i).inb.handled) :
    id ∈ (x.party.get i.other).mem.sends.registered := by
  have hsend := (sendsInv_of_reachable (hr.any i.other)).send id
  have hadm := mem_admitted hr hf rfl
  have hitem : SendItem.reset ∈ ((x.party.get i.other).mem.sendDirection (c.config i.other) id).log :=
    List.mem_filterMap.2 ⟨_, hadm, by simp [sendItem]⟩
  exact List.count_pos_iff.1 (hsend.log_registered (List.ne_nil_of_mem hitem))

/-- **Of the frames about a stream, its open is queued first**, in both sessions. -/
theorem openedFirst (hr : c.Run uncancelled x) (i : Side) (id : StreamId)
    (hown : id.initiatorIsServer = (c.config i).isServer) :
    OpenedFirst (x.party.get i).view id := by
  induction hr with
  | init => cases i <;> exact openedFirst_init id
  | @step x x' p hr hok hs ih =>
      obtain ⟨j, l⟩ := p
      have hrun : c.Run uncancelled x := hr
      by_cases hj : i = j
      · subst hj
        refine ih.step (hrun.any i) hown hok trivial (session_step hs).1 fun code hf => ?_
        exact isOpened_of_registered hrun hown (.inl (recv_registered_of_stop hrun hf))
      · rw [session_eq hs hj]
        exact ih

/-- **The open of a stream is handled before the other frames about it.** -/
theorem open_precedes (hr : c.Run uncancelled x)
    (hown : id.initiatorIsServer = (c.config i.other).isServer) {f : Frame}
    (hf : f ∈ (x.party.get i).inb.handled) (hcredit : f.isCredit = false) (habout : About id f) :
    ∃ bi, openFrame bi id ∈ (x.party.get i).inb.handled := by
  have hord : Precedes (Opens id) (About id) (Frame.ordered (x.party.get i).inb.handled) := by
    refine ((openedFirst hr i.other id hown).order.filter ?_).of_isPrefix (ordered_isPrefix hr i)
    rintro g ⟨dir, hg⟩
    cases g <;> first | rfl | cases hg
  obtain ⟨g, hg, dir, ho⟩ := hord.exists_of_mem (Frame.mem_ordered.2 ⟨hf, hcredit⟩) habout
  have hg := (Frame.mem_ordered.1 hg).1
  cases g with
  | openUni j =>
      cases ho
      exact ⟨false, hg⟩
  | openBi j =>
      cases ho
      exact ⟨true, hg⟩
  | _ => cases ho

/-- A stream about which a session handles a frame lies below its frontier. -/
theorem counter_lt_of_handled (hr : c.Run uncancelled x) {t : Task}
    (ht : t ∈ (x.party.get i).tasks) (hin : t.inHandle = true) (hfail : t.failing = false)
    (hopen : ∀ f, ¬ OpenWaits f t) {f : Frame} (hf : f ∈ (x.party.get i).inb.handled)
    (hcredit : f.isCredit = false) (habout : About id f)
    (hreg : id ∈ (x.party.get i.other).mem.recvs.registered ∨
      id ∈ (x.party.get i.other).mem.sends.registered) :
    id.counter < (x.party.get i).mem.ids.frontier (c.config i) id := by
  by_cases hown : id.initiatorIsServer = (c.config i).isServer
  · -- the peer knows the stream from its open
    exact send_counter_lt (hr.any i)
      (send_registered_of_opened (hr.any i) (isOpened_of_registered hr hown hreg))
  · have hpeer : id.initiatorIsServer = (c.config i.other).isServer := by
      rw [own_iff_peer, Side.other_other]
      exact hown
    obtain ⟨bi, hopened⟩ := open_precedes hr hpeer hf hcredit habout
    exact recv_counter_lt (hr.any i) (registered_of_handling (hr.any i) ht hin hfail hopen hopened)

/-- **Crossing terminal frames are harmless.** In every run of a connection in which no future of an
operation is dropped, a `ResetStream` or a `StopSending` for a stream that is not in the table is
accepted: `handle_frame` finds the direction retired, and raises neither "reset on unknown stream"
nor "stop on unknown stream". -/
theorem crossed_frames_tolerated (hr : c.Run uncancelled x) (i : Side) {receiving : Bool}
    (ht : .retired id receiving ∈ (x.party.get i).tasks) :
    (Task.retired id receiving).next (c.config i) (x.party.get i).mem =
      some (.skip, .handled true) := by
  have hlegal := registeredLegal_of_reachable (hr.any i.other)
  have hlt : ∀ {f : Frame}, f ∈ (x.party.get i).inb.handled → f.isCredit = false → About id f →
      (id ∈ (x.party.get i.other).mem.recvs.registered ∨
        id ∈ (x.party.get i.other).mem.sends.registered) →
      id.counter < (x.party.get i).mem.ids.frontier (c.config i) id :=
    counter_lt_of_handled hr ht rfl rfl fun _ h => by cases h
  suffices hret : (x.party.get i).mem.ids.isRetiredDirection (c.config i) id receiving = true by
    simp only [Task.next, hret, if_true]
  rcases handling_of_inHandle (hr.any i) ht rfl with hfail | ⟨f, hf, hh⟩
  · cases hfail
  cases hh with
  | resetRetired _ code =>
      -- the other session sends on the stream
      have hreg := send_registered_of_reset hr hf
      have hdir : ¬ (id.dir = .uni ∧
          decide (id.initiatorIsServer = (c.config i).isServer) = true) := by
        rintro ⟨hd, hown⟩
        rcases hlegal.send id hreg with hbi | hother
        · rw [hd] at hbi
          cases hbi
        · exact (own_iff_peer c i id).1 (of_decide_eq_true hown) hother
      rw [Ids.isRetiredDirection, if_neg hdir]
      exact decide_eq_true (hlt hf rfl rfl (.inr hreg))
  | stopRetired _ code =>
      -- the other session receives on the stream
      have hreg := recv_registered_of_stop hr hf
      have hdir : ¬ (id.dir = .uni ∧
          decide (id.initiatorIsServer = (c.config i).isServer) = false) := by
        rintro ⟨hd, hown⟩
        rcases hlegal.recv id hreg with hbi | hother
        · rw [hd] at hbi
          cases hbi
        · exact of_decide_eq_false hown ((own_iff_peer c i id).2 hother)
      rw [Ids.isRetiredDirection, if_neg hdir]
      exact decide_eq_true (hlt hf rfl rfl (.inl hreg))

end Connection

/-- A stream that the receiver stops while its sender resets it: the two frames cross. -/
def stopCrossesReset : List (Side × Label) := List.flatten
  [times 1 .left (.call .openUni), times 7 .left (.op 0), times 9 .left (.outbound .ready),
    times 1 .right (.receive (messageOf (.openUni ⟨2⟩))), times 11 .right .inbound,
    times 9 .right (.outbound .ready), times 1 .right (.call (.accept false)),
    times 2 .right (.op 0), times 1 .right (.call (.stop ⟨2⟩ 5)), times 6 .right (.op 1),
    times 7 .right (.outbound .ready), times 1 .left (.call (.reset 0 7)), times 8 .left (.op 1),
    times 7 .left (.outbound .ready),
    times 1 .left (.receive (messageOf (.maxStreamData ⟨2⟩ 524288))), times 4 .left .inbound,
    times 1 .left (.receive (messageOf (.stopSending ⟨2⟩ 5))), times 2 .left .inbound]

/-- The direction whose retirement the inbound task is about to check. -/
def InPhase.retiring : InPhase → Option (StreamId × Bool)
  | .running (.retired id receiving) _ => some (id, receiving)
  | _ => none

theorem InPhase.of_retiring {p : InPhase} {id : StreamId} {receiving : Bool}
    (h : p.retiring = some (id, receiving)) :
    ∃ cursor, p = .running (.retired id receiving) cursor := by
  unfold InPhase.retiring at h
  split at h
  · cases h
    exact ⟨_, rfl⟩
  · cases h

/-- The sender has the `StopSending` for the stream that it has reset. -/
theorem crossed_frames_tolerated_run :
    ∃ x, defaultConnection.Run uncancelled x ∧
      (∀ i, (x.party.get i).mem.flags.isClosed = false) ∧
      .stopSending ⟨2⟩ 5 ∈ (x.party.get .left).inb.handled ∧
      .resetStream ⟨2⟩ 7 ∈ (x.party.get .left).mem.chan.admitted ∧
      .retired ⟨2⟩ false ∈ (x.party.get .left).tasks ∧
      (Task.retired ⟨2⟩ false).next (defaultConnection.config .left) (x.party.get .left).mem =
        some (.skip, .handled true) := by
  obtain ⟨x, hr, hphase, hl, hright, hh, ha⟩ : ∃ x, defaultConnection.Run uncancelled x ∧
      x.party.left.inb.phase.retiring = some (⟨2⟩, false) ∧
      x.party.left.mem.flags.isClosed = false ∧ x.party.right.mem.flags.isClosed = false ∧
      .stopSending ⟨2⟩ 5 ∈ x.party.left.inb.handled ∧
      .resetStream ⟨2⟩ 7 ∈ x.party.left.mem.chan.admitted :=
    Connection.exists_run stopCrossesReset (by decide +kernel)
  have ht : .retired ⟨2⟩ false ∈ (x.party.get .left).tasks := by
    obtain ⟨cursor, hp⟩ := InPhase.of_retiring hphase
    exact List.mem_of_getElem? (Session.tasks_inb hp)
  refine ⟨x, hr, ?_, hh, ha, ht, Connection.crossed_frames_tolerated hr .left ht⟩
  intro i
  cases i with
  | left => exact hl
  | right => exact hright

end WebsockMux.Native
