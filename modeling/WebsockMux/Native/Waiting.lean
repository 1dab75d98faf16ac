import WebsockMux.Native.Crossing

/-!
# Sessions that wait for each other

The inbound task answers an open with the first credit of the stream and a `StopSending` with a
reset, and it waits for a slot of the outbound queue to do so. Meanwhile it receives nothing, so the
transport towards it fills up, and the other outbound task waits. When both sessions do this at once,
the four tasks wait for each other (`crossing_opens_deadlock`). They do not where one of the two sessions
publishes no frame that has to be answered (`no_mutual_blocking`).
-/

set_option autoImplicit false

namespace WebsockMux.Native

open WebsockMux.Lib WebsockMux.Proto

/-! ## Transports of finite capacity -/

/-- The messages on their way from a session to the other one. -/
def inTransit (x : Link Session) (i : Side) : Nat :=
  (x.party.get i).out.written.length - x.taken.get i.other

/-- The outbound task gives a message to the transport. -/
def OutPc.writes : OutPc → Bool
  | .sending _ _ => true
  | .closing _ => true
  | _ => false

/-- A transport takes a message only if fewer than `capacity` messages are on their way. -/
def fits (capacity : Nat) (x : Link Session) (l : Side × Label) : Prop :=
  l.2 = .outbound .ready → (x.party.get l.1).out.pc.writes = true → inTransit x l.1 < capacity

instance (capacity : Nat) (x : Link Session) (l : Side × Label) : Decidable (fits capacity x l) := by
  unfold fits
  infer_instance

/-! ## Tasks that wait -/

/-- `handle_frame` waits for a slot of the outbound queue. -/
def Task.awaitsSlot : Task → Bool
  | .reserve s => s.inHandle
  | _ => false

/-- The outbound task gives a message of the session to the transport. -/
def OutPc.isSending : OutPc → Bool
  | .sending _ _ => true
  | _ => false

/-- Both inbound tasks wait for a slot of their outbound queue, which is full, and both outbound tasks
wait for their transport, which is full. -/
def MutuallyBlocked (c : Connection) (capacity : Nat) (x : Link Session) : Prop :=
  ∀ i, (x.party.get i).inb.phase.task.awaitsSlot = true ∧
    (x.party.get i).mem.chan.rxDropped = false ∧
    (x.party.get i).mem.chan.hasSlot (c.config i) = false ∧
    (x.party.get i).out.pc.isSending = true ∧ capacity ≤ inTransit x i

instance (c : Connection) (capacity : Nat) : DecidablePred (MutuallyBlocked c capacity) := fun _ => by
  unfold MutuallyBlocked
  infer_instance

/-! ## Frames that have to be answered -/

/-- A frame whose handler puts an answer into the queue. -/
def demands : Frame → Bool
  | .openUni _ => true
  | .openBi _ => true
  | .stopSending _ _ => true
  | _ => false

/-- The frame that a function is about to put into the queue. -/
def Task.frame? (cfg : Config) : Task → Option Frame
  | .publish s => some (s.frame cfg)
  | .trySend s _ => some s.frame
  | .pollPublish c => some c.frame
  | .shutdownPublish _ id => some (.stream id [] true)
  | _ => none

theorem Task.Admits.frame?_eq {cfg : Config} {t : Task} {f : Frame} (h : Task.Admits cfg t f) :
    t.frame? cfg = some f := by
  cases h <;> rfl

/-- A step in which the session `i` publishes no frame that has to be answered. -/
def asksNothing (c : Connection) (i : Side) (x : Link Session) (l : Side × Label) : Prop :=
  l.1 = i → ∀ t ∈ (x.party.get i).acting l.2, ∀ f ∈ t.frame? (c.config i), demands f = false

instance (c : Connection) (i : Side) (x : Link Session) (l : Side × Label) :
    Decidable (asksNothing c i x l) := by
  unfold asksNothing
  infer_instance

namespace Connection

variable {c : Connection} {ok : Link Session → Side × Label → Prop} {x : Link Session} {i : Side}

/-- The queue of such a session has no frame that has to be answered. -/
theorem not_demands_of_admitted (hr : c.Run ok x) (hok : ∀ y l, ok y l → asksNothing c i y l) :
    ∀ f ∈ (x.party.get i).mem.chan.admitted, demands f = false := by
  induction hr with
  | init =>
      intro f hf
      cases i <;> cases hf
  | @step x x' p hr hp hs ih =>
      obtain ⟨j, l⟩ := p
      by_cases hj : i = j
      · subst hj
        have hm := Session.moves_of_step (session_step hs).1
        intro f hf
        rcases hm.admitted with heq | ⟨n, t, t', a, g, hwho, hi, hn, ha, -, heq⟩
        · exact ih f (heq ▸ hf)
        · rw [show (x'.party.get i).mem.chan.admitted = _ from heq] at hf
          rcases List.mem_append.1 hf with hf | hf
          · exact ih f hf
          · cases List.mem_singleton.1 hf
            exact hok x (i, l) hp rfl t (Session.acting_eq hwho hi) f (Task.admits hn ha).frame?_eq
      · rw [session_eq hs hj]
        exact ih

/-- A session whose inbound task waits has handled a frame that has to be answered. -/
theorem demands_of_awaitsSlot (hr : c.Run ok x)
    (hw : (x.party.get i).inb.phase.task.awaitsSlot = true) :
    ∃ f ∈ (x.party.get i).inb.handled, demands f = true := by
  have hmem : (x.party.get i).inb.phase.task ∈ (x.party.get i).tasks := List.mem_cons_self
  generalize (x.party.get i).inb.phase.task = t at hw hmem
  cases t with
  | reserve s =>
      rcases handling_of_inHandle (hr.any i) hmem hw with hf | ⟨f, hf, hh⟩
      · cases hf
      · refine ⟨f, hf, ?_⟩
        cases hh with
        | creditSlot id bi => cases bi <;> rfl
        | resetSlot id code => rfl
  | _ => cases hw

/-- **No mutual blocking**, in every run of two sessions over transports of finite capacity in which
one of the two publishes no frame that has to be answered. -/
theorem no_mutual_blocking {capacity : Nat} (side : Side)
    (hr : c.Run (fun x l => fits capacity x l ∧ asksNothing c side x l) x) :
    ¬ MutuallyBlocked c capacity x := by
  intro hb
  obtain ⟨f, hf, hd⟩ := demands_of_awaitsSlot hr (hb side.other).1
  have hcredit : f.isCredit = false := by
    cases f <;> first | rfl | cases hd
  have hadm := mem_admitted hr hf hcredit
  rw [Side.other_other] at hadm
  have hnot := not_demands_of_admitted hr (fun y l h => h.2) f hadm
  rw [hnot] at hd
  cases hd

end Connection

/-- Limits that pass `validate`, with one slot in the outbound queue and no batching. -/
def narrowLimits : Limits := { outboundQueueLen := 1, maxBatchFrames := 1 }

/-- Two sessions with narrow limits. -/
def narrowConnection : Connection where
  client := narrowLimits
  server := narrowLimits
  client_valid := by decide
  server_valid := by decide

/-- One of the two applications opens two streams. The server is in its answer to the first one, and
the second one has arrived while the answer is still in the queue. -/
def opensTwice : List (Side × Label) := List.flatten
  [times 1 .left (.call .openUni), times 7 .left (.op 0), times 7 .left (.outbound .ready),
    times 1 .right (.receive (messageOf (.openUni ⟨2⟩))), times 11 .right .inbound,
    times 1 .left (.call .openUni), times 7 .left (.op 1), times 7 .left (.outbound .ready),
    times 1 .right (.receive (messageOf (.openUni ⟨6⟩))), times 5 .right .inbound]

/-- A server whose inbound task waits for a slot, while the server itself asks nothing. -/
theorem no_mutual_blocking_run :
    ∃ x, narrowConnection.Run (fun x l => fits 1 x l ∧ asksNothing narrowConnection .right x l) x ∧
      (x.party.get .right).inb.phase.task.awaitsSlot = true ∧
      (x.party.get .right).mem.chan.hasSlot (narrowConnection.config .right) = false ∧
      ¬ MutuallyBlocked narrowConnection 1 x := by
  obtain ⟨x, hr, hw, hs⟩ : ∃ x, narrowConnection.Run
      (fun x l => fits 1 x l ∧ asksNothing narrowConnection .right x l) x ∧
      x.party.right.inb.phase.task.awaitsSlot = true ∧
      x.party.right.mem.chan.hasSlot (narrowConnection.config .right) = false :=
    Connection.exists_run opensTwice (by decide +kernel)
  exact ⟨x, hr, hw, hs, Connection.no_mutual_blocking .right hr⟩

/-- An application opens three streams: the first open is on its way, the second one waits for the
transport, the third one is in the queue. -/
def opensThree (i : Side) : List (Side × Label) := List.flatten
  [times 1 i (.call .openUni), times 7 i (.op 0), times 7 i (.outbound .ready),
    times 1 i (.call .openUni), times 7 i (.op 1), times 5 i (.outbound .ready),
    times 1 i (.call .openUni), times 7 i (.op 2)]

/-- The outbound task goes on to the next open, and the application opens a fourth stream before the
inbound task finds the free slot. -/
def opensOneMore (i : Side) : List (Side × Label) := List.flatten
  [times 7 i (.outbound .ready), times 1 i (.call .openUni), times 7 i (.op 3)]

/-- The inbound tasks get the first open of the other side and wait for a slot. -/
def opensCross : List (Side × Label) := List.flatten
  [opensThree .left, opensThree .right,
    times 1 .right (.receive (messageOf (.openUni ⟨2⟩))), times 5 .right .inbound,
    times 1 .left (.receive (messageOf (.openUni ⟨3⟩))), times 5 .left .inbound,
    opensOneMore .left, opensOneMore .right]

/-- **Two applications that open streams at once** can block both sessions for good. -/
theorem crossing_opens_deadlock :
    ∃ x, narrowConnection.Run (fits 1) x ∧ MutuallyBlocked narrowConnection 1 x :=
  Connection.exists_run opensCross (by decide +kernel)

end WebsockMux.Native
