import WebsockMux.Native.Announced
import WebsockMux.Native.Connection
import WebsockMux.Native.Delivery

/-!
# Streams from end to end

One direction of a stream, from the frames that one session puts into its queue to the bytes that the
application at the other end reads. The bytes keep their order (`stream_integrity`), and the sender
never goes beyond the limit of the receiver (`flow_control_safety`).
-/

set_option autoImplicit false

namespace WebsockMux.Native

open WebsockMux.Lib WebsockMux.Proto

/-! ## Payload and limits of the frames of a stream -/

/-- The payload that a frame has for a stream. -/
def framePayload (id : StreamId) : Frame → List UInt8
  | .stream i data _ => if i = id then data else []
  | _ => []

/-- The payload of the `Stream` frames of a stream. -/
def streamBytes (id : StreamId) (fs : List Frame) : List UInt8 := fs.flatMap (framePayload id)

/-- The limit that a frame announces for a stream. -/
def credit? (id : StreamId) : Frame → Option Nat
  | .maxStreamData i n => if i = id then some n else none
  | _ => none

/-- The largest limit that the `MaxStreamData` frames of a stream announce, 0 without any. -/
def largestCredit (id : StreamId) (fs : List Frame) : Nat :=
  (fs.filterMap (credit? id)).foldr max 0

section Frames

variable {id : StreamId} {fs gs : List Frame} {n : Nat}

/-- The payload, by the items of the send direction. -/
theorem streamBytes_eq_items (id : StreamId) (fs : List Frame) :
    streamBytes id fs = (fs.filterMap (sendItem id)).flatMap SendItem.bytes := by
  induction fs with
  | nil => rfl
  | cons f fs ih =>
      unfold streamBytes at ih ⊢
      rw [List.flatMap_cons, ih]
      cases f with
      | stream i data fin =>
          by_cases hi : i = id <;>
            simp [framePayload, sendItem, hi, SendItem.bytes]
      | resetStream i code =>
          by_cases hi : i = id <;>
            simp [framePayload, sendItem, hi, SendItem.bytes]
      | _ => rfl

/-- The payload, by the events of the receive direction. -/
theorem streamBytes_eq_events (id : StreamId) (fs : List Frame) :
    streamBytes id fs =
      eventBytes ((fs.filterMap (sendItem id)).filterMap RecvDirection.event) := by
  rw [streamBytes_eq_items]
  generalize fs.filterMap (sendItem id) = items
  induction items with
  | nil => rfl
  | cons x items ih =>
      rw [List.flatMap_cons, ih]
      cases x with
      | stream data fin => simp [RecvDirection.event, eventBytes, SendItem.bytes]
      | reset => rfl

theorem le_largestCredit (h : .maxStreamData id n ∈ fs) : n ≤ largestCredit id fs := by
  have hmem : n ∈ fs.filterMap (credit? id) :=
    List.mem_filterMap.2 ⟨_, h, if_pos rfl⟩
  unfold largestCredit
  generalize fs.filterMap (credit? id) = ns at hmem
  induction ns with
  | nil => cases hmem
  | cons k ns ih =>
      rcases List.mem_cons.1 hmem with rfl | hmem
      · exact Nat.le_max_left _ _
      · exact (ih hmem).trans (Nat.le_max_right _ _)

theorem largestCredit_le (h : ∀ k, .maxStreamData id k ∈ fs → k ≤ n) :
    largestCredit id fs ≤ n := by
  have hall : ∀ k ∈ fs.filterMap (credit? id), k ≤ n := by
    intro k hk
    obtain ⟨f, hf, hk⟩ := List.mem_filterMap.1 hk
    cases f with
    | maxStreamData i j =>
        simp only [credit?] at hk
        split_ifs at hk with hi
        cases hk
        subst hi
        exact h _ hf
    | _ => cases hk
  unfold largestCredit
  generalize fs.filterMap (credit? id) = ns at hall
  induction ns with
  | nil => exact Nat.zero_le _
  | cons k ns ih =>
      exact Nat.max_le.2 ⟨hall k List.mem_cons_self, ih fun j hj => hall j (List.mem_cons_of_mem _ hj)⟩

end Frames

/-! ## Flow control -/

section FlowControl

variable {c : Connection} {ok : Link Session → Side × Label → Prop} {x : Link Session} {i : Side}

/-- The accounting of the sender: the payload in its queue, its reservations and its limit. -/
theorem sender_account {cfg : Config} {ok : Session → Label → Prop} {s : Session}
    (hr : Reachable (Session.step cfg) ok {} s) (id : StreamId) :
    (streamBytes id s.mem.chan.admitted).length ≤ (s.mem.sends.cell id).sentData ∧
      (s.mem.sends.cell id).sentData ≤ (s.mem.sends.cell id).maxData ∧
      ∀ n abort, .release id n abort ∈ s.tasks → n ≤ (s.mem.sends.cell id).sentData := by
  have hinv := (sendsInv_of_reachable hr).send id
  have hpay : streamBytes id s.mem.chan.admitted = (s.mem.sendDirection cfg id).payload :=
    streamBytes_eq_items id _
  have hsent := hinv.sent
  refine ⟨?_, hinv.sent_le, fun n abort ht => ?_⟩
  · rw [hpay]
    exact (Nat.le_add_right _ _).trans hsent
  · have hrole : SendRole.op 0 n ∈ sendRoles id s.tasks :=
      List.mem_map.2 ⟨_, ht, if_pos rfl⟩
    have hle : n ≤ total SendRole.reserved (sendRoles id s.tasks) :=
      le_total (f := SendRole.reserved) hrole
    exact (hle.trans (Nat.le_add_left _ _)).trans hsent

/-- The limits of the two ends. -/
theorem limits_ordered (hr : c.Run ok x) (i : Side) (id : StreamId) :
    ((x.party.get i).mem.sends.cell id).maxData ≤
        largestCredit id (x.party.get i.other).out.sunk ∧
      largestCredit id (x.party.get i.other).out.sunk ≤
        largestCredit id (x.party.get i.other).out.taken ∧
      largestCredit id (x.party.get i.other).out.taken ≤
        ((x.party.get i.other).mem.recvs.cell id).maxData := by
  refine ⟨?_, ?_, ?_⟩
  · rcases maxData_handled (hr.any i) id with hz | hmem
    · rw [hz]
      exact Nat.zero_le _
    · exact le_largestCredit ((Connection.handled_isPrefix hr i).subset hmem)
  · refine largestCredit_le fun n hn => le_largestCredit ?_
    exact (outbox_of_reachable (hr.any i.other)).place.sunk_prefix.subset hn
  · exact largestCredit_le fun n hn => announced_le (c.valid i.other) (hr.any i.other) hn

/-- The events of the handled frames are those of the frames in the queue of the other session. -/
theorem gotEvents_isPrefix (hr : c.Run ok x) (i : Side) (id : StreamId) :
    ((x.party.get i.other).view.recvDirection (c.config i.other) id).gotEvents <+:
      ((x.party.get i).mem.chan.admitted.filterMap (sendItem id)).filterMap
        RecvDirection.event := by
  have hpre := Connection.got_prefix hr i.other id
  rw [Side.other_other] at hpre
  exact hpre.filterMap _

/-- What arrives was put into the queue of the other session. -/
theorem received_le (hr : c.Run ok x) (i : Side) {id : StreamId} {data : List UInt8} {fin : Bool}
    (ht : .receiveData id data fin ∈ (x.party.get i.other).tasks) :
    ((x.party.get i.other).mem.recvs.cell id).received + data.length ≤
      (streamBytes id (x.party.get i).mem.chan.admitted).length := by
  have hrole : RecvRole.arriving ⟨data, fin⟩ ∈ recvRoles id (x.party.get i.other).tasks :=
    List.mem_map.2 ⟨_, ht, if_pos rfl⟩
  have hdata : data.length ≤ total RecvRole.uncounted (recvRoles id (x.party.get i.other).tasks) :=
    le_total (f := RecvRole.uncounted) hrole
  have hcount := (recvCounted_of_reachable (hr.any i.other) id).le
  obtain ⟨more, hmore⟩ := gotEvents_isPrefix hr i id
  rw [streamBytes_eq_events, ← hmore, eventBytes_append, List.length_append]
  exact ((Nat.add_le_add_left hdata _).trans hcount).trans (Nat.le_add_right _ _)

/-- **Flow control is safe from end to end.** For both directions of every stream, in every state of
a connection: the payload that the sender has put into its queue, its `sent_data`, its `max_data`,
the largest limit that the receiver has written and has taken for writing, and the `max_data` of the
receiver increase in this order. So `handle_frame` finds every frame of the sender within the limit,
and a reservation that is released was counted. -/
theorem flow_control_safety (hr : c.Run anyStep x) (i : Side) (id : StreamId) :
    (streamBytes id (x.party.get i).mem.chan.admitted).length ≤
        ((x.party.get i).mem.sends.cell id).sentData ∧
      ((x.party.get i).mem.sends.cell id).sentData ≤
        ((x.party.get i).mem.sends.cell id).maxData ∧
      ((x.party.get i).mem.sends.cell id).maxData ≤
        largestCredit id (x.party.get i.other).out.sunk ∧
      largestCredit id (x.party.get i.other).out.sunk ≤
        largestCredit id (x.party.get i.other).out.taken ∧
      largestCredit id (x.party.get i.other).out.taken ≤
        ((x.party.get i.other).mem.recvs.cell id).maxData ∧
      (∀ data fin, .receiveData id data fin ∈ (x.party.get i.other).tasks →
        (x.party.get i.other).mem.recvs.refusesData id data.length ≠
            some "stream flow-control limit exceeded" ∧
          (x.party.get i.other).mem.recvs.refusesData id data.length ≠
            some "stream data overflow") ∧
      ∀ n abort, .release id n abort ∈ (x.party.get i).tasks →
        n ≤ ((x.party.get i).mem.sends.cell id).sentData := by
  obtain ⟨hpay, hsent, hrelease⟩ := sender_account (hr.any i) id
  obtain ⟨hmax, hsunk, htaken⟩ := limits_ordered hr i id
  refine ⟨hpay, hsent, hmax, hsunk, htaken, fun data fin ht => ?_, hrelease⟩
  have hwin := recvWindow_of_reachable (c.valid i.other).window_le (hr.any i.other) id
  have hle : ((x.party.get i.other).mem.recvs.cell id).received + data.length ≤
      ((x.party.get i.other).mem.recvs.cell id).maxData :=
    (received_le hr i ht).trans (hpay.trans (hsent.trans (hmax.trans (hsunk.trans htaken))))
  -- the limit is a varint, far below the overflow
  have hlim : ((x.party.get i.other).mem.recvs.cell id).maxData ≤ VarInt.max :=
    hwin.granted.trans hwin.granted_le
  have hover : ¬ 2 ^ 64 ≤ ((x.party.get i.other).mem.recvs.cell id).received + data.length := by
    simp only [VarInt.max] at hlim
    omega
  unfold RecvTable.refusesData
  rw [if_neg hover, if_neg (Nat.not_lt.2 hle)]
  split_ifs
  all_goals exact ⟨by decide, by decide⟩

end FlowControl

/-! ## Integrity -/

section Integrity

variable {c : Connection} {ok : Link Session → Side × Label → Prop} {x : Link Session} {i : Side}

/-- A FIN carries no payload. -/
theorem fin_empty {cfg : Config} {ok : Session → Label → Prop} {s : Session}
    (hr : Reachable (Session.step cfg) ok {} s) {id : StreamId} {data : List UInt8}
    (h : .stream id data true ∈ s.mem.chan.admitted) : data = [] := by
  have hlog : ∀ y ∈ (s.mem.sendDirection cfg id).log, y.isFin = true → y.bytes = [] := by
    refine send_invariant (P := fun d _ => ∀ y ∈ d.log, y.isFin = true → y.bytes = []) nofun ?_ hr id
    intro d d' rs rs' _ h hs
    -- only the items that a step adds matter
    have hitem : ∀ {z : SendItem}, (z.isFin = true → z.bytes = []) →
        ∀ y ∈ d.log ++ [z], y.isFin = true → y.bytes = [] := by
      intro z hz y hy
      rcases List.mem_append.1 hy with hy | hy
      · exact h y hy
      · rw [List.mem_singleton.1 hy]
        exact hz
    cases hs with
    | act hi hs =>
        cases hs with
        | data ho hm hm' => exact hitem nofun
        | fin ho => exact hitem fun _ => rfl
        | shutFin ho => exact hitem fun _ => rfl
        | reset => exact hitem nofun
        | resetBare hr' => exact hitem nofun
        | _ => exact h
    | _ => exact h
  exact hlog (.stream data true) (List.mem_filterMap.2 ⟨_, h, if_pos rfl⟩) rfl

/-- The frame of an event. -/
theorem eq_stream_of_event {id : StreamId} {f : Frame} {e : RecvEvent}
    (h : (sendItem id f).bind RecvDirection.event = some e) : f = .stream id e.data e.fin := by
  cases f with
  | stream i data fin =>
      by_cases hi : i = id
      · subst hi
        simp only [sendItem, if_true, Option.bind_some, RecvDirection.event, Option.some.injEq] at h
        rw [← h]
      · simp [sendItem, hi] at h
  | resetStream i code =>
      by_cases hi : i = id <;> simp [sendItem, hi, RecvDirection.event] at h
  | _ => cases h

/-- The frames up to an event of a stream. -/
theorem frames_of_events {id : StreamId} {fs : List Frame} {pre post : List RecvEvent}
    {e : RecvEvent}
    (h : (fs.filterMap (sendItem id)).filterMap RecvDirection.event = pre ++ e :: post) :
    ∃ before after, fs = before ++ .stream id e.data e.fin :: after ∧
      (before.filterMap (sendItem id)).filterMap RecvDirection.event = pre := by
  rw [List.filterMap_filterMap] at h
  obtain ⟨first, rest, rfl, hpre, hrest⟩ := List.filterMap_eq_append_iff.1 h
  obtain ⟨skip, f, after, rfl, hskip, hf, -⟩ := List.filterMap_eq_cons_iff.1 hrest
  refine ⟨first ++ skip, after, ?_, ?_⟩
  · rw [← eq_stream_of_event hf, List.append_assoc]
  · rw [List.filterMap_filterMap, List.filterMap_append, hpre, List.filterMap_eq_nil_iff.2 hskip,
      List.append_nil]

/-- A list whose only marked element can be its last one. -/
theorem eq_concat_of_mem {p : RecvEvent → Bool} {es : List RecvEvent} {e : RecvEvent} (he : e ∈ es)
    (hp : p e = true) (hlast : ∀ y ∈ es.dropLast, p y = false) : es = es.dropLast ++ [e] := by
  have hne : es ≠ [] := List.ne_nil_of_mem he
  have hsplit := List.dropLast_concat_getLast hne
  rw [← hsplit] at he
  rcases List.mem_append.1 he with he | he
  · rw [hlast e he] at hp
    cases hp
  · rw [List.mem_singleton.1 he]
    exact hsplit.symm

/-- The reader that has taken the FIN has taken every event that was delivered. -/
theorem taken_of_finRead {cell : RecvCell} {taken : List RecvEvent} (h : cell.Took taken)
    (hlast : ∀ y ∈ cell.delivered.dropLast, y.fin = false) (hfin : cell.reader.finRead = true) :
    ∃ e, e.fin = true ∧ cell.delivered = taken ∧ taken = taken.dropLast ++ [e] := by
  obtain ⟨e, he, hef⟩ : ∃ e ∈ taken, e.fin = true := List.any_eq_true.1 (h.finRead ▸ hfin)
  have hnil : cell.events = [] := by
    by_contra hne
    have hmem : e ∈ cell.delivered.dropLast := by
      rw [h.delivered, List.dropLast_append_of_ne_nil hne]
      exact List.mem_append_left _ he
    rw [hlast e hmem] at hef
    cases hef
  have hall : cell.delivered = taken := by rw [h.delivered, hnil, List.append_nil]
  exact ⟨e, hef, hall, eq_concat_of_mem he hef (hall ▸ hlast)⟩

/-- **Streams are delivered intact.** For both directions of every stream, in every state of a
connection: what the reader has returned is a prefix of the payload that the sender has put into its
queue, and when the reader has taken the FIN and nothing is pending, it is the payload before the
FIN. -/
theorem stream_integrity (hr : c.Run anyStep x) (i : Side) (id : StreamId) :
    ((x.party.get i.other).mem.recvs.cell id).reader.returned <+:
        streamBytes id (x.party.get i).mem.chan.admitted ∧
      (((x.party.get i.other).mem.recvs.cell id).reader.finRead = true →
        ((x.party.get i.other).mem.recvs.cell id).reader.pending = [] →
        ∃ before after,
          (x.party.get i).mem.chan.admitted = before ++ .stream id [] true :: after ∧
          (∀ data, .stream id data true ∉ before) ∧
          ((x.party.get i.other).mem.recvs.cell id).reader.returned = streamBytes id before) := by
  obtain ⟨taken, htook⟩ := recvTook_of_reachable (hr.any i.other) id
  obtain ⟨q, -, hord⟩ := inOrder_of_reachable (hr.any i.other) id
  have hlast := (recvEnds_of_reachable (hr.any i.other) id).fin_last
  obtain ⟨more, hmore⟩ := hord.delivered_prefix.trans (gotEvents_isPrefix hr i id)
  have hmore : ((x.party.get i.other).mem.recvs.cell id).delivered ++ more = _ := hmore
  refine ⟨?_, fun hfin hpend => ?_⟩
  · rw [streamBytes_eq_events, ← hmore, htook.delivered, eventBytes_append, eventBytes_append,
      ← htook.bytes, List.append_assoc, List.append_assoc]
    exact List.prefix_append _ _
  · obtain ⟨e, hef, hall, hsplit⟩ := taken_of_finRead htook hlast hfin
    rw [hall, hsplit, List.append_assoc, List.singleton_append] at hmore
    obtain ⟨before, after, hadm, hbefore⟩ := frames_of_events hmore.symm
    rw [hef] at hadm
    have hempty : e.data = [] := fin_empty (hr.any i) (hadm ▸ List.mem_append_right _ List.mem_cons_self)
    refine ⟨before, after, hempty ▸ hadm, fun data hmem => ?_, ?_⟩
    · -- a FIN before this one would have been delivered before it
      have hpre : (⟨data, true⟩ : RecvEvent) ∈ taken.dropLast := by
        rw [← hbefore, List.filterMap_filterMap]
        exact List.mem_filterMap.2 ⟨_, hmem, by simp [sendItem, RecvDirection.event]⟩
      cases hlast _ (hall ▸ hpre)
    · have hbytes := htook.bytes
      rw [hpend, List.append_nil, hsplit, eventBytes_append] at hbytes
      rw [streamBytes_eq_events, hbefore, hbytes]
      simp [eventBytes, hempty]

end Integrity

/-! ## A run -/

/-- The client opens a stream, gets its first credit and writes two bytes. -/
def opensAndWrites : List (Side × Label) := List.flatten [
  times 1 .left (.call .openUni), times 7 .left (.op 0), times 9 .left (.outbound .ready),
  times 1 .right (.receive (messageOf (.openUni ⟨2⟩))), times 11 .right .inbound,
  times 9 .right (.outbound .ready),
  times 1 .left (.receive (messageOf (.maxStreamData ⟨2⟩ (512 * 1024)))), times 4 .left .inbound,
  times 1 .left (.call (.write 0 [7, 8])), times 14 .left (.op 1)]

/-- The two bytes arrive, the client finishes the stream, and the server accepts and reads it. -/
def finishesAndReads : List (Side × Label) := List.flatten [
  times 7 .left (.outbound .ready),
  times 1 .right (.receive (messageOf (.stream ⟨2⟩ [7, 8] false))), times 6 .right .inbound,
  times 1 .left (.call (.finish 0)), times 13 .left (.op 2), times 7 .left (.outbound .ready),
  times 1 .right (.receive (messageOf (.stream ⟨2⟩ [] true))), times 7 .right .inbound,
  times 1 .right (.call (.accept false)), times 2 .right (.op 0),
  times 1 .right (.call (.read ⟨2⟩ .read 9)), times 1 .right (.op 1),
  times 1 .right (.call (.read ⟨2⟩ .read 9)), times 1 .right (.op 2)]

/-- With two bytes in its queue, the client has reserved them within the limit of the server. -/
theorem flow_control_safety_run :
    ∃ x, defaultConnection.Run anyStep x ∧
      (streamBytes ⟨2⟩ (x.party.get .left).mem.chan.admitted).length = 2 ∧
      2 ≤ ((x.party.get .left).mem.sends.cell ⟨2⟩).sentData ∧
      ((x.party.get .left).mem.sends.cell ⟨2⟩).maxData ≤
        ((x.party.get .right).mem.recvs.cell ⟨2⟩).maxData := by
  obtain ⟨x, hr, hlen⟩ : ∃ x, defaultConnection.Run anyStep x ∧
      (streamBytes ⟨2⟩ (x.party.get .left).mem.chan.admitted).length = 2 :=
    Connection.exists_run opensAndWrites (by decide +kernel)
  obtain ⟨hpay, -, hmax, hsunk, htaken, -⟩ := flow_control_safety hr .left ⟨2⟩
  exact ⟨x, hr, hlen, hlen.ge.trans hpay, hmax.trans (hsunk.trans htaken)⟩

/-- The server has read the two bytes and the FIN. -/
theorem stream_integrity_run :
    ∃ x, defaultConnection.Run anyStep x ∧
      ((x.party.get .right).mem.recvs.cell ⟨2⟩).reader.returned = [7, 8] ∧
      ∃ before after,
        (x.party.get .left).mem.chan.admitted = before ++ .stream ⟨2⟩ [] true :: after ∧
        streamBytes ⟨2⟩ before = [7, 8] := by
  obtain ⟨x, hr, hret, hfin, hpend⟩ : ∃ x, defaultConnection.Run anyStep x ∧
      ((x.party.get .right).mem.recvs.cell ⟨2⟩).reader.returned = [7, 8] ∧
      ((x.party.get .right).mem.recvs.cell ⟨2⟩).reader.finRead = true ∧
      ((x.party.get .right).mem.recvs.cell ⟨2⟩).reader.pending = [] :=
    Connection.exists_run (opensAndWrites ++ finishesAndReads) (by decide +kernel)
  obtain ⟨before, after, hadm, -, hbytes⟩ := (stream_integrity hr .left ⟨2⟩).2 hfin hpend
  exact ⟨x, hr, hret, before, after, hadm, hbytes.symm.trans hret⟩

end WebsockMux.Native
