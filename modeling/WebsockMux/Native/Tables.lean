import WebsockMux.Native.OpenStreams
import WebsockMux.Native.RecvInvariant

/-!
# The stream tables

The keys of `streams` and of `send_flows` are identifiers of streams that have the direction in
question, below the allocation frontier, and no identifier is registered twice in a table: the
branches for duplicates are never taken (`tables_well_formed`). An identifier is registered by the
function that moved the frontier past it, and frontiers do not move back.
-/

set_option autoImplicit false

namespace WebsockMux.Native

open WebsockMux.Lib WebsockMux.Proto

variable {cfg : Config} {m : Memory} {v v' : View} {who : Option Nat} {s : Session}
  {ok : Session → Label → Prop}

/-- The streams on which a session receives: the peer's, and those with both directions. -/
def Config.Receives (cfg : Config) (id : StreamId) : Prop :=
  id.dir = .bi ∨ id.initiatorIsServer ≠ cfg.isServer

/-- The streams on which a session sends: its own, and those with both directions. -/
def Config.Sends (cfg : Config) (id : StreamId) : Prop :=
  id.dir = .bi ∨ id.initiatorIsServer = cfg.isServer

/-! ## Frontiers -/

/-- The four frontiers of one state lie at or below those of another. -/
def Ids.AtMost (x y : Ids) : Prop :=
  x.nextUni ≤ y.nextUni ∧ x.nextBi ≤ y.nextBi ∧ x.nextPeerUni ≤ y.nextPeerUni ∧
    x.nextPeerBi ≤ y.nextPeerBi

theorem Ids.AtMost.refl (x : Ids) : x.AtMost x :=
  ⟨Nat.le_refl _, Nat.le_refl _, Nat.le_refl _, Nat.le_refl _⟩

theorem Ids.AtMost.trans {x y z : Ids} (h : x.AtMost y) (h' : y.AtMost z) : x.AtMost z :=
  ⟨h.1.trans h'.1, h.2.1.trans h'.2.1, h.2.2.1.trans h'.2.2.1, h.2.2.2.trans h'.2.2.2⟩

theorem Ids.atMost_apply {x : Ids} {a : IdAccess} (h : x.Advances a) : x.AtMost (x.apply a) := by
  have hnext : ∀ dir, x.next dir ≤ (x.apply a).next dir := by
    intro dir
    cases a with
    | fetchAdd d =>
        rw [Ids.next_fetchAdd]
        split_ifs
        · exact Nat.le_succ _
        · exact Nat.le_refl _
    | peer i => rw [Ids.next_peer]
  have hpeer : ∀ dir, x.nextPeer dir ≤ (x.apply a).nextPeer dir := by
    intro dir
    cases a with
    | fetchAdd d => rw [Ids.nextPeer_fetchAdd]
    | peer i =>
        rw [Ids.nextPeer_peer h.2]
        split_ifs with hd
        · rw [hd]
          exact h.1.trans (Nat.le_succ _)
        · exact Nat.le_refl _
  exact ⟨hnext .uni, hnext .bi, hpeer .uni, hpeer .bi⟩

/-- A move does not take a frontier back. -/
theorem Moves.ids_atMost (h : Moves cfg v who v') (hwf : ∀ t ∈ v.tasks, t.WF cfg) :
    v.mem.ids.AtMost v'.mem.ids := by
  have hother : ∀ {a : Access}, (∀ b, a ≠ .id b) → v.mem.ids.AtMost (v.mem.apply a).ids := by
    intro a ha
    cases a with
    | id b => exact absurd rfl (ha b)
    | session clone => cases clone <;> exact .refl _
    | _ => exact .refl _
  cases h with
  | @next i t t' a hi hn =>
      cases a with
      | id b => exact Ids.atMost_apply (Task.advances_next (hwf t (List.mem_of_getElem? hi)) hn)
      | _ => exact hother nofun
  | exit hi => exact .refl _
  | spawn hc => exact hother fun b => Call.start_ne_id hc
  | loop ha hb =>
      refine hother fun b hb => ?_
      subst hb
      cases ha
  | _ => exact .refl _

/-- Frontiers do not move back in a run. -/
theorem ids_atMost_of_reachable (hr : Reachable (Session.step cfg) ok {} s) {s' : Session}
    (hr' : Reachable (Session.step cfg) ok s s') : s.mem.ids.AtMost s'.mem.ids := by
  induction hr' with
  | init => exact .refl _
  | step hr' _ hs ih =>
      have hctl := controlInv_of_reachable (hr.trans hr')
      exact ih.trans ((Session.moves_of_step hs).ids_atMost hctl.wf)

/-! ## What is registered -/

/-- The stream that an access registers in `send_flows`. -/
def Access.registersSend : Access → Option StreamId
  | .send (.register i) => some i
  | _ => none

/-- **Who registers a send flow**: `open_uni`, `open_bi` and the handler of an `OpenBi`. -/
theorem Task.registersSend_next {t t' : Task} {a : Access} {id : StreamId}
    (hn : t.next cfg m = some (a, t')) (ha : a.registersSend = some id) :
    (∃ dir, t = .registerSendFlow dir id) ∨ t = .registerFlow id := by
  replace hn := Task.steps_of_next hn
  induction hn with
  | registerUni i _ | registerBi i _ =>
      cases ha
      exact .inl ⟨_, rfl⟩
  | registerFlow i _ =>
      cases ha
      exact .inr rfl
  | closeAll c k => cases c <;> contradiction
  | _ => contradiction

theorem Call.registersSend_start {c : Call} {u : Use} {a : Access} {t : Task}
    (h : c.start m = some (u, a, t)) : a.registersSend = none := by
  cases Call.starts_of_start h <;> rfl

/-- An access registers no more than it says. -/
theorem Memory.recvRegistered_cases {a : Access} {id : StreamId}
    (h : id ∈ (m.apply a).recvs.registered) :
    id ∈ m.recvs.registered ∨ a.registersRecv = some id := by
  cases a with
  | recv b =>
      cases b with
      | register i w =>
          rcases List.mem_append.1 h with h | h
          · exact .inl h
          · cases List.mem_singleton.1 h
            exact .inr rfl
      | _ => exact .inl h
  | session clone => cases clone <;> exact .inl h
  | _ => exact .inl h

theorem Memory.sendRegistered_cases {a : Access} {id : StreamId}
    (h : id ∈ (m.apply a).sends.registered) :
    id ∈ m.sends.registered ∨ a.registersSend = some id := by
  cases a with
  | send b =>
      cases b with
      | register i =>
          rcases List.mem_append.1 h with h | h
          · exact .inl h
          · cases List.mem_singleton.1 h
            exact .inr rfl
      | _ => exact .inl h
  | session clone => cases clone <;> exact .inl h
  | _ => exact .inl h

theorem Memory.sendRegistered_apply (a : Access) {id : StreamId} (h : id ∈ m.sends.registered) :
    id ∈ (m.apply a).sends.registered := by
  cases a with
  | send b => exact m.sends.registered_apply b h
  | session clone => cases clone <;> exact h
  | _ => exact h

/-- **A step registers a receive stream** only by `open_bi` or by the handler of an open. -/
theorem Moves.recvRegistered (h : Moves cfg v who v') {id : StreamId}
    (hid : id ∈ v'.mem.recvs.registered) :
    id ∈ v.mem.recvs.registered ∨ .registerRecvStream id ∈ v.tasks ∨
      ∃ bi, .tryRegister id bi ∈ v.tasks := by
  cases h with
  | @next i t t' a hi hn =>
      refine (Memory.recvRegistered_cases hid).imp_right fun ha => ?_
      rcases Task.registersRecv_next hn ha with rfl | ⟨⟨bi, rfl⟩, -⟩
      · exact .inl (List.mem_of_getElem? hi)
      · exact .inr ⟨bi, List.mem_of_getElem? hi⟩
  | spawn hc =>
      refine (Memory.recvRegistered_cases hid).imp_right fun ha => ?_
      rw [Call.registersRecv_start hc] at ha
      cases ha
  | loop ha hb =>
      refine (Memory.recvRegistered_cases hid).imp_right fun hreg => ?_
      cases ha <;> cases hreg
  | _ => exact .inl hid

/-- **A step registers a send flow** only by `open_uni`, `open_bi` or the handler of an `OpenBi`. -/
theorem Moves.sendRegistered (h : Moves cfg v who v') {id : StreamId}
    (hid : id ∈ v'.mem.sends.registered) :
    id ∈ v.mem.sends.registered ∨ (∃ dir, .registerSendFlow dir id ∈ v.tasks) ∨
      .registerFlow id ∈ v.tasks := by
  cases h with
  | @next i t t' a hi hn =>
      refine (Memory.sendRegistered_cases hid).imp_right fun ha => ?_
      rcases Task.registersSend_next hn ha with ⟨dir, rfl⟩ | rfl
      · exact .inl ⟨dir, List.mem_of_getElem? hi⟩
      · exact .inr (List.mem_of_getElem? hi)
  | spawn hc =>
      refine (Memory.sendRegistered_cases hid).imp_right fun ha => ?_
      rw [Call.registersSend_start hc] at ha
      cases ha
  | loop ha hb =>
      refine (Memory.sendRegistered_cases hid).imp_right fun hreg => ?_
      cases ha <;> cases hreg
  | _ => exact .inl hid

/-- Every identifier that was registered is one of a stream with that direction. -/
structure RegisteredLegal (cfg : Config) (m : Memory) : Prop where
  recv : ∀ id ∈ m.recvs.registered, cfg.Receives id
  send : ∀ id ∈ m.sends.registered, cfg.Sends id

theorem RegisteredLegal.moves (hinv : RegisteredLegal cfg v.mem) (hctl : ControlInv cfg v)
    (h : Moves cfg v who v') : RegisteredLegal cfg v'.mem := by
  refine ⟨fun id hid => ?_, fun id hid => ?_⟩
  · rcases h.recvRegistered hid with hid | ht | ⟨bi, ht⟩
    · exact hinv.recv id hid
    · exact .inl (hctl.names _ ht).2
    · exact .inr (hctl.names _ ht).1
  · rcases h.sendRegistered hid with hid | ⟨dir, ht⟩ | ht
    · exact hinv.send id hid
    · exact .inr (hctl.names _ ht).1
    · exact .inl (hctl.names _ ht).2

theorem registeredLegal_of_reachable (hr : Reachable (Session.step cfg) ok {} s) :
    RegisteredLegal cfg s.mem := by
  induction hr with
  | init => exact ⟨nofun, nofun⟩
  | step hr _ hs ih => exact ih.moves (controlInv_of_reachable hr) (Session.moves_of_step hs)

/-! ## The tables of a run -/

/-- A registered receive stream lies below its frontier. -/
theorem recv_counter_lt (hr : Reachable (Session.step cfg) ok {} s) {id : StreamId}
    (h : id ∈ s.mem.recvs.registered) : id.counter < s.mem.ids.frontier cfg id := by
  have hf := ((recvsInv_of_reachable hr).owner id).fresh
  have hpos : 0 < (s.view.recvDirection cfg id).registered := List.count_pos_iff.2 h
  by_contra hlt
  have ha : (s.view.recvDirection cfg id).allocated = false := decide_eq_false hlt
  rw [ha, Bool.toNat_false] at hf
  omega

theorem send_counter_lt (hr : Reachable (Session.step cfg) ok {} s) {id : StreamId}
    (h : id ∈ s.mem.sends.registered) : id.counter < s.mem.ids.frontier cfg id := by
  have hf := ((sendsInv_of_reachable hr).send id).fresh
  have hpos : 0 < (s.mem.sendDirection cfg id).registered := List.count_pos_iff.2 h
  by_contra hlt
  have ha : (s.mem.sendDirection cfg id).allocated = false := decide_eq_false hlt
  rw [ha, Bool.toNat_false] at hf
  omega

/-- The keys of `streams` were registered. -/
theorem recv_registered (hr : Reachable (Session.step cfg) ok {} s) {id : StreamId}
    (h : id ∈ s.mem.recvs.streams) : id ∈ s.mem.recvs.registered :=
  List.count_pos_iff.1 (((recvsInv_of_reachable hr).owner id).registered_of_inTable
    (decide_eq_true h))

theorem send_registered (hr : Reachable (Session.step cfg) ok {} s) {id : StreamId}
    (h : id ∈ s.mem.sends.flows) : id ∈ s.mem.sends.registered :=
  List.count_pos_iff.1 (((sendsInv_of_reachable hr).send id).open_registered (decide_eq_true h))

/-- No identifier is registered twice. -/
theorem recv_nodup (hr : Reachable (Session.step cfg) ok {} s) : s.mem.recvs.registered.Nodup := by
  refine List.nodup_iff_count_le_one.2 fun id => ?_
  have hf := ((recvsInv_of_reachable hr).owner id).fresh
  have hle : (s.view.recvDirection cfg id).allocated.toNat ≤ 1 := Bool.toNat_le _
  have hc : (s.view.recvDirection cfg id).registered = s.mem.recvs.registered.count id := rfl
  omega

theorem send_nodup (hr : Reachable (Session.step cfg) ok {} s) : s.mem.sends.registered.Nodup := by
  refine List.nodup_iff_count_le_one.2 fun id => ?_
  have hf := ((sendsInv_of_reachable hr).send id).fresh
  have hle : (s.mem.sendDirection cfg id).allocated.toNat ≤ 1 := Bool.toNat_le _
  have hc : (s.mem.sendDirection cfg id).registered = s.mem.sends.registered.count id := rfl
  omega

/-- A function that is about to register a receive stream finds no entry for it. -/
theorem not_mem_streams_of_token (hr : Reachable (Session.step cfg) ok {} s) {id : StreamId}
    {t : Task} (ht : t ∈ s.tasks) (hrole : t.recvRole id = .token) : id ∉ s.mem.recvs.streams := by
  intro hin
  obtain ⟨i, hi⟩ := List.mem_iff_getElem?.1 ht
  have hrs : (recvRoles id s.tasks)[i]? = some .token := by
    rw [recvRoles, List.getElem?_map, hi, ← hrole]
    rfl
  have hown := (recvsInv_of_reachable hr).owner id
  have hz := hown.unregistered_of_token hrs
  have hpos := hown.registered_of_inTable (decide_eq_true hin)
  omega

theorem not_mem_flows_of_token (hr : Reachable (Session.step cfg) ok {} s) {id : StreamId}
    {t : Task} (ht : t ∈ s.tasks) (hrole : t.sendRole id = .token) : id ∉ s.mem.sends.flows := by
  intro hin
  obtain ⟨i, hi⟩ := List.mem_iff_getElem?.1 ht
  have hrs : (sendRoles id s.tasks)[i]? = some .token := by
    rw [sendRoles, List.getElem?_map, hi, ← hrole]
    rfl
  have hsend := (sendsInv_of_reachable hr).send id
  have hz := hsend.unregistered_of_token hrs
  have hpos := hsend.open_registered (decide_eq_true hin)
  omega

/-- **The stream tables are well-formed**, in every state of every run: their keys are streams with
the direction in question and lie below the frontiers, the frontiers never move back, no identifier
is registered twice in a table, and no function takes a branch for a duplicate. -/
theorem tables_well_formed (hr : Reachable (Session.step cfg) anyStep {} s) :
    (∀ id ∈ s.mem.recvs.streams, cfg.Receives id ∧ id.counter < s.mem.ids.frontier cfg id) ∧
    (∀ id ∈ s.mem.sends.flows, cfg.Sends id ∧ id.counter < s.mem.ids.frontier cfg id) ∧
    (∀ s', Reachable (Session.step cfg) anyStep s s' → s.mem.ids.AtMost s'.mem.ids) ∧
    s.mem.recvs.registered.Nodup ∧ s.mem.sends.registered.Nodup ∧
    (∀ id bi, .tryRegister id bi ∈ s.tasks →
      s.mem.recvs.refuses cfg id ≠ some (1, "duplicate stream open")) ∧
    (∀ id dir, .registerSendFlow dir id ∈ s.tasks ∨ .registerFlow id ∈ s.tasks →
      s.mem.sends.refuses cfg id ≠ some "duplicate send stream") := by
  have hlegal := registeredLegal_of_reachable hr
  refine ⟨fun id hid => ?_, fun id hid => ?_, fun s' hr' => ids_atMost_of_reachable hr hr',
    recv_nodup hr, send_nodup hr, fun id bi ht => ?_, fun id dir ht => ?_⟩
  · have hreg := recv_registered hr hid
    exact ⟨hlegal.recv id hreg, recv_counter_lt hr hreg⟩
  · have hreg := send_registered hr hid
    exact ⟨hlegal.send id hreg, send_counter_lt hr hreg⟩
  · have hnot := not_mem_streams_of_token hr ht (by rw [Task.recvRole, RecvRole.on, if_pos rfl])
    unfold RecvTable.refuses
    rw [if_neg hnot]
    split_ifs <;> simp
  · have hnot : id ∉ s.mem.sends.flows := by
      rcases ht with ht | ht
      · exact not_mem_flows_of_token hr ht (by rw [Task.sendRole, SendRole.on, if_pos rfl])
      · exact not_mem_flows_of_token hr ht (by rw [Task.sendRole, SendRole.on, if_pos rfl])
    unfold SendTable.refuses
    rw [if_neg hnot]
    split_ifs <;> simp

/-- A client whose peer has opened a bidirectional stream, which is in both tables. -/
theorem tables_well_formed_run :
    ∃ s, Reachable (Session.step ⟨false, {}⟩) anyStep {} s ∧ s.mem.recvs.streams = {⟨1⟩} ∧
      (∀ id ∈ s.mem.recvs.streams,
        Config.Receives ⟨false, {}⟩ id ∧ id.counter < s.mem.ids.frontier ⟨false, {}⟩ id) ∧
      (∀ id ∈ s.mem.sends.flows,
        Config.Sends ⟨false, {}⟩ id ∧ id.counter < s.mem.ids.frontier ⟨false, {}⟩ id) ∧
      s.mem.recvs.registered.Nodup ∧ s.mem.sends.registered.Nodup := by
  obtain ⟨s, hr, hs⟩ : ∃ s, Reachable (Session.step ⟨false, {}⟩) anyStep {} s ∧
      s.mem.recvs.streams = {⟨1⟩} ∧ s.mem.sends.flows = {⟨1⟩} :=
    Reachable.exists_of_run (List.flatten [[.receive (.binary [1, 1])],
      List.replicate 11 .inbound]) (by decide +kernel)
  have h := tables_well_formed hr
  exact ⟨s, hr, hs.1, h.1, h.2.1, h.2.2.2.1, h.2.2.2.2.1⟩

end WebsockMux.Native
