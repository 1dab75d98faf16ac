import WebsockMux.Native.Moves

/-!
# The number of open receive streams

The table `streams` is meant to have at most `max_open_streams` entries. The peer's opens are
checked against the bound (`try_register_inbound_recv_stream`), `open_bi` is not
(`register_recv_stream`): the bound holds in runs in which `open_bi` finds room in the table
(`open_streams_le`), and not in all runs (`open_streams_over`).
-/

set_option autoImplicit false

namespace WebsockMux.Native

open WebsockMux.Lib WebsockMux.Proto

variable {cfg : Config} {m : Memory} {v v' : View} {who : Option Nat}

/-- The stream that an access inserts into `streams`. -/
def Access.registersRecv : Access → Option StreamId
  | .recv (.register i _) => some i
  | _ => none

/-- Without a registration the table does not grow. -/
theorem Memory.streams_apply (m : Memory) {a : Access} (ha : a.registersRecv = none) :
    (m.apply a).recvs.streams ⊆ m.recvs.streams := by
  cases a with
  | recv b =>
      cases b with
      | register i w => cases ha
      | remove i => exact Finset.erase_subset _ _
      | clear => exact Finset.empty_subset _
      | _ => exact Finset.Subset.refl _
  | session clone => cases clone <;> exact Finset.Subset.refl _
  | _ => exact Finset.Subset.refl _

/-- A registration inserts one stream. -/
theorem Memory.streams_register (m : Memory) {a : Access} {id : StreamId}
    (ha : a.registersRecv = some id) :
    (m.apply a).recvs.streams = insert id m.recvs.streams := by
  cases a with
  | recv b =>
      cases b with
      | register i w =>
          cases ha
          rfl
      | _ => cases ha
  | _ => cases ha

/-- **Who registers a receive stream**: `open_bi`, and a peer's open that was not refused. -/
theorem Task.registersRecv_next {t t' : Task} {a : Access} {id : StreamId}
    (hn : t.next cfg m = some (a, t')) (ha : a.registersRecv = some id) :
    t = .registerRecvStream id ∨
      (∃ bi, t = .tryRegister id bi) ∧ m.recvs.refuses cfg id = none := by
  replace hn := Task.steps_of_next hn
  induction hn with
  | registerRecvStream i =>
      cases ha
      exact .inl rfl
  | tryRegister i bi href =>
      cases ha
      exact .inr ⟨⟨bi, rfl⟩, href⟩
  | closeAll c k => cases c <;> contradiction
  | _ => contradiction

theorem LoopAccess.registersRecv_eq {a : Access} (ha : LoopAccess m a) :
    a.registersRecv = none := by
  cases ha <;> rfl

theorem Call.registersRecv_start {c : Call} {u : Use} {a : Access} {t : Task}
    (h : c.start m = some (u, a, t)) : a.registersRecv = none := by
  cases Call.starts_of_start h <;> rfl

theorem RecvTable.card_lt_of_refuses {s : RecvTable} {id : StreamId}
    (h : s.refuses cfg id = none) : s.streams.card < cfg.limits.maxOpenStreams := by
  unfold RecvTable.refuses at h
  split_ifs at h with hle
  exact Nat.lt_of_not_le hle

/-- A step that is not `open_bi` inserting into a table that is full. -/
def opensWithRoom (cfg : Config) (s : Session) (l : Label) : Prop :=
  ∀ t ∈ s.acting l, (t matches .registerRecvStream _) = true →
    s.mem.recvs.streams.card < cfg.limits.maxOpenStreams

instance (s : Session) (l : Label) : Decidable (opensWithRoom cfg s l) := by
  unfold opensWithRoom
  infer_instance

/-- A move keeps the bound when `open_bi`, if it registers, finds room. -/
theorem Moves.streams_card_le (h : Moves cfg v who v')
    (hroom : ∀ i t, who = some i → v.tasks[i]? = some t →
      (t matches .registerRecvStream _) = true →
        v.mem.recvs.streams.card < cfg.limits.maxOpenStreams)
    (hle : v.mem.recvs.streams.card ≤ cfg.limits.maxOpenStreams) :
    v'.mem.recvs.streams.card ≤ cfg.limits.maxOpenStreams := by
  have hquiet : ∀ {a : Access}, a.registersRecv = none →
      (v.mem.apply a).recvs.streams.card ≤ cfg.limits.maxOpenStreams := fun ha =>
    (Finset.card_le_card (v.mem.streams_apply ha)).trans hle
  cases h with
  | @next i t t' a hi hn =>
      cases ha : a.registersRecv with
      | none => exact hquiet ha
      | some id =>
          have hlt : v.mem.recvs.streams.card < cfg.limits.maxOpenStreams := by
            rcases Task.registersRecv_next hn ha with rfl | ⟨-, href⟩
            · exact hroom i _ rfl hi rfl
            · exact RecvTable.card_lt_of_refuses href
          show (v.mem.apply a).recvs.streams.card ≤ _
          rw [Memory.streams_register _ ha]
          exact (Finset.card_insert_le _ _).trans hlt
  | cancel hi hc => exact hle
  | timeout hi hc => exact hle
  | abort hi ha => exact hle
  | turn hi ht => exact hle
  | exit hi => exact hle
  | spawn hc => exact hquiet (Call.registersRecv_start hc)
  | loop ha hb => exact hquiet ha.registersRecv_eq

theorem streams_card_le {s : Session}
    (hr : Reachable (Session.step cfg) (opensWithRoom cfg) {} s) :
    s.mem.recvs.streams.card ≤ cfg.limits.maxOpenStreams :=
  hr.invariant (I := fun s => s.mem.recvs.streams.card ≤ cfg.limits.maxOpenStreams)
    (Nat.zero_le _) fun _ ih hok hs => (Session.moves_of_step hs).streams_card_le
      (fun _ t hl hi ht => hok t (Session.acting_eq hl hi) ht) ih

/-- **The bound on open receive streams** holds in every state of every run in which `open_bi`
inserts its receive stream only while the table has room. -/
theorem open_streams_le {s : Session} (hr : Reachable (Session.step cfg) (opensWithRoom cfg) {} s) :
    s.mem.recvs.streams.card ≤ cfg.limits.maxOpenStreams :=
  streams_card_le hr

/-- With a limit of one stream: the peer opens a stream. -/
theorem open_streams_le_run :
    ∃ s, Reachable (Session.step ⟨false, { maxOpenStreams := 1 }⟩)
        (opensWithRoom ⟨false, { maxOpenStreams := 1 }⟩) {} s ∧
      s.mem.recvs.streams = {⟨3⟩} ∧ s.mem.recvs.streams.card ≤ 1 := by
  obtain ⟨s, hr, hs⟩ : ∃ s, Reachable (Session.step ⟨false, { maxOpenStreams := 1 }⟩)
      (opensWithRoom ⟨false, { maxOpenStreams := 1 }⟩) {} s ∧ s.mem.recvs.streams = {⟨3⟩} :=
    Reachable.exists_of_run (List.flatten [[.receive (.binary [0, 3])],
      List.replicate 4 .inbound]) (by decide +kernel)
  exact ⟨s, hr, hs, open_streams_le hr⟩

/-- **The bound can be exceeded.** With a limit of one stream, which the peer has used, `open_bi`
inserts a second one. -/
theorem open_streams_over :
    ∃ s, Reachable (Session.step ⟨false, { maxOpenStreams := 1 }⟩) anyStep {} s ∧
      s.mem.recvs.streams = {⟨3⟩, ⟨0⟩} :=
  Reachable.exists_of_run (List.flatten [[.receive (.binary [0, 3])], List.replicate 4 .inbound,
    [.call .openBi], List.replicate 3 (.op 0)]) (by decide +kernel)

end WebsockMux.Native
