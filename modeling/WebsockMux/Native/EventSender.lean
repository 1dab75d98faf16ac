import WebsockMux.Native.RecvInvariant

/-!
# Clones of event senders

`handle_frame` clones the event sender of a stream from the table and sends through the clone. So an
event channel can have a sender although its stream has left the table, but only while the inbound
task is in `handle_frame` (`txHeld_of_reachable`).
-/

set_option autoImplicit false

namespace WebsockMux.Native

open WebsockMux.Lib WebsockMux.Proto

variable {cfg : Config} {m : Memory} {v v' : View} {who : Option Nat} {id : StreamId}

/-- The stream whose event sender the inbound task drops when it returns. -/
def Ret.tx : Ret → Option StreamId
  | .dropTx id _ => some id
  | _ => none

/-- The stream of whose event sender the inbound task has a clone. -/
def Task.tx : Task → Option StreamId
  | .deliver id _ _ => some id
  | .removeRecv id => some id
  | .dropTx id _ => some id
  | .anyOf _ (.trySend (.protocolError _ _) k) => k.tx
  | .trySend (.protocolError _ _) k => k.tx
  | .closeAll _ k => k.tx
  | _ => none

theorem Ret.tx_resume {k : Ret} (h : k.tx = some id) : k.resume.tx = some id := by
  cases k <;> first | exact h | cases h

/-- The clone is kept until it is dropped. -/
theorem Task.tx_next {t t' : Task} {a : Access} (hn : t.next cfg m = some (a, t'))
    (ht : t.tx = some id) (ha : a ≠ .recv (.dropTx id)) : t'.tx = some id := by
  replace hn := Task.steps_of_next hn
  induction hn with
  | closedFin | closedData | eventsFull | deliverFin | deliver | removeRecv => exact ht
  | dropTx =>
      cases ht
      exact absurd rfl ha
  | anyOfNil c | anyOfSet f fs c | anyOfLast f c | anyOf f fs c =>
      cases c with
      | trySend s k =>
          cases s with
          | protocolError code reason => exact ht
          | _ => cases ht
      | _ => cases ht
  | trySend s | trySendFull s =>
      cases s with
      | protocolError code reason => exact ht
      | _ => cases ht
  | closeAllAgain => exact Ret.tx_resume ht
  | closeAll c k =>
      cases c with
      | closeFlows => exact Ret.tx_resume ht
      | _ => exact ht
  | _ => contradiction

theorem Task.tx_cancelled {t t' : Task} (h : t.cancelled = some t') : t.tx = none := by
  cases t <;> first | rfl | cases h

theorem Task.tx_timedOut {t t' : Task} (h : t.timedOut = some t') : t.tx = none := by
  cases t <;> first | rfl | cases h

theorem Task.tx_aborted {t t' : Task} (h : t.aborted = some t') (ht : t.tx = some id) :
    t'.tx = some id := by
  cases t with
  | closeAll c k => cases c <;> cases h <;> exact Ret.tx_resume ht
  | deliver i data fin => cases h
  | removeRecv i => cases h
  | dropTx i k => cases h
  | anyOf flags c => cases h
  | trySend s k => cases h
  | _ => cases ht

theorem RecvTable.txHeld_apply {s : RecvTable} {a : RecvAccess}
    (h : ((s.apply a).cell id).txHeld = true) :
    ((s.cell id).txHeld = true ∧ a ≠ .dropTx id) ∨ ∃ n, a = .receive id n := by
  cases a with
  | register i w =>
      simp only [RecvTable.apply, RecvTable.register, Function.update_apply] at h
      by_cases hi : id = i
      · rw [if_pos hi] at h
        cases h
      · rw [if_neg hi] at h
        exact .inl ⟨h, by rintro ⟨⟩⟩
  | remove i => exact .inl ⟨h, by rintro ⟨⟩⟩
  | clear => exact .inl ⟨h, by rintro ⟨⟩⟩
  | clearCredit => exact .inl ⟨h, by rintro ⟨⟩⟩
  | prune n => exact .inl ⟨h, by rintro ⟨⟩⟩
  | receive i n =>
      simp only [RecvTable.apply, RecvTable.modify, Function.update_apply] at h
      split_ifs at h with hi
      · exact .inr ⟨n, by rw [hi]⟩
      · exact .inl ⟨h, by rintro ⟨⟩⟩
  | dropTx i =>
      simp only [RecvTable.apply, RecvTable.modify, Function.update_apply] at h
      split_ifs at h with hi
      refine .inl ⟨h, ?_⟩
      rintro ⟨⟩
      exact hi rfl
  | _ =>
      simp only [RecvTable.apply, RecvTable.stopRecvStream, RecvTable.queueCredit,
        RecvTable.modify, Function.update_apply] at h
      split_ifs at h
      all_goals
        subst_vars
        exact .inl ⟨h, by rintro ⟨⟩⟩

/-- **Who takes a clone**: the handler of a `Stream` frame. -/
theorem Task.receive_next {t t' : Task} {n : Nat}
    (hn : t.next cfg m = some (.recv (.receive id n), t')) :
    (∃ data fin, t = .receiveData id data fin) ∧ t'.tx = some id := by
  generalize ha : Access.recv (.receive id n) = a at hn
  replace hn := Task.steps_of_next hn
  induction hn with
  | stoppedFin i data | stoppedData i data =>
      cases ha
      exact ⟨⟨data, _, rfl⟩, rfl⟩
  | receiveData i data fin =>
      cases ha
      exact ⟨⟨data, fin, rfl⟩, rfl⟩
  | closeAll c k => cases c <;> cases ha
  | _ => cases ha

theorem Memory.txHeld_apply {a : Access} (h : ((m.apply a).recvs.cell id).txHeld = true) :
    ((m.recvs.cell id).txHeld = true ∧ a ≠ .recv (.dropTx id)) ∨ ∃ n, a = .recv (.receive id n) := by
  cases a with
  | recv b =>
      rcases RecvTable.txHeld_apply h with ⟨h, hne⟩ | ⟨n, rfl⟩
      · refine .inl ⟨h, ?_⟩
        rintro ⟨⟩
        exact hne rfl
      · exact .inr ⟨n, rfl⟩
  | session clone => cases clone <;> exact .inl ⟨h, nofun⟩
  | _ => exact .inl ⟨h, nofun⟩

theorem Call.start_ne_receive {c : Call} {u : Use} {a : Access} {t : Task} {n : Nat}
    (h : c.start m = some (u, a, t)) : a ≠ .recv (.receive id n) := by
  rintro rfl
  cases Call.starts_of_start h

/-- A clone belongs to the function of the inbound task. -/
def TxInv (v : View) : Prop :=
  ∀ id, (v.mem.recvs.cell id).txHeld = true → ∃ t, v.tasks[0]? = some t ∧ t.tx = some id

theorem TxInv.moves (hinv : TxInv v) (hown : ∀ id, RecvOwner (v.recvDirection cfg id)
    (recvRoles id v.tasks)) (hm : Moves cfg v who v') : TxInv v' := by
  intro id hid
  -- the function of the inbound task is replaced by one that keeps its clone
  have hset : ∀ {i : Nat} {t t' : Task}, v.tasks[i]? = some t →
      (t.tx = some id → t'.tx = some id) → (v.mem.recvs.cell id).txHeld = true →
      ∃ u, (v.tasks.set i t')[0]? = some u ∧ u.tx = some id := by
    intro i t t' hi ht h
    obtain ⟨u, hu, htx⟩ := hinv id h
    by_cases h0 : i = 0
    · subst h0
      rw [hu] at hi
      cases hi
      refine ⟨t', ?_, ht htx⟩
      rw [List.getElem?_set_self (List.getElem?_eq_some_iff.1 hu).1]
    · exact ⟨u, by rw [List.getElem?_set_ne h0]; exact hu, htx⟩
  have hnone : ∀ {t t' : Task}, t.tx = none → t.tx = some id → t'.tx = some id := by
    intro t t' h h'
    rw [h] at h'
    cases h'
  cases hm with
  | @next i t t' a hi hn =>
      rcases Memory.txHeld_apply hid with ⟨h, hne⟩ | ⟨n, rfl⟩
      · exact hset hi (fun ht => Task.tx_next hn ht hne) h
      · obtain ⟨⟨data, fin, rfl⟩, htx⟩ := Task.receive_next hn
        have hrole : (recvRoles id v.tasks)[i]? = some (.arriving ⟨data, fin⟩) := by
          simp [recvRoles, hi, Task.recvRole, RecvRole.on]
        have h0 : i = 0 := (hown id).arrives_first i _ hrole rfl
        subst h0
        exact ⟨t', by rw [List.getElem?_set_self (List.getElem?_eq_some_iff.1 hi).1], htx⟩
  | cancel hi hc => exact hset hi (hnone (Task.tx_cancelled hc)) hid
  | timeout hi hc => exact hset hi (hnone (Task.tx_timedOut hc)) hid
  | abort hi ha => exact hset hi (Task.tx_aborted ha) hid
  | turn hi ht => exact hset hi (hnone (by cases ht <;> rfl)) hid
  | exit hi => exact hset hi (hnone rfl) hid
  | spawn hc =>
      rcases Memory.txHeld_apply hid with ⟨h, -⟩ | ⟨n, rfl⟩
      · obtain ⟨t, ht, htx⟩ := hinv id h
        exact ⟨t, (List.getElem?_append_left (List.getElem?_eq_some_iff.1 ht).1).trans ht, htx⟩
      · exact absurd rfl (Call.start_ne_receive hc)
  | loop ha hb =>
      rcases Memory.txHeld_apply hid with ⟨h, -⟩ | ⟨n, rfl⟩
      · exact hinv id h
      · cases ha

/-- **A clone of an event sender** exists only while the inbound task is in `handle_frame`. -/
theorem txHeld_of_reachable {ok : Session → Label → Prop} {s : Session}
    (hr : Reachable (Session.step cfg) ok {} s) : TxInv s.view := by
  induction hr with
  | init =>
      intro id h
      cases h
  | step hr _ hs ih => exact ih.moves (recvsInv_of_reachable hr).owner (Session.moves_of_step hs)

end WebsockMux.Native
