import WebsockMux.Native.Emission
import WebsockMux.Native.Handling
import WebsockMux.Native.Window

/-!
# Announced limits

The limit of a receive stream is announced to the peer by `MaxStreamData` frames. Every one that the
outbound task has taken, from the queue or from `pending_credit`, is at most the limit in force
(`announced_le`). At the other end, the limit of a send flow is zero or that of a `MaxStreamData`
frame that was handled (`maxData_handled`).
-/

set_option autoImplicit false

namespace WebsockMux.Native

open WebsockMux.Lib WebsockMux.Proto

variable {cfg : Config} {m : Memory} {s s' : Session} {l : Label} {id : StreamId} {n : Nat}
  {ok : Session → Label → Prop}

/-! ## Credits that are taken -/

/-- A credit that was taken stays in the history. -/
theorem RecvDirection.PoolStep.credits {d d' : RecvDirection} {rs rs' : List RecvRole}
    {l : Limits} {dead blocked : Prop} (hown : RecvOwner d rs)
    (hs : d.PoolStep l rs dead blocked d' rs') (h : n ∈ d.cell.credits) :
    n ∈ d'.cell.credits := by
  -- before its registration, nothing is known of the stream
  have hfresh : ∀ {i : Nat}, rs[i]? = some .token → n ∉ d.cell.credits := by
    intro i hi
    rw [(hown.unregistered (hown.unregistered_of_token hi)).1]
    exact List.not_mem_nil
  cases hs with
  | act hi hs =>
      cases hs with
      | register ho => exact absurd h (hfresh hi)
      | registerPeer => exact absurd h (hfresh hi)
      | _ => exact h
  | borrow hr he hh hone => rcases he with rfl | rfl <;> exact h
  | takeCredit hp => exact List.mem_append_left _ h
  | _ => exact h

/-- What was taken is in the history of the queue or of `pending_credit`. -/
structure Announced (s : Session) : Prop where
  queued : ∀ f, .frame f ∈ s.mem.chan.queue → f ∈ s.mem.chan.admitted
  taken : ∀ id n, .maxStreamData id n ∈ s.out.taken →
    .maxStreamData id n ∈ s.mem.chan.admitted ∨ n ∈ (s.mem.recvs.cell id).credits

theorem Announced.step (h : Announced s)
    (hkeep : ∀ id n, n ∈ (s.mem.recvs.cell id).credits → n ∈ (s'.mem.recvs.cell id).credits)
    (hs : s.step cfg l = some s') : Announced s' := by
  obtain ⟨a, -, hm, ht⟩ := takes_of_step hs
  have hadm : ∀ f ∈ s.mem.chan.admitted, f ∈ s'.mem.chan.admitted := by
    intro f hf
    rw [hm, Memory.admitted_apply]
    exact List.mem_append_left _ hf
  have hold : ∀ id n, .maxStreamData id n ∈ s.out.taken →
      .maxStreamData id n ∈ s'.mem.chan.admitted ∨ n ∈ (s'.mem.recvs.cell id).credits := by
    intro id n hn
    exact (h.taken id n hn).imp (hadm _) (hkeep id n)
  generalize ho : s'.out = o' at ht
  cases ht with
  | nothing ha hk =>
      refine ⟨fun f hf => ?_, fun id n hn => ?_⟩
      · rw [hm, Memory.queue_apply _ ha] at hf
        rcases List.mem_append.1 hf with hf | hf
        · exact hadm f (h.queued f hf)
        · have hcmd := Access.command?_frame a s.mem
          rw [Option.mem_toList.1 hf] at hcmd
          rw [hm, Memory.admitted_apply, ← hcmd]
          exact List.mem_append_right _ (List.mem_singleton.2 rfl)
      · rw [ho, hk.taken] at hn
        exact hold id n hn
  | @command c rest hp hq =>
      refine ⟨fun f hf => ?_, fun id n hn => ?_⟩
      · refine hadm f (h.queued f ?_)
        rw [hm] at hf
        exact List.mem_of_mem_tail hf
      · rw [ho] at hn
        have hnote : .maxStreamData id n ∈ s.out.taken ∨ c = .frame (.maxStreamData id n) := by
          cases c with
          | frame f =>
              simp only [Outbound.note] at hn
              split_ifs at hn
              · exact .inl hn
              · rcases List.mem_append.1 hn with hn | hn
                · exact .inl hn
                · rw [List.mem_singleton.1 hn]
                  exact .inr rfl
          | _ => exact .inl hn
        rcases hnote with hn | rfl
        · exact hold id n hn
        · exact .inl (hadm _ (h.queued _ (hq ▸ List.mem_cons_self)))
  | @credit i hp hc hi =>
      refine ⟨fun f hf => ?_, fun id n hn => ?_⟩
      · rw [hm] at hf
        exact hadm f (h.queued f hf)
      · rw [ho] at hn
        rcases List.mem_append.1 hn with hn | hn
        · exact hold id n hn
        · cases List.mem_singleton.1 hn
          refine .inr ?_
          rw [hm]
          simp [Memory.apply, RecvTable.apply, RecvTable.modify]
  | leave hp =>
      refine ⟨fun f hf => ?_, fun id n hn => ?_⟩
      · rw [hm] at hf
        cases hf
      · rw [ho] at hn
        exact hold id n hn

/-- **What was taken, in every run.** -/
theorem announced_of_reachable (hr : Reachable (Session.step cfg) ok {} s) : Announced s := by
  refine hr.invariant (I := Announced) ⟨fun _ h => ?_, fun _ _ h => ?_⟩ ?_
  · cases h
  · cases h
  · intro s l s' hr h hok hs
    refine h.step (fun id n hn => ?_) hs
    exact (recvPoolStep_of_step hr hok hs id).credits ((recvsInv_of_reachable hr).owner id) hn

/-- **No announced limit is above the limit in force.** -/
theorem announced_le (hl : cfg.limits.Valid) (hr : Reachable (Session.step cfg) ok {} s)
    (h : .maxStreamData id n ∈ s.out.taken) : n ≤ (s.mem.recvs.cell id).maxData := by
  have hwin := recvWindow_of_reachable hl.window_le hr id
  rcases (announced_of_reachable hr).taken id n h with ha | hc
  · refine hwin.log n (List.mem_filterMap.2 ⟨_, ha, ?_⟩)
    exact if_pos rfl
  · exact hwin.credits n hc

/-! ## Limits that are handled -/

/-- Only `update_max` raises the limit of a flow. -/
theorem Memory.maxData_apply (m : Memory) (a : Access) (id : StreamId) :
    ((m.apply a).sends.cell id).maxData = (m.sends.cell id).maxData ∨
      ((m.apply a).sends.cell id).maxData = 0 ∨
      ∃ n, a = .send (.updateMax id n) ∧ ((m.apply a).sends.cell id).maxData = n := by
  cases a with
  | send b =>
      cases b with
      | register i =>
          by_cases hi : id = i
          · subst hi
            exact .inr (.inl (by simp [Memory.apply, SendTable.apply, SendTable.registerSendFlow]))
          · exact .inl (by simp [Memory.apply, SendTable.apply, SendTable.registerSendFlow, hi])
      | clear => exact .inl rfl
      | updateMax i n =>
          by_cases hi : id = i
          · subst hi
            simp only [Memory.apply, SendTable.apply, SendTable.updateMax, SendTable.modify,
              Function.update_self]
            split_ifs
            · exact .inr (.inr ⟨n, rfl, rfl⟩)
            · exact .inl rfl
          · exact .inl (by
              simp [Memory.apply, SendTable.apply, SendTable.updateMax, SendTable.modify, hi])
      | _ =>
          refine .inl ?_
          simp only [Memory.apply, SendTable.apply, SendTable.removeSendFlow, SendTable.modify,
            Function.update_apply]
          split_ifs with hi
          · subst hi
            rfl
          · rfl
  | session clone => cases clone <;> exact .inl rfl
  | _ => exact .inl rfl

/-- Only the handler of `MaxStreamData` calls `update_max`. -/
theorem Task.updateMax_next {t t' : Task} (hn : t.next cfg m = some (.send (.updateMax id n), t')) :
    t = .updateMax id n := by
  generalize ha : Access.send (.updateMax id n) = a at hn
  replace hn := Task.steps_of_next hn
  induction hn with
  | updateMax i k =>
      cases ha
      rfl
  | closeAll c k => cases c <;> cases ha
  | _ => cases ha

theorem Call.start_ne_send {c : Call} {u : Use} {t : Task} {b : SendAccess}
    (h : c.start m = some (u, .send b, t)) : False := by
  cases Call.starts_of_start h

/-- The handled frames are kept. -/
theorem Moves.handled_isPrefix {v v' : View} {who : Option Nat} (h : Moves cfg v who v') :
    v.handled <+: v'.handled := by
  cases h with
  | turn hi ht =>
      cases ht with
      | frame hl hf => exact List.prefix_append _ _
      | _ => exact List.prefix_rfl
  | _ => exact List.prefix_rfl

/-- `update_max` is called for a frame that was handled. -/
theorem handled_of_updateMax (hr : Reachable (Session.step cfg) ok {} s)
    (ht : .updateMax id n ∈ s.tasks) : .maxStreamData id n ∈ s.inb.handled := by
  rcases handling_of_inHandle hr ht rfl with hf | ⟨f, hmem, hh⟩
  · cases hf
  · cases hh
    exact hmem

/-- A step raises the limit of a flow only by a call of `update_max`. -/
theorem Moves.maxData {v v' : View} {who : Option Nat} (h : Moves cfg v who v') (id : StreamId) :
    (v'.mem.sends.cell id).maxData = (v.mem.sends.cell id).maxData ∨
      (v'.mem.sends.cell id).maxData = 0 ∨
      ∃ n, .updateMax id n ∈ v.tasks ∧ (v'.mem.sends.cell id).maxData = n := by
  -- an access that is not that of `update_max`
  have hother : ∀ a, (∀ n, a ≠ .send (.updateMax id n)) →
      ((v.mem.apply a).sends.cell id).maxData = (v.mem.sends.cell id).maxData ∨
        ((v.mem.apply a).sends.cell id).maxData = 0 ∨
        ∃ n, .updateMax id n ∈ v.tasks ∧ ((v.mem.apply a).sends.cell id).maxData = n := by
    intro a ha
    rcases Memory.maxData_apply v.mem a id with heq | heq | ⟨n, han, -⟩
    · exact .inl heq
    · exact .inr (.inl heq)
    · exact absurd han (ha n)
  cases h with
  | @next i t t' a hi hn =>
      rcases Memory.maxData_apply v.mem a id with heq | heq | ⟨n, rfl, heq⟩
      · exact .inl heq
      · exact .inr (.inl heq)
      · rw [Task.updateMax_next hn] at hi
        exact .inr (.inr ⟨n, List.mem_of_getElem? hi, heq⟩)
  | exit hi => exact hother _ nofun
  | spawn hc =>
      refine hother _ fun n han => ?_
      exact Call.start_ne_send (han ▸ hc)
  | loop ha hb =>
      refine hother _ fun n han => ?_
      subst han
      cases ha
  | _ => exact .inl rfl

/-- **The limit of a flow was announced by the peer.** -/
theorem maxData_handled (hr : Reachable (Session.step cfg) ok {} s) (id : StreamId) :
    (s.mem.sends.cell id).maxData = 0 ∨
      .maxStreamData id (s.mem.sends.cell id).maxData ∈ s.inb.handled := by
  refine hr.invariant (I := fun s => (s.mem.sends.cell id).maxData = 0 ∨
    .maxStreamData id (s.mem.sends.cell id).maxData ∈ s.inb.handled) (.inl rfl) ?_
  intro s l s' hr h _ hs
  have hm := Session.moves_of_step hs
  have hgrows : ∀ f ∈ s.inb.handled, f ∈ s'.inb.handled := fun f hf => hm.handled_isPrefix.subset hf
  rcases hm.maxData id with heq | heq | ⟨n, ht, heq⟩
  · rw [show (s'.mem.sends.cell id).maxData = _ from heq]
    exact h.imp_right (hgrows _)
  · exact .inl heq
  · rw [show (s'.mem.sends.cell id).maxData = n from heq]
    exact .inr (hgrows _ (handled_of_updateMax hr ht))

end WebsockMux.Native
