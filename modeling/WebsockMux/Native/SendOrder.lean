import WebsockMux.Native.Admission
import WebsockMux.Native.SendInvariant

/-!
# The order of the frames of a send direction

Two consequences of the invariant of send directions for the outbound queue. No `Stream` frame of a
stream follows its `ResetStream` (`no_stream_after_reset`). A FIN is the last `Stream` frame in runs
in which no `AsyncWrite` call publishes while another clone's `poll_shutdown` stands between its FIN
and the removal of the flow (`fin_is_final`); without that condition a data frame can follow the FIN
(`stream_after_fin`).
-/

set_option autoImplicit false

namespace WebsockMux.Native

open WebsockMux.Lib WebsockMux.Proto

variable {cfg : Config} {m : Memory} {id : StreamId}

theorem sendItem_eq_stream {f : Frame} {data : List UInt8} {fin : Bool} :
    sendItem id f = some (.stream data fin) ↔ f = .stream id data fin := by
  cases f with
  | stream i bytes b =>
      simp only [sendItem]
      split_ifs with hi
      · subst hi
        simp
      · simp [hi]
  | resetStream i code =>
      simp only [sendItem]
      split_ifs <;> simp
  | _ => simp [sendItem]

theorem sendItem_reset (id : StreamId) (code : Nat) :
    sendItem id (.resetStream id code) = some .reset := if_pos rfl

/-! ## Nothing follows a reset -/

/-- **No data after a reset.** In the order of the outbound queue, no `Stream` frame of a stream
follows a `ResetStream` frame of the same stream: for every interleaving of every run. -/
theorem no_stream_after_reset {s : Session} (hr : Reachable (Session.step cfg) anyStep {} s)
    (id : StreamId) :
    s.mem.chan.admitted.Pairwise fun f g =>
      (∃ code, f = .resetStream id code) → ∀ data fin, g ≠ .stream id data fin := by
  have hlast := ((sendsInv_of_reachable hr).send id).reset_last
  refine (List.pairwise_filterMap.1 hlast).imp ?_
  rintro f g hfg ⟨code, rfl⟩ data fin rfl
  have := hfg _ (sendItem_reset id code) _ (sendItem_eq_stream.2 rfl) rfl
  cases this

/-- A client opens a stream, is granted five bytes, writes one and resets the stream. -/
theorem no_stream_after_reset_run :
    ∃ s, Reachable (Session.step ⟨false, {}⟩) anyStep {} s ∧
      s.mem.chan.admitted = [.openUni ⟨2⟩, .stream ⟨2⟩ [7] false, .resetStream ⟨2⟩ 9] ∧
      s.mem.chan.admitted.Pairwise fun f g =>
        (∃ code, f = .resetStream ⟨2⟩ code) → ∀ data fin, g ≠ .stream ⟨2⟩ data fin := by
  obtain ⟨s, hr, hs⟩ : ∃ s, Reachable (Session.step ⟨false, {}⟩) anyStep {} s ∧
      s.mem.chan.admitted = [.openUni ⟨2⟩, .stream ⟨2⟩ [7] false, .resetStream ⟨2⟩ 9] :=
    Reachable.exists_of_run (List.flatten [[.call .openUni], List.replicate 7 (.op 0),
      [.receive (.binary [6, 2, 5])], List.replicate 3 .inbound, [.call (.write 0 [7])],
      List.replicate 14 (.op 1), [.call (.reset 0 9)], List.replicate 8 (.op 2)]) (by decide +kernel)
  exact ⟨s, hr, hs, no_stream_after_reset hr ⟨2⟩⟩

/-! ## A FIN is final -/

/-- The stream for which `poll_write` or `poll_shutdown` is about to put a frame into the queue. -/
def Task.asyncPublish : Task → Option StreamId
  | .pollPublish c => some c.id
  | .shutdownPublish _ id => some id
  | _ => none

/-- The stream whose FIN `poll_shutdown` has put into the queue and whose flow it has still to
remove. -/
def Task.finQueued : Task → Option StreamId
  | .shutdownStore _ id => some id
  | .shutdownRemove _ id => some id
  | _ => none

/-- A step that is not the publication of an `AsyncWrite` call between the FIN of another clone's
`poll_shutdown` and the removal of the flow. -/
def publishesBeforeFin (s : Session) (l : Label) : Prop :=
  ∀ t ∈ s.acting l, ∀ id ∈ t.asyncPublish, ∀ t' ∈ s.tasks, id ∉ t'.finQueued

instance (s : Session) (l : Label) : Decidable (publishesBeforeFin s l) := by
  unfold publishesBeforeFin
  infer_instance

theorem SendRole.on_ne {i : StreamId} {r q : SendRole} (hr : r ≠ q) (hq : q ≠ .none) :
    SendRole.on i id r ≠ q := by
  unfold SendRole.on
  split_ifs
  · exact hr
  · exact hq.symm

theorem Ret.sendRole_ne {k : Ret} {q : SendRole} (hq : q.light = false) : k.sendRole id ≠ q := by
  intro h
  have hl : (k.sendRole id).light = true := k.sendRole_light
  rw [h, hq] at hl
  cases hl

theorem SendSite.sendRole_ne_shutting (s : SendSite) : s.sendRole id ≠ .shutting := by
  cases s with
  | stop i code => nofun
  | inboundCredit i bi =>
      cases bi with
      | false => nofun
      | true => exact SendRole.on_ne nofun nofun
  | _ => exact SendRole.on_ne nofun nofun

theorem TrySite.sendRole_ne_shutting (s : TrySite) (k : Ret) : s.sendRole id k ≠ .shutting := by
  cases s with
  | dropSend h i =>
      simp only [TrySite.sendRole]
      split_ifs
      · nofun
      · exact Ret.sendRole_ne rfl
  | _ => exact Ret.sendRole_ne rfl

theorem Check.sendRole_ne_shutting (c : Check) : c.sendRole id ≠ .shutting := by
  cases c with
  | send s => exact s.sendRole_ne_shutting
  | trySend s k => exact s.sendRole_ne_shutting k
  | dropSend h i k =>
      simp only [Check.sendRole]
      split_ifs
      · nofun
      · exact Ret.sendRole_ne rfl
  | _ => exact SendRole.on_ne nofun nofun

/-- Only `poll_shutdown` has queued a FIN without the guard. -/
theorem Task.finQueued_of_shutting {t : Task} (h : t.sendRole id = .shutting) :
    id ∈ t.finQueued := by
  have heq : ∀ {i : StreamId}, SendRole.on i id .shutting = .shutting → i = id := by
    intro i hi
    unfold SendRole.on at hi
    split_ifs at hi with hid
    exact hid
  cases t with
  | shutdownStore x i => exact congrArg some (heq h)
  | shutdownRemove x i => exact congrArg some (heq h)
  | anyOf flags c => exact absurd h c.sendRole_ne_shutting
  | reserve s => exact absurd h s.sendRole_ne_shutting
  | publish s => exact absurd h s.sendRole_ne_shutting
  | trySend s k => exact absurd h (s.sendRole_ne_shutting k)
  | swapOperation c =>
      refine absurd h (SendRole.on_ne (fun hc => ?_) nofun)
      have hb := c.sendRole_bare
      rw [hc] at hb
      cases hb
  | dropSend x i k =>
      simp only [Task.sendRole] at h
      split_ifs at h
      exact absurd h (Ret.sendRole_ne rfl)
  | dropSendRemove x i k =>
      simp only [Task.sendRole] at h
      split_ifs at h
      exact absurd h (Ret.sendRole_ne rfl)
  | tryRegister i bi =>
      simp only [Task.sendRole] at h
      split_ifs at h
      exact absurd h (SendRole.on_ne nofun nofun)
  | acceptLock i x =>
      cases x with
      | none => cases h
      | some x => exact absurd h (SendRole.on_ne nofun nofun)
  | acceptSend i x =>
      cases x with
      | none => cases h
      | some x => exact absurd h (SendRole.on_ne nofun nofun)
  | _ =>
      first
        | cases h; done
        | exact absurd h (SendRole.on_ne nofun nofun)
        | exact absurd h (Ret.sendRole_ne rfl)

/-- The event of a frame in the send direction. -/
theorem Access.frame?_of_item {a : Access} {x : SendItem}
    (ha : a.sendEvent cfg m id = .item x) : ∃ f, a.frame? = some f ∧ sendItem id f = some x := by
  have hframe : ∀ {f : Frame}, frameEvent id f = .item x → sendItem id f = some x := by
    intro f hf
    unfold frameEvent at hf
    split at hf
    · rename_i y hy
      cases hf
      exact hy
    · cases hf
  have hon : ∀ {i : StreamId} {e : SendEvent}, e ≠ .item x → SendEvent.on i id e ≠ .item x := by
    intro i e he
    unfold SendEvent.on
    split_ifs
    · exact he
    · nofun
  cases a with
  | chan b =>
      cases b with
      | publish f => exact ⟨f, rfl, hframe ha⟩
      | trySend f => exact ⟨f, rfl, hframe ha⟩
      | _ => cases ha
  | handle b =>
      cases b with
      | sendData h f => exact ⟨f, rfl, hframe ha⟩
      | sendFin h f => exact ⟨f, rfl, hframe ha⟩
      | new i held => exact absurd ha (hon nofun)
      | _ => cases ha
  | send b =>
      cases b with
      | clear => cases ha
      | _ => exact absurd ha (hon nofun)
  | accept b =>
      cases b with
      | push i h =>
          cases h with
          | none => cases ha
          | some h => exact absurd ha (hon nofun)
      | _ => cases ha
  | flag b => cases b <;> cases ha
  | _ => cases ha

/-- A `Stream` frame of an `AsyncWrite` call is published by `poll_write` or `poll_shutdown`. -/
theorem Task.asyncPublish_of_item {t : Task} {f : Frame} {x : SendItem} (hwf : t.WF cfg)
    (hf : Task.Admits cfg t f) (hx : sendItem id f = some x) (hs : x.isStream = true)
    (hm : (t.sendRole id).mode = 2) : id ∈ t.asyncPublish := by
  obtain ⟨data, fin, rfl⟩ : ∃ data fin, x = .stream data fin := by
    cases x with
    | stream data fin => exact ⟨data, fin, rfl⟩
    | reset => cases hs
  have hfid := sendItem_eq_stream.1 hx
  cases hf with
  | pollWrite c =>
      cases hfid
      rfl
  | pollShutdown x i =>
      cases hfid
      rfl
  | trySend s k => cases s <;> cases hfid
  | publish s =>
      cases s with
      | write c =>
          -- `send_frame` publishes for the direct API only
          have hd : c.direct = true := hwf
          cases hfid
          simp [Task.sendRole, SendSite.sendRole, SendRole.on, SendRole.mode, Writer.mode, hd] at hm
      | finish i =>
          cases hfid
          simp [Task.sendRole, SendSite.sendRole, SendRole.on, SendRole.mode] at hm
      | _ => cases hfid

/-- **FIN is final.** In a run in which no `AsyncWrite` call publishes between the FIN of another
clone's `poll_shutdown` and the removal of the flow, no `Stream` frame follows a FIN of its stream
in the outbound queue. -/
theorem fin_is_final {s : Session} (hr : Reachable (Session.step cfg) publishesBeforeFin {} s)
    (id : StreamId) :
    s.mem.chan.admitted.Pairwise fun f g =>
      (∃ data, f = .stream id data true) → ∀ data fin, g ≠ .stream id data fin := by
  have hlast : SendInv.FinLast (s.mem.sendDirection cfg id) := by
    induction hr with
    | init => exact List.Pairwise.nil
    | @step s s' l hr hok hs ih =>
        have hinv := sendsInv_of_reachable hr
        rcases (Session.moves_of_step hs).admitted with
          hadm | ⟨i, t, t', a, f, hwho, hi, hn, hf, hv, -⟩
        · show (s'.mem.chan.admitted.filterMap (sendItem id)).Pairwise _
          rw [show s'.mem.chan.admitted = s.mem.chan.admitted from hadm]
          exact ih
        · have hwf := hinv.wf t (List.mem_of_getElem? hi)
          have hact : t ∈ s.acting l := Session.acting_eq hwho hi
          have hrole : (sendRoles id s.tasks)[i]? = some (t.sendRole id) := by
            rw [sendRoles, List.getElem?_map, show s.tasks[i]? = some t from hi]
            rfl
          rw [show s'.mem = s.mem.apply a from congrArg View.mem hv, Memory.sendDirection_apply cfg id s.mem
            (fun b hb => Task.advances_next hwf (hb ▸ hn))]
          refine (hinv.send id).finLast_step ih hrole (Task.sendStep hwf hinv.shared hn) ?_
          intro x hx hxs hmode hmem
          -- the publisher is an `AsyncWrite` call, and another `poll_shutdown` has queued its FIN
          obtain ⟨g, hg, hgx⟩ := Access.frame?_of_item hx
          obtain ⟨t₁, ht₁, hrole₁⟩ := List.mem_map.1 hmem
          exact hok t hact id (Task.asyncPublish_of_item hwf (Task.admits hn hg) hgx hxs hmode) t₁
            ht₁ (Task.finQueued_of_shutting hrole₁)
  refine (List.pairwise_filterMap.1 hlast).imp ?_
  rintro f g hfg ⟨data, rfl⟩ data' fin rfl
  have := hfg _ (sendItem_eq_stream.2 rfl) _ (sendItem_eq_stream.2 rfl) rfl
  cases this

/-- A stream is opened, written through `poll_write` and shut down through `poll_shutdown` of the
same handle. -/
theorem fin_is_final_run :
    ∃ s, Reachable (Session.step ⟨false, {}⟩) publishesBeforeFin {} s ∧
      s.mem.chan.admitted = [.openUni ⟨2⟩, .stream ⟨2⟩ [7] false, .stream ⟨2⟩ [] true] ∧
      s.mem.chan.admitted.Pairwise fun f g =>
        (∃ data, f = .stream ⟨2⟩ data true) → ∀ data fin, g ≠ .stream ⟨2⟩ data fin := by
  obtain ⟨s, hr, hs⟩ : ∃ s, Reachable (Session.step ⟨false, {}⟩) publishesBeforeFin {} s ∧
      s.mem.chan.admitted = [.openUni ⟨2⟩, .stream ⟨2⟩ [7] false, .stream ⟨2⟩ [] true] :=
    Reachable.exists_of_run (List.flatten [[.call .openUni], List.replicate 7 (.op 0),
      [.receive (.binary [6, 2, 5])], List.replicate 3 .inbound, [.call (.pollWrite 0 [7])],
      List.replicate 13 (.op 1), [.call (.pollShutdown 0)], List.replicate 8 (.op 2)])
      (by decide +kernel)
  exact ⟨s, hr, hs, fin_is_final hr ⟨2⟩⟩

/-- **A data frame can follow the FIN.** One clone's `poll_write` has reserved its slot; another
clone's `poll_shutdown` queues the FIN; before it removes the flow, the first clone finds the flow
in the table and queues its data. -/
theorem stream_after_fin :
    ∃ s, Reachable (Session.step ⟨false, {}⟩) anyStep {} s ∧
      s.mem.chan.admitted = [.openUni ⟨2⟩, .stream ⟨2⟩ [] true, .stream ⟨2⟩ [7] false] :=
  Reachable.exists_of_run (List.flatten [[.call .openUni], List.replicate 7 (.op 0),
    [.receive (.binary [6, 2, 5])], List.replicate 3 .inbound,
    [.call (.cloneSend 0), .call (.pollWrite 0 [7]), .call (.pollShutdown 1)],
    List.replicate 11 (.op 2), List.replicate 8 (.op 3), [.op 2]]) (by decide +kernel)

end WebsockMux.Native
