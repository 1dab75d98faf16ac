import WebsockMux.Lib.Pool
import WebsockMux.Native.Moves
import WebsockMux.Proto.Decoded

/-!
# Well-formed control points

What every control point of a run satisfies, whatever the other functions do (`Task.WF`). Every
move keeps it (`Moves.wf`).
-/

set_option autoImplicit false

namespace WebsockMux.Native

open WebsockMux.Lib WebsockMux.Proto

/-- The calls that take the guard. -/
def SendCall.guarded : SendCall → Bool
  | .pollFlush _ _ => false
  | .pollShutdown _ _ => false
  | _ => true

/-- `send_frame` publishes only the chunks of `write_buf`. -/
def SendSite.WF : SendSite → Prop
  | .write c => c.direct = true
  | _ => True

def Check.WF : Check → Prop
  | .send s => s.WF
  | _ => True

/-- What the control points of a run satisfy: a peer's identifier was checked, the limit of a
`compare_exchange` lies above the value it replaces, and a call selects an API or takes the guard
only if it has one to select or to take. -/
def Task.WF (cfg : Config) : Task → Prop
  | .anyOf _ c => c.WF
  | .reserve s => s.WF
  | .publish s => s.WF
  | .validatePeer id bi =>
      id.initiatorIsServer ≠ cfg.isServer ∧ id.dir = (if bi then .bi else .uni) ∧
        id.val ≤ VarInt.max
  | .casSent _ sent max => sent < max
  | .selectApi c => c.mode ≠ 0
  | .swapOperation c => c.guarded = true
  | _ => True

section WellFormed

variable {cfg : Config} {m : Memory}

theorem Ret.wf_resume (k : Ret) : k.resume.WF cfg := by
  cases k <;> trivial

theorem wf_writeLoop (w : Writer) : (writeLoop cfg w).WF cfg := by
  unfold writeLoop
  split_ifs <;> trivial

theorem SendSite.wf_resume (s : SendSite) (ok : Bool) : (s.resume cfg ok).WF cfg := by
  cases s with
  | write c =>
      cases ok with
      | false => trivial
      | true => exact wf_writeLoop _
  | inboundCredit i bi => cases bi <;> cases ok <;> trivial
  | _ => cases ok <;> trivial

theorem TrySite.wf_resume (k : Ret) (s : TrySite) (ok : Bool) : (s.resume k ok).WF cfg := by
  cases s <;> cases ok <;> trivial

theorem wf_outOfCredit (w : Writer) : (outOfCredit w).WF cfg := by
  unfold outOfCredit
  split_ifs <;> trivial

theorem Check.wf_resume {c : Check} (hc : c.WF) (b : Bool) : (c.resume cfg b).WF cfg := by
  cases c with
  | send s =>
      cases b with
      | false => exact hc
      | true => exact s.wf_resume _
  | trySend s k =>
      cases b with
      | false => trivial
      | true => exact s.wf_resume k _
  | writeStart w =>
      cases b with
      | false => exact wf_writeLoop w
      | true => trivial
  | reserveOpen w =>
      cases b with
      | false => trivial
      | true => exact wf_outOfCredit w
  | noCredit w =>
      cases b with
      | false =>
          simp only [Check.resume]
          split_ifs <;> trivial
      | true => trivial
  | _ => cases b <;> trivial

theorem SendCall.wf_body (c : SendCall) : c.body.WF cfg := by
  cases c with
  | write w =>
      simp only [SendCall.body]
      split_ifs <;> trivial
  | reset i code =>
      simp only [SendCall.body]
      split_ifs <;> trivial
  | _ => trivial

theorem Task.wf_next {t t' : Task} {a : Access} (hwf : t.WF cfg)
    (h : t.next cfg m = some (a, t')) : t'.WF cfg := by
  replace h := Task.steps_of_next h
  induction h with
  | anyOfNil c | anyOfSet f fs c | anyOfLast f c => exact Check.wf_resume hwf _
  | anyOf | reserve => exact hwf
  | reserveClosed s | publish s | unpublished s => exact s.wf_resume _
  | trySend s k | trySendFull s k => exact s.wf_resume k _
  | closeAll c k =>
      cases c with
      | closeFlows => exact k.wf_resume
      | _ => trivial
  | selectApi c | selectApiSame c =>
      cases c with
      | reset i code => exact absurd rfl hwf
      | pollFlush x i => trivial
      | pollShutdown x i => trivial
      | _ => rfl
  | swapOperation c => exact c.wf_body
  | outOfCredit w => exact wf_outOfCredit w
  | loadMax w sent hle => exact Nat.lt_of_not_le hle
  | casSent w sent max =>
      unfold granted
      split_ifs with hd
      · exact hd
      · trivial
  | cancel k | closeAllAgain k | releaseHandle _ k | closeReceiver _ k | dropTx _ k =>
      exact k.wf_resume
  | acceptLockGone | acceptClosed => exact Ret.wf_resume _
  | _ => trivial

theorem Task.wf_cancelled {t t' : Task} (h : t.cancelled = some t') : t'.WF cfg := by
  cases t with
  | reserve s => cases s <;> cases h <;> trivial
  | _ => cases h <;> trivial

theorem Task.wf_aborted {t t' : Task} (h : t.aborted = some t') : t'.WF cfg := by
  cases t with
  | reserve s => cases s <;> cases h <;> trivial
  | acceptLock i x =>
      cases h
      exact Ret.wf_resume _
  | closeAll c k => cases c <;> cases h <;> exact k.wf_resume
  | _ => cases h

theorem Task.wf_timedOut {t t' : Task} (h : t.timedOut = some t') : t'.WF cfg := by
  cases t <;> cases h <;> trivial

/-- The identifier of a decoded frame fits in a varint. -/
theorem Decodable.id_le {f : Frame} {i : StreamId} (h : Decodable f) (hi : i.val ∈ f.varints) :
    i.val ≤ VarInt.max := by
  obtain ⟨b, rest, hd⟩ := h
  have := Frame.encodable_of_decode hd _ hi
  unfold VarInt.max
  omega

theorem wf_handleFrame {f : Frame} (hf : Decodable f) : (handleFrame cfg f).WF cfg := by
  cases f with
  | openUni i =>
      simp only [handleFrame]
      split_ifs with hd hs
      · trivial
      · trivial
      · exact ⟨hs, of_not_not hd, hf.id_le (by simp [Frame.varints])⟩
  | openBi i =>
      simp only [handleFrame]
      split_ifs with hd hs
      · trivial
      · trivial
      · exact ⟨hs, of_not_not hd, hf.id_le (by simp [Frame.varints])⟩
  | stream i data fin =>
      simp only [handleFrame]
      split_ifs <;> trivial
  | _ => trivial

theorem Turn.wf {v : View} {t t' : Task} {fs : List Frame} {b : Bool}
    (h : Turn cfg v t t' fs b) : t'.WF cfg := by
  cases h with
  | frame hl hf => exact wf_handleFrame hf
  | _ => trivial

theorem Call.wf_start {c : Call} {u : Use} {a : Access} {t : Task}
    (h : c.start m = some (u, a, t)) : t.WF cfg := by
  cases Call.starts_of_start h <;> first | trivial | exact Nat.succ_ne_zero _

/-- **The control points of a run are well-formed.** -/
theorem Moves.wf {v v' : View} {who : Option Nat} (h : Moves cfg v who v')
    (hwf : ∀ t ∈ v.tasks, t.WF cfg) : ∀ t ∈ v'.tasks, t.WF cfg := by
  cases h with
  | next hi hn => exact forall_mem_set hwf (Task.wf_next (hwf _ (List.mem_of_getElem? hi)) hn)
  | cancel hi hc => exact forall_mem_set hwf (Task.wf_cancelled hc)
  | timeout hi hc => exact forall_mem_set hwf (Task.wf_timedOut hc)
  | abort hi ha => exact forall_mem_set hwf (Task.wf_aborted ha)
  | turn hi ht => exact forall_mem_set hwf ht.wf
  | exit hi => exact forall_mem_set hwf trivial
  | spawn hc => exact forall_mem_concat hwf (Call.wf_start hc)
  | loop ha hb => exact hwf

end WellFormed

end WebsockMux.Native
