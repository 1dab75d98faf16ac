import WebsockMux.Native.Announced
import WebsockMux.Native.BatchLimits

/-!
# What a session enqueues can be encoded

The fields of a frame are raw `u64`s, wrapped without a check when the frame is encoded. That they
are in the range of a varint is an invariant of the session: an identifier comes from
`StreamId::new` or from a decoded frame, `reset` and `stop` check their codes, a code that is echoed
was decoded, and a limit is at most the largest varint. `Task.Fits` says it of the functions in
progress, `Memory.Fits` of the tables, the handles and the queue (`fits_of_reachable`).
-/

set_option autoImplicit false

namespace WebsockMux.Native

open WebsockMux.Lib WebsockMux.Proto

variable {cfg : Config} {m : Memory} {s s' : Session}

/-! ## Receive tables

Most accesses to the receive tables neither hand out a stream nor queue credit. -/

/-- A change of the receive tables that neither hands out a stream nor queues credit. -/
structure RecvQuiet (s s' : RecvTable) : Prop where
  held : ∀ id, (s'.cell id).reader.held = true → (s.cell id).reader.held = true
  pending : s'.pendingCredit ⊆ s.pendingCredit
  credit : ∀ id, (s'.cell id).credit ≤ (s.cell id).credit

theorem RecvQuiet.refl (s : RecvTable) : RecvQuiet s s :=
  ⟨fun _ h => h, fun _ h => h, fun _ => Nat.le_refl _⟩

theorem RecvQuiet.trans {s s' s'' : RecvTable} (h : RecvQuiet s s') (h' : RecvQuiet s' s'') :
    RecvQuiet s s'' where
  held id hh := h.held id (h'.held id hh)
  pending := h'.pending.trans h.pending
  credit id := (h'.credit id).trans (h.credit id)

/-- A change of one cell, and of the keys of `pending_credit`. -/
theorem RecvQuiet.ofCell {s s' : RecvTable} {i : StreamId} {c : RecvCell}
    (hc : s'.cell = Function.update s.cell i c) (hp : s'.pendingCredit ⊆ s.pendingCredit)
    (hh : c.reader.held = true → (s.cell i).reader.held = true)
    (hle : c.credit ≤ (s.cell i).credit) : RecvQuiet s s' := by
  constructor
  · intro id h
    rw [hc, Function.update_apply] at h
    split_ifs at h with hi
    · rw [hi]
      exact hh h
    · exact h
  · exact hp
  · intro id
    rw [hc, Function.update_apply]
    split_ifs with hi
    · rw [hi]
      exact hle
    · exact Nat.le_refl _

/-- The accesses that hand out a stream or queue credit, and those of the reader. -/
def RecvAccess.loud : RecvAccess → Bool
  | .hold _ on => on
  | .queueCredit _ _ _ => true
  | .read _ _ _ => true
  | _ => false

theorem RecvQuiet.apply (s : RecvTable) {a : RecvAccess} (ha : a.loud = false) :
    RecvQuiet s (s.apply a) := by
  cases a with
  | register i window => exact .ofCell rfl (fun _ h => h) (by rintro ⟨⟩) (Nat.zero_le _)
  | remove i => exact ⟨fun _ h => h, fun _ h => h, fun _ => Nat.le_refl _⟩
  | clear => exact ⟨fun _ h => h, fun _ h => h, fun _ => Nat.le_refl _⟩
  | clearCredit => exact ⟨fun _ h => h, Finset.empty_subset _, fun _ => Nat.le_refl _⟩
  | stop i => exact .ofCell rfl (Finset.erase_subset _ _) (fun h => h) (Nat.le_refl _)
  | read i r events => cases ha
  | prune bound =>
      refine ⟨fun _ h => h, ?_, fun _ => Nat.le_refl _⟩
      simp only [RecvTable.apply, RecvTable.pruned]
      split_ifs
      · exact Finset.filter_subset _ _
      · exact fun _ h => h
  | queueCredit bound i target => cases ha
  | takeCredit i => exact .ofCell rfl (Finset.erase_subset _ _) (fun h => h) (Nat.le_refl _)
  | hold i on =>
      cases on with
      | true => cases ha
      | false => exact .ofCell rfl (fun _ h => h) (by rintro ⟨⟩) (Nat.le_refl _)
  | _ => exact .ofCell rfl (fun _ h => h) (fun h => h) (Nat.le_refl _)

/-! ## Frames -/

/-- The identifier is in the range of a varint. -/
def IdFits (id : StreamId) : Prop := id.val ≤ VarInt.max

/-- The identifier, the code and the limit of a frame are in the range of a varint. -/
def FrameFits : Frame → Prop
  | .openUni id => IdFits id
  | .openBi id => IdFits id
  | .stream id _ _ => IdFits id
  | .resetStream id code => IdFits id ∧ code ≤ VarInt.max
  | .stopSending id code => IdFits id ∧ code ≤ VarInt.max
  | .maxStreamData id max => IdFits id ∧ max ≤ VarInt.max
  | .connectionClose _ _ => True

/-- **A small frame whose fields are in range can be encoded.** -/
theorem encodable_of_fits {l : Limits} {f : Frame} (hl : l.Valid) (hf : FrameFits f)
    (hs : FrameSmall l f) : f.Encodable := by
  have hmax : VarInt.max < 2 ^ 62 := by decide
  cases f with
  | stream id data fin =>
      have hid : id.val ≤ VarInt.max := hf
      have hdata : data.length ≤ VarInt.max := Nat.le_trans hs (hl.streamData_le.trans hl.message_le)
      have hfin : fin.toNat ≤ 1 := Bool.toNat_le fin
      simp only [Frame.Encodable, Frame.varints, List.forall_mem_cons]
      refine ⟨by decide, by omega, by omega, by omega, List.forall_mem_nil _⟩
  | connectionClose code reason =>
      obtain ⟨hcode, hreason⟩ : code < 64 ∧ (asBytes reason).length ≤ maxReason := hs
      unfold maxReason at hreason
      simp only [Frame.Encodable, Frame.varints, List.forall_mem_cons]
      refine ⟨by decide, by omega, by omega, List.forall_mem_nil _⟩
  | openUni id =>
      have hid : id.val ≤ VarInt.max := hf
      simp only [Frame.Encodable, Frame.varints, List.forall_mem_cons]
      exact ⟨by decide, by omega, List.forall_mem_nil _⟩
  | openBi id =>
      have hid : id.val ≤ VarInt.max := hf
      simp only [Frame.Encodable, Frame.varints, List.forall_mem_cons]
      exact ⟨by decide, by omega, List.forall_mem_nil _⟩
  | _ =>
      obtain ⟨hid, hx⟩ := hf
      unfold IdFits at hid
      simp only [Frame.Encodable, Frame.varints, List.forall_mem_cons]
      exact ⟨by decide, by omega, by omega, List.forall_mem_nil _⟩

/-! ## Functions in progress -/

/-- The streams that are dropped when a function returns. -/
def Ret.Fits : Ret → Prop
  | .requestShutdown k => k.Fits
  | .protocolError _ _ k => k.Fits
  | .releaseHandle _ k => k.Fits
  | .closeReceiver _ k => k.Fits
  | .dropRecv id k => IdFits id ∧ k.Fits
  | .dropSend _ id k => IdFits id ∧ k.Fits
  | .dropTx _ k => k.Fits
  | _ => True

def SendSite.Fits : SendSite → Prop
  | .openUni id => IdFits id
  | .openBi id => IdFits id
  | .openCredit id => IdFits id
  | .write c => IdFits c.id
  | .finish id => IdFits id
  | .reset id code => IdFits id ∧ code ≤ VarInt.max
  | .stop id code => IdFits id ∧ code ≤ VarInt.max
  | .inboundCredit id _ => IdFits id
  | .inboundReset id code => IdFits id ∧ code ≤ VarInt.max

def TrySite.Fits : TrySite → Prop
  | .dropSend _ id => IdFits id
  | .dropRecv id => IdFits id
  | .protocolError _ _ => True

def Check.Fits : Check → Prop
  | .send s => s.Fits
  | .trySend s k => s.Fits ∧ k.Fits
  | .writeStart w => IdFits w.id
  | .reserveOpen w => IdFits w.id
  | .noCredit w => IdFits w.id
  | .finishCheck id => IdFits id
  | .finishOpen id => IdFits id
  | .shutdownCheck _ id => IdFits id
  | .shutdownOpen _ id => IdFits id
  | .shutdownAgain _ id => IdFits id
  | .dropSend _ id k => IdFits id ∧ k.Fits

/-- The identifiers, codes and limits that a function in progress may still put into a frame or into
the memory. -/
def Task.Fits : Task → Prop
  | .anyOf _ c => c.Fits
  | .reserve s => s.Fits
  | .publish s => s.Fits
  | .trySend s k => s.Fits ∧ k.Fits
  | .storeShutdown k => k.Fits
  | .cancel k => k.Fits
  | .closeAll _ k => k.Fits
  | .registerSendFlow _ id => IdFits id
  | .registerRecvStream id => IdFits id
  | .openReturn _ id => IdFits id
  | .holdRecv id => IdFits id
  | .undoRecv id => IdFits id
  | .undoFlow id _ => IdFits id
  | .selectApi c => IdFits c.id
  | .swapOperation c => IdFits c.id
  | .loadSent w => IdFits w.id
  | .loadMax w _ => IdFits w.id
  | .casSent w _ _ => IdFits w.id
  | .waitCredit w => IdFits w.id
  | .casFinished id => IdFits id
  | .resetStore id code => IdFits id ∧ code ≤ VarInt.max
  | .resetRemove id code => IdFits id ∧ code ≤ VarInt.max
  | .pollReserve c => IdFits c.id
  | .pollPublish c => IdFits c.id
  | .shutdownReserve _ id => IdFits id
  | .shutdownPublish _ id => IdFits id
  | .dropSend _ id k => IdFits id ∧ k.Fits
  | .dropSendRemove _ id k => IdFits id ∧ k.Fits
  | .releaseHandle _ k => k.Fits
  | .read id _ _ => IdFits id
  | .storeMax id target => IdFits id ∧ target ≤ VarInt.max
  | .queueCredit id target => IdFits id ∧ target ≤ VarInt.max
  | .stopSwap id code => IdFits id ∧ code ≤ VarInt.max
  | .stopMark id code => IdFits id ∧ code ≤ VarInt.max
  | .dropRecv id k => IdFits id ∧ k.Fits
  | .dropRecvSwap id k => IdFits id ∧ k.Fits
  | .closeReceiver _ k => k.Fits
  | .validatePeer id _ => IdFits id
  | .tryRegister id _ => IdFits id
  | .registerFlow id => IdFits id
  | .newSend id => IdFits id
  | .acceptLock id _ => IdFits id
  | .acceptSend id _ => IdFits id
  | .dropTx _ k => k.Fits
  | .stopFlow id code => IdFits id ∧ code ≤ VarInt.max
  | .holdSend _ id => IdFits id
  | _ => True

/-- An access that puts only such identifiers, codes and limits into the memory. -/
def Access.Fits : Access → Prop
  | .chan (.publish f) => FrameFits f
  | .chan (.trySend f) => FrameFits f
  | .handle (.new i _) => IdFits i
  | .handle (.sendData _ f) => FrameFits f
  | .handle (.sendFin _ f) => FrameFits f
  | .recv (.hold i on) => on = true → IdFits i
  | .recv (.read i _ _) => IdFits i
  | .recv (.queueCredit _ i target) => IdFits i ∧ target ≤ VarInt.max
  | .accept (.push i _) => IdFits i
  | _ => True

/-- The identifiers, codes and limits that the memory holds for later frames. -/
structure Memory.Fits (m : Memory) : Prop where
  handles : ∀ x ∈ m.handles, IdFits x.id
  held : ∀ id, (m.recvs.cell id).reader.held = true → IdFits id
  uni : ∀ id ∈ m.accept.uni, IdFits id
  bi : ∀ p ∈ m.accept.bi, IdFits p.2
  credit : ∀ id ∈ m.recvs.pendingCredit, IdFits id ∧ (m.recvs.cell id).credit ≤ VarInt.max
  admitted : ∀ f ∈ m.chan.admitted, FrameFits f

section Functions

theorem Ret.fits_resume {k : Ret} (h : k.Fits) : k.resume.Fits := by
  cases k with
  | protocolError code reason k => exact ⟨trivial, h⟩
  | _ => exact h

theorem fits_writeLoop {w : Writer} (h : IdFits w.id) : (writeLoop cfg w).Fits := by
  unfold writeLoop
  split_ifs
  · trivial
  · trivial
  · exact h

theorem fits_outOfCredit {w : Writer} (h : IdFits w.id) : (outOfCredit w).Fits := by
  unfold outOfCredit
  split_ifs <;> exact h

theorem fits_granted {c : Chunk} (h : IdFits c.id) : (granted c).Fits := by
  unfold granted
  split_ifs <;> exact h

theorem fits_acceptDrop {i : StreamId} (h : IdFits i) (x : Option Nat) : (acceptDrop i x).Fits := by
  cases x with
  | none => exact ⟨h, trivial⟩
  | some y => exact ⟨h, h, trivial⟩

theorem SendSite.fits_resume {x : SendSite} (h : x.Fits) (ok : Bool) : (x.resume cfg ok).Fits := by
  cases x with
  | write c =>
      cases ok with
      | false => trivial
      | true => exact fits_writeLoop (w := c.rest) h
  | inboundCredit i bi =>
      cases ok with
      | false => cases bi <;> exact ⟨h, trivial⟩
      | true => cases bi <;> exact h
  | openUni i => cases ok <;> exact h
  | openBi i => cases ok <;> exact h
  | openCredit i => cases ok <;> exact h
  | _ => cases ok <;> trivial

theorem TrySite.fits_resume {k : Ret} (hk : k.Fits) (x : TrySite) (ok : Bool) :
    (x.resume k ok).Fits := by
  cases x <;> cases ok <;> exact hk

theorem Check.fits_resume {c : Check} (h : c.Fits) (b : Bool) : (c.resume cfg b).Fits := by
  cases c with
  | send x =>
      cases b with
      | false => exact h
      | true => exact SendSite.fits_resume h _
  | trySend x k =>
      cases b with
      | false => exact h
      | true => exact x.fits_resume h.2 _
  | writeStart w =>
      cases b with
      | false => exact fits_writeLoop h
      | true => trivial
  | reserveOpen w =>
      cases b with
      | false => exact h
      | true => exact fits_outOfCredit h
  | noCredit w =>
      cases b with
      | false =>
          simp only [Check.resume]
          split_ifs
          · exact h
          · trivial
      | true => trivial
  | dropSend x i k =>
      cases b with
      | false => exact h
      | true => exact h.2
  | _ => cases b <;> trivial

theorem SendCall.fits_body {c : SendCall} (h : IdFits c.id) : c.body.Fits := by
  cases c with
  | write w =>
      simp only [SendCall.body]
      split_ifs
      · exact h
      · trivial
      · exact h
  | reset i code =>
      simp only [SendCall.body]
      split_ifs with hc
      · exact ⟨h, hc⟩
      · trivial
  | pollFlush x i => trivial
  | _ => exact h

theorem SendCall.fits_selected {c : SendCall} (h : IdFits c.id) : c.selected.Fits := by
  cases c with
  | pollFlush x i => trivial
  | _ => exact h

theorem SendSite.fits_frame {x : SendSite} (hw : cfg.limits.initialStreamWindow ≤ VarInt.max)
    (h : x.Fits) : FrameFits (x.frame cfg) := by
  cases x with
  | openCredit i => exact ⟨h, hw⟩
  | inboundCredit i bi => exact ⟨h, hw⟩
  | _ => exact h

theorem TrySite.fits_frame {x : TrySite} (h : x.Fits) : FrameFits x.frame := by
  cases x with
  | protocolError code reason => trivial
  | _ => exact ⟨h, Nat.zero_le _⟩

end Functions

/-- **A function in progress** keeps its fields in range, and puts only such into the memory. -/
theorem Task.fits_next {t t' : Task} {a : Access} (hw : cfg.limits.initialStreamWindow ≤ VarInt.max)
    (hm : m.Fits) (ht : t.Fits) (hn : t.next cfg m = some (a, t')) : t'.Fits ∧ a.Fits := by
  replace hn := Task.steps_of_next hn
  induction hn with
  | anyOfNil | anyOfSet | anyOfLast => exact ⟨Check.fits_resume ht _, trivial⟩
  | reserveClosed | unpublished => exact ⟨SendSite.fits_resume ht _, trivial⟩
  | publish => exact ⟨SendSite.fits_resume ht _, SendSite.fits_frame hw ht⟩
  | trySend x => exact ⟨x.fits_resume ht.2 _, TrySite.fits_frame ht.1⟩
  | trySendFull x => exact ⟨x.fits_resume ht.2 _, trivial⟩
  | closeAll c k =>
      cases c with
      | closeFlows => exact ⟨Ret.fits_resume ht, trivial⟩
      | _ => exact ⟨ht, trivial⟩
  | cancel | closeAllAgain | releaseHandle | closeReceiver | dropTx =>
      exact ⟨Ret.fits_resume ht, trivial⟩
  | fetchAdd dir i hnew =>
      -- `StreamId::new` checks the range
      obtain ⟨-, -, -, hle⟩ := StreamId.new_ok hnew
      exact ⟨hle, trivial⟩
  | openReturnUni | pollPublish | shutdownPublish | queueCredit | readReturn | acceptSend =>
      exact ⟨trivial, ht⟩
  | openReturnBi | readAgain | newSend => exact ⟨ht, ht⟩
  | holdRecv => exact ⟨trivial, fun _ => ht⟩
  | undoFlowBi => exact ⟨⟨ht, trivial⟩, trivial⟩
  | selectApi | selectApiSame => exact ⟨SendCall.fits_selected ht, trivial⟩
  | swapOperation => exact ⟨SendCall.fits_body ht, trivial⟩
  | outOfCredit => exact ⟨fits_outOfCredit ht, trivial⟩
  | casSent w sent max => exact ⟨fits_granted (c := w.chunk cfg sent max) ht, trivial⟩
  | readGrant i api n r es target hp =>
      -- a new limit is at most the largest varint
      have ho : RecvStream.outcome ((m.recvs.cell i).reader.poll cfg.limits
          (m.recvs.hasSender i) api n (m.recvs.cell i).events) = some (r, es, some target) :=
        congrArg RecvStream.outcome hp
      obtain ⟨taken, hr⟩ := RecvStream.reads_of_poll ho
      exact ⟨⟨ht, (hr.grows target rfl).2⟩, ht⟩
  | dropSend | dropRecvFinished | dropRecvGone | dropRecvAgain => exact ⟨ht.2, trivial⟩
  | anyOf | reserve | registerUni | registerBi | loadMax | casSentFailed | dropSendLast | dropRecv
  | dropRecvSwap | validatePeer | tryRegister | registerFlow | acceptLock | stopFlow =>
      exact ⟨ht, trivial⟩
  | flowRefused => exact ⟨⟨trivial, ht, trivial⟩, trivial⟩
  | acceptLockGone i x | acceptClosed i x =>
      exact ⟨Ret.fits_resume (fits_acceptDrop ht x), trivial⟩
  | acceptFull i x => exact ⟨⟨trivial, fits_acceptDrop ht x⟩, trivial⟩
  | peerRefused | tryRefused | dataRefused | eventsFull | unknown =>
      exact ⟨⟨trivial, trivial⟩, trivial⟩
  | acceptUni i rest hq =>
      -- the stream comes from an accept queue
      exact ⟨hm.uni i (by rw [hq]; exact List.mem_cons_self), trivial⟩
  | drainUni i rest hq =>
      exact ⟨⟨hm.uni i (by rw [hq]; exact List.mem_cons_self), trivial⟩, trivial⟩
  | acceptBi x i rest hq => exact ⟨hm.bi (x, i) (by rw [hq]; exact List.mem_cons_self), trivial⟩
  | drainBi x i rest hq =>
      have hid := hm.bi (x, i) (by rw [hq]; exact List.mem_cons_self)
      exact ⟨⟨hid, hid, trivial⟩, trivial⟩
  | _ => first | exact ⟨trivial, trivial⟩ | exact ⟨ht, trivial⟩

theorem Task.fits_cancelled {t t' : Task} (ht : t.Fits) (h : t.cancelled = some t') : t'.Fits := by
  cases t with
  | reserve x => cases x <;> cases h <;> trivial
  | _ => cases h <;> trivial

theorem Task.fits_timedOut {t t' : Task} (h : t.timedOut = some t') : t'.Fits := by
  cases t <;> cases h <;> trivial

theorem Task.fits_aborted {t t' : Task} (ht : t.Fits) (h : t.aborted = some t') : t'.Fits := by
  cases t with
  | reserve x => cases x <;> cases h <;> trivial
  | acceptLock i x =>
      cases h
      exact Ret.fits_resume (fits_acceptDrop ht x)
  | closeAll c k => cases c <;> cases h <;> exact Ret.fits_resume ht
  | _ => cases h

/-- The fields of a decoded frame are in range. -/
theorem Decodable.fits {f : Frame} (h : Decodable f) : (handleFrame cfg f).Fits := by
  obtain ⟨b, rest, hd⟩ := h
  have hle : ∀ x ∈ f.varints, x ≤ VarInt.max := by
    intro x hx
    have hlt := Frame.encodable_of_decode hd x hx
    unfold VarInt.max
    omega
  cases f with
  | openUni i =>
      simp only [handleFrame]
      split_ifs
      · exact ⟨trivial, trivial⟩
      · exact ⟨trivial, trivial⟩
      · exact hle _ (by simp [Frame.varints])
  | openBi i =>
      simp only [handleFrame]
      split_ifs
      · exact ⟨trivial, trivial⟩
      · exact ⟨trivial, trivial⟩
      · exact hle _ (by simp [Frame.varints])
  | stream i data fin =>
      simp only [handleFrame]
      split_ifs
      · exact ⟨trivial, trivial⟩
      · trivial
  | stopSending i code => exact ⟨hle _ (by simp [Frame.varints]), hle _ (by simp [Frame.varints])⟩
  | _ => trivial

theorem Turn.fits {v : View} {t t' : Task} {fs : List Frame} {b : Bool} (h : Turn cfg v t t' fs b) :
    t'.Fits := by
  cases h with
  | frame hl hf => exact hf.fits
  | refuse hl code reason => exact ⟨trivial, trivial⟩
  | _ => trivial

/-- A call is made on a handle or a stream that the application holds. -/
theorem Call.fits_start {c : Call} {u : Use} {a : Access} {t : Task} (hm : m.Fits)
    (h : c.start m = some (u, a, t)) : t.Fits ∧ a.Fits := by
  have hid : ∀ {k : Nat} {x : SendHandle}, m.handles[k]? = some x → IdFits x.id :=
    fun hx => hm.handles _ (List.mem_of_getElem? hx)
  cases Call.starts_of_start h with
  | write hx hh data => exact ⟨hid hx, trivial⟩
  | finish hx hh => exact ⟨hid hx, trivial⟩
  | reset hx hh code => exact ⟨hid hx, trivial⟩
  | pollWrite hx hh data => exact ⟨hid hx, trivial⟩
  | pollFlush hx hh => exact ⟨hid hx, trivial⟩
  | pollShutdown hx hh => exact ⟨hid hx, trivial⟩
  | cloneSend hx hh => exact ⟨trivial, hid hx⟩
  | dropSend hx hh => exact ⟨⟨hid hx, trivial⟩, trivial⟩
  | read hh api n => exact ⟨hm.held _ hh, trivial⟩
  | stop hh hc => exact ⟨⟨hm.held _ hh, hc⟩, trivial⟩
  | dropRecv hh => exact ⟨⟨hm.held _ hh, trivial⟩, nofun⟩
  | _ => exact ⟨trivial, trivial⟩

/-! ## The memory -/

theorem Access.Fits.frame {a : Access} {f : Frame} (ha : a.Fits) (hf : a.frame? = some f) :
    FrameFits f := by
  cases a with
  | chan b => cases b <;> cases hf <;> exact ha
  | handle b => cases b <;> cases hf <;> exact ha
  | _ => cases hf

/-- A change of one cell of the receive tables. -/
theorem Memory.Fits.ofCell {r : RecvTable} {i : StreamId} {c : RecvCell} (hm : m.Fits)
    (hcell : r.cell = Function.update m.recvs.cell i c) (hheld : c.reader.held = true → IdFits i)
    (hother : ∀ j ∈ r.pendingCredit, j ≠ i → j ∈ m.recvs.pendingCredit)
    (hcredit : i ∈ r.pendingCredit → IdFits i ∧ c.credit ≤ VarInt.max) :
    ({ m with recvs := r } : Memory).Fits := by
  refine ⟨hm.handles, ?_, hm.uni, hm.bi, ?_, hm.admitted⟩
  · intro j hj
    by_cases hji : j = i
    · subst hji
      simp only [hcell, Function.update_self] at hj
      exact hheld hj
    · simp only [hcell, Function.update_of_ne hji] at hj
      exact hm.held j hj
  · intro j hj
    by_cases hji : j = i
    · subst hji
      simp only [hcell, Function.update_self]
      exact hcredit hj
    · simp only [hcell, Function.update_of_ne hji]
      exact hm.credit j (hother j hj hji)

/-- An access to the receive tables. -/
theorem Memory.Fits.recv {b : RecvAccess} (ha : (Access.recv b).Fits) (hm : m.Fits) :
    (m.apply (.recv b)).Fits := by
  -- what a quiet access leaves
  have hquiet : b.loud = false → (m.apply (.recv b)).Fits := by
    intro hb
    have hq : RecvQuiet m.recvs (m.recvs.apply b) := .apply _ hb
    refine ⟨hm.handles, fun i hi => hm.held i (hq.held i hi), hm.uni, hm.bi, ?_, hm.admitted⟩
    intro i hi
    obtain ⟨hid, hle⟩ := hm.credit i (hq.pending hi)
    exact ⟨hid, (hq.credit i).trans hle⟩
  cases b with
  | hold i on =>
      cases on with
      | false => exact hquiet rfl
      | true => exact hm.ofCell rfl (fun _ => ha rfl) (fun _ hj _ => hj) (hm.credit i)
  | read i r events => exact hm.ofCell rfl (fun _ => ha) (fun _ hj _ => hj) (hm.credit i)
  | queueCredit bound i target =>
      have hpruned : m.recvs.pruned bound ⊆ m.recvs.pendingCredit :=
        (RecvQuiet.apply m.recvs (a := .prune bound) rfl).pending
      refine hm.ofCell rfl (hm.held i) ?_ fun _ => ⟨ha.1, ?_⟩
      · intro j hj hji
        exact hpruned ((Finset.mem_insert.1 hj).resolve_left hji)
      · -- the entry is the larger of the old and the new limit
        dsimp only
        split_ifs with hin
        · exact max_le (hm.credit i (hpruned hin)).2 ha.2
        · exact ha.2
  | _ => exact hquiet rfl

theorem IdFits.modify {hs : List SendHandle} {k : Nat} {g : SendHandle → SendHandle}
    (hg : ∀ x, (g x).id = x.id) (h : ∀ x ∈ hs, IdFits x.id) : ∀ x ∈ hs.modify k g, IdFits x.id := by
  intro y hy
  obtain ⟨j, hj⟩ := List.getElem?_of_mem hy
  rw [List.getElem?_modify] at hj
  obtain ⟨x, hx, rfl⟩ := Option.map_eq_some_iff.1 hj
  have hid := h x (List.mem_of_getElem? hx)
  split_ifs
  · rw [hg x]
    exact hid
  · exact hid

/-- **An access keeps the memory in range.** -/
theorem Memory.Fits.apply {a : Access} (ha : a.Fits) (hm : m.Fits) : (m.apply a).Fits := by
  have hadm : ∀ f ∈ (m.apply a).chan.admitted, FrameFits f := by
    intro f hf
    rw [m.admitted_apply] at hf
    rcases List.mem_append.1 hf with hf | hf
    · exact hm.admitted f hf
    · exact ha.frame (Option.mem_toList.1 hf)
  cases a with
  | recv b => exact hm.recv ha
  | handle b =>
      refine ⟨?_, hm.held, hm.uni, hm.bi, hm.credit, hadm⟩
      cases b with
      | new i held =>
          intro x hx
          rcases List.mem_append.1 hx with hx | hx
          · exact hm.handles x hx
          · rw [List.mem_singleton.1 hx]
            exact ha
      | _ => exact IdFits.modify (fun _ => rfl) hm.handles
  | accept b =>
      cases b with
      | takeTx bi => cases bi <;> exact ⟨hm.handles, hm.held, hm.uni, hm.bi, hm.credit, hadm⟩
      | closeRx bi => cases bi <;> exact ⟨hm.handles, hm.held, hm.uni, hm.bi, hm.credit, hadm⟩
      | pop bi =>
          cases bi with
          | false =>
              exact ⟨hm.handles, hm.held, fun i hi => hm.uni i (List.mem_of_mem_tail hi), hm.bi,
                hm.credit, hadm⟩
          | true =>
              exact ⟨hm.handles, hm.held, hm.uni, fun p hp => hm.bi p (List.mem_of_mem_tail hp),
                hm.credit, hadm⟩
      | push i x =>
          cases x with
          | none =>
              refine ⟨hm.handles, hm.held, fun j hj => ?_, hm.bi, hm.credit, hadm⟩
              rcases List.mem_append.1 hj with hj | hj
              · exact hm.uni j hj
              · exact List.mem_singleton.1 hj ▸ ha
          | some y =>
              refine ⟨hm.handles, hm.held, hm.uni, fun p hp => ?_, hm.credit, hadm⟩
              rcases List.mem_append.1 hp with hp | hp
              · exact hm.bi p hp
              · exact List.mem_singleton.1 hp ▸ ha
  | session clone =>
      cases clone <;> exact ⟨hm.handles, hm.held, hm.uni, hm.bi, hm.credit, hadm⟩
  | _ => exact ⟨hm.handles, hm.held, hm.uni, hm.bi, hm.credit, hadm⟩

/-! ## Runs -/

/-- The functions in progress, and the memory. -/
structure View.Fits (v : View) : Prop where
  tasks : ∀ t ∈ v.tasks, t.Fits
  mem : v.mem.Fits

theorem Moves.fits {v v' : View} {who : Option Nat}
    (hw : cfg.limits.initialStreamWindow ≤ VarInt.max) (h : Moves cfg v who v') (hv : v.Fits) :
    v'.Fits := by
  cases h with
  | next hi hn =>
      obtain ⟨ht, ha⟩ := Task.fits_next hw hv.mem (hv.tasks _ (List.mem_of_getElem? hi)) hn
      exact ⟨forall_mem_set hv.tasks ht, hv.mem.apply ha⟩
  | cancel hi hc =>
      exact ⟨forall_mem_set hv.tasks
        (Task.fits_cancelled (hv.tasks _ (List.mem_of_getElem? hi)) hc), hv.mem⟩
  | timeout hi hc => exact ⟨forall_mem_set hv.tasks (Task.fits_timedOut hc), hv.mem⟩
  | abort hi ha =>
      exact ⟨forall_mem_set hv.tasks
        (Task.fits_aborted (hv.tasks _ (List.mem_of_getElem? hi)) ha), hv.mem⟩
  | turn hi ht => exact ⟨forall_mem_set hv.tasks ht.fits, hv.mem⟩
  | exit hi => exact ⟨forall_mem_set hv.tasks trivial, hv.mem.apply (a := .chan .dropRx) trivial⟩
  | spawn hc =>
      obtain ⟨ht, ha⟩ := Call.fits_start hv.mem hc
      exact ⟨forall_mem_concat hv.tasks ht, hv.mem.apply ha⟩
  | loop ha hb => exact ⟨hv.tasks, hv.mem.apply (by cases ha <;> trivial)⟩

theorem fits_of_reachable {ok : Session → Label → Prop}
    (hw : cfg.limits.initialStreamWindow ≤ VarInt.max)
    (hr : Reachable (Session.step cfg) ok {} s) : s.view.Fits := by
  refine hr.invariant (I := fun s => s.view.Fits) ?_ ?_
  · refine ⟨?_, ⟨nofun, nofun, nofun, nofun, nofun, nofun⟩⟩
    intro t ht
    have ht : t = .done := by simpa [Session.view, Session.tasks, InPhase.task, OutPc.task] using ht
    rw [ht]
    trivial
  · intro s l s' _ ih _ hs
    exact (Session.moves_of_step hs).fits hw ih

/-- The frames that were put into the queue are small. -/
theorem small_admitted {ok : Session → Label → Prop} (hr : Reachable (Session.step cfg) ok {} s) :
    ∀ f ∈ s.mem.chan.admitted, FrameSmall cfg.limits f := by
  induction hr with
  | init => nofun
  | step hr _ hs ih =>
      intro f hf
      rcases (Session.moves_of_step hs).admitted with heq | ⟨i, t, t', a, g, -, hi, hn, hg, -, heq⟩
      · exact ih f (heq ▸ hf)
      · rcases List.mem_append.1 (heq ▸ hf : f ∈ _ ++ [g]) with hf | hf
        · exact ih f hf
        · rw [List.mem_singleton.1 hf]
          have ht := (small_of_reachable hr).tasks t (List.mem_of_getElem? hi)
          cases Task.admits hn hg with
          | publish x => exact SendSite.small_frame ht
          | trySend x k => exact TrySite.small_frame ht.1
          | pollWrite c => exact Chunk.small_frame ht
          | pollShutdown x i => exact Nat.zero_le _

/-- The frames that a session puts into its queue, those that `next_credit` would give, and those
that the outbound task has taken from either can be encoded. -/
structure EncodableFrames (s : Session) : Prop where
  admitted : ∀ f ∈ s.mem.chan.admitted, f.Encodable
  credit : ∀ id ∈ s.mem.recvs.pendingCredit,
    (Frame.maxStreamData id (s.mem.recvs.cell id).credit).Encodable
  taken : ∀ f ∈ s.out.taken, f.Encodable

/-- **What a session enqueues can be encoded**, in every run with validated limits. -/
theorem encodableFrames_of_reachable {ok : Session → Label → Prop} (hl : cfg.limits.Valid)
    (hr : Reachable (Session.step cfg) ok {} s) : EncodableFrames s := by
  -- the queue and `pending_credit` of any state of the run
  have hadm : ∀ {s : Session}, Reachable (Session.step cfg) ok {} s →
      ∀ f ∈ s.mem.chan.admitted, f.Encodable := by
    intro s hr f hf
    exact encodable_of_fits hl ((fits_of_reachable hl.window_le hr).mem.admitted f hf)
      (small_admitted hr f hf)
  have hcredit : ∀ {s : Session}, Reachable (Session.step cfg) ok {} s →
      ∀ id ∈ s.mem.recvs.pendingCredit,
        (Frame.maxStreamData id (s.mem.recvs.cell id).credit).Encodable := by
    intro s hr id hid
    exact encodable_of_fits hl ((fits_of_reachable hl.window_le hr).mem.credit id hid) trivial
  refine ⟨hadm hr, hcredit hr, ?_⟩
  induction hr with
  | init => nofun
  | @step s s' l hr _ hs ih =>
      obtain ⟨a, -, -, ht⟩ := takes_of_step hs
      generalize s'.out = o' at ht ⊢
      cases ht with
      | nothing ha hk =>
          rw [hk.taken]
          exact ih
      | @command c rest hp hq =>
          intro f hf
          -- a command in the queue was put there
          have hqueued : ∀ g, c = .frame g → g.Encodable := by
            rintro g rfl
            refine hadm hr g ((announced_of_reachable hr).queued g ?_)
            rw [hq]
            exact List.mem_cons_self
          cases c with
          | frame g =>
              simp only [Outbound.note] at hf
              split_ifs at hf
              · exact ih f hf
              · rcases List.mem_append.1 hf with hf | hf
                · exact ih f hf
                · exact List.mem_singleton.1 hf ▸ hqueued g rfl
          | _ => exact ih f hf
      | @credit id hp hc hi =>
          intro f hf
          rcases List.mem_append.1 hf with hf | hf
          · exact ih f hf
          · exact List.mem_singleton.1 hf ▸ hcredit hr id hi
      | leave hp => exact ih

end WebsockMux.Native
