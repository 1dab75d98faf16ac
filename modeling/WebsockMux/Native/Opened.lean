import WebsockMux.Lib.Precedes
import WebsockMux.Native.Closing
import WebsockMux.Native.Handling
import WebsockMux.Native.OpenOrder
import WebsockMux.Native.Promises
import WebsockMux.Native.Tables

/-!
# The open comes first

Of the frames about a stream that a session has opened itself, the open is the first in the outbound
queue: until `open_uni` or `open_bi` has published it, no other function has the stream
(`OpenedFirst`). This holds in runs in which no future of an operation is dropped: a cancelled
`open_bi` drops its receive stream, which sends a `StopSending` without the open.
-/

set_option autoImplicit false

namespace WebsockMux.Native

open WebsockMux.Lib WebsockMux.Proto

variable {cfg : Config} {m : Memory} {v v' : View} {who : Option Nat} {id i : StreamId}
  {t t' : Task} {a : Access}

/-! ## Functions that have a stream

Apart from what `handle_frame` does with a frame that may name any stream, a function that mentions
a stream has one of its directions. -/

def Ret.Has (id : StreamId) : Ret → Prop
  | .requestShutdown k => k.Has id
  | .protocolError _ _ k => k.Has id
  | .releaseHandle _ k => k.Has id
  | .closeReceiver _ k => k.Has id
  | .dropRecv i k => i = id ∨ k.Has id
  | .dropSend _ i k => i = id ∨ k.Has id
  | .dropTx _ k => k.Has id
  | _ => False

/-- The stream of a call of `send_frame`. -/
def SendSite.stream : SendSite → StreamId
  | .openUni i => i
  | .openBi i => i
  | .openCredit i => i
  | .write c => c.id
  | .finish i => i
  | .reset i _ => i
  | .stop i _ => i
  | .inboundCredit i _ => i
  | .inboundReset i _ => i

def TrySite.Has (id : StreamId) : TrySite → Prop
  | .dropSend _ i => i = id
  | .dropRecv i => i = id
  | .protocolError _ _ => False

def Check.Has (id : StreamId) : Check → Prop
  | .send s => s.stream = id
  | .trySend s k => s.Has id ∨ k.Has id
  | .writeStart w => w.id = id
  | .reserveOpen w => w.id = id
  | .noCredit w => w.id = id
  | .finishCheck i => i = id
  | .finishOpen i => i = id
  | .shutdownCheck _ i => i = id
  | .shutdownOpen _ i => i = id
  | .shutdownAgain _ i => i = id
  | .dropSend _ i k => i = id ∨ k.Has id

/-- A function has a direction of a stream. -/
def Task.Has (id : StreamId) : Task → Prop
  | .anyOf _ c => c.Has id
  | .reserve s => s.stream = id
  | .publish s => s.stream = id
  | .trySend s k => s.Has id ∨ k.Has id
  | .storeShutdown k => k.Has id
  | .cancel k => k.Has id
  | .closeAll _ k => k.Has id
  | .registerSendFlow _ i => i = id
  | .registerRecvStream i => i = id
  | .openReturn _ i => i = id
  | .holdRecv i => i = id
  | .undoRecv i => i = id
  | .undoFlow i _ => i = id
  | .selectApi c => c.id = id
  | .swapOperation c => c.id = id
  | .endOperation i => i = id
  | .loadSent w => w.id = id
  | .loadMax w _ => w.id = id
  | .casSent w _ _ => w.id = id
  | .waitCredit w => w.id = id
  | .release i _ _ => i = id
  | .abortSend _ i => i = id
  | .abandon i _ => i = id
  | .abandonCancel i => i = id
  | .casFinished i => i = id
  | .finishRemove i => i = id
  | .resetStore i _ => i = id
  | .resetRemove i _ => i = id
  | .pollReserve c => c.id = id
  | .pollPublish c => c.id = id
  | .shutdownReserve _ i => i = id
  | .shutdownPublish _ i => i = id
  | .shutdownStore _ i => i = id
  | .shutdownRemove _ i => i = id
  | .dropSend _ i k => i = id ∨ k.Has id
  | .dropSendRemove _ i k => i = id ∨ k.Has id
  | .releaseHandle _ k => k.Has id
  | .read i _ _ => i = id
  | .storeMax i _ => i = id
  | .queueCredit i _ => i = id
  | .stopSwap i _ => i = id
  | .stopMark i _ => i = id
  | .dropRecv i k => i = id ∨ k.Has id
  | .dropRecvSwap i k => i = id ∨ k.Has id
  | .closeReceiver _ k => k.Has id
  | .validatePeer i _ => i = id
  | .tryRegister i _ => i = id
  | .registerFlow i => i = id
  | .newSend i => i = id
  | .acceptLock i _ => i = id
  | .acceptSend i _ => i = id
  | .dropTx _ k => k.Has id
  | .holdSend _ i => i = id
  | _ => False

theorem Ret.has_resume {k : Ret} (h : k.resume.Has id) : k.Has id := by
  cases k with
  | protocolError code reason k => exact h.resolve_left (fun hf => hf)
  | _ => exact h

theorem has_writeLoop {w : Writer} (h : (writeLoop cfg w).Has id) : w.id = id := by
  unfold writeLoop at h
  split_ifs at h <;> exact h

theorem has_outOfCredit {w : Writer} (h : (outOfCredit w).Has id) : w.id = id := by
  unfold outOfCredit at h
  split_ifs at h <;> exact h

theorem has_acceptDrop {x : Option Nat} (h : (acceptDrop i x).Has id) : i = id := by
  cases x with
  | none => exact h.resolve_right (fun hf => hf)
  | some n => exact h.elim (fun hi => hi) fun h => h.resolve_right (fun hf => hf)

theorem SendSite.has_resume {s : SendSite} {ok : Bool} (h : (s.resume cfg ok).Has id) :
    s.stream = id := by
  cases s with
  | write c =>
      cases ok with
      | false => exact h
      | true => exact has_writeLoop (w := c.rest) h
  | inboundCredit i bi =>
      cases ok with
      | false => cases bi <;> exact h.resolve_right (fun hf => hf)
      | true => cases bi <;> exact h
  | _ => cases ok <;> first | exact h | exact h.elim

theorem TrySite.has_resume {s : TrySite} {k : Ret} {ok : Bool} (h : (s.resume k ok).Has id) :
    k.Has id := by
  cases s <;> cases ok <;> exact h

theorem Check.has_resume {c : Check} {ok : Bool} (h : (c.resume cfg ok).Has id) : c.Has id := by
  cases c with
  | send s =>
      cases ok with
      | false => exact h
      | true => exact SendSite.has_resume h
  | trySend s k =>
      cases ok with
      | false => exact h
      | true => exact .inr (TrySite.has_resume h)
  | writeStart w =>
      cases ok with
      | false => exact has_writeLoop h
      | true => exact h
  | reserveOpen w =>
      cases ok with
      | false => exact h
      | true => exact has_outOfCredit h
  | noCredit w =>
      cases ok with
      | false =>
          simp only [Check.resume] at h
          split_ifs at h <;> exact h
      | true => exact h
  | dropSend x i k =>
      cases ok with
      | false => exact h
      | true => exact .inr h
  | _ => cases ok <;> first | exact h | exact h.elim

/-- **Where a function gets a stream from**: it had it before, it opens the stream, it takes it from
an accept queue, or the peer has stopped the stream. -/
theorem Task.has_next (hn : t.next cfg m = some (a, t')) (h : t'.Has id) :
    t.Has id ∨ (∃ dir, t'.opening = some (dir, id)) ∨ (∃ b, m.accept.queues b id) ∨
      ∃ code, t = .stopFlow id code := by
  replace hn := Task.steps_of_next hn
  induction hn with
  | anyOfNil | anyOfSet | anyOfLast => exact .inl (Check.has_resume h)
  | reserveClosed | publish | unpublished => exact .inl (SendSite.has_resume h)
  | trySend | trySendFull => exact .inl (.inr (TrySite.has_resume h))
  | closeAll c k =>
      left
      cases c with
      | closeFlows => exact Ret.has_resume h
      | _ => exact h
  | cancel | closeAllAgain | releaseHandle | closeReceiver | dropTx => exact .inl (Ret.has_resume h)
  | fetchAdd dir =>
      -- the identifier is new, and its open is still to be published
      exact .inr (.inl ⟨dir, by rw [← h]; rfl⟩)
  | undoFlowBi => exact .inl (h.resolve_right fun hf => hf)
  | selectApi c | selectApiSame c =>
      left
      cases c <;> first | exact h | exact h.elim
  | swapOperation c =>
      left
      cases c <;> simp only [SendCall.body] at h <;> (try split_ifs at h) <;>
        first | exact h | exact h.elim
  | outOfCredit => exact .inl (has_outOfCredit h)
  | casSent w sent max =>
      left
      unfold granted at h
      split_ifs at h <;> exact h
  | dropSend | dropRecvFinished | dropRecvGone | dropRecvAgain => exact .inl (.inr h)
  | flowRefused i =>
      exact .inl ((Ret.has_resume h : i = id ∨ False).resolve_right fun hf => hf)
  | acceptLockGone | acceptClosed => exact .inl (has_acceptDrop (Ret.has_resume h))
  | acceptFull => exact .inl (has_acceptDrop (h.resolve_left fun hf => hf))
  | stopFlow i code => exact .inr (.inr (.inr ⟨code, by rw [← h]; rfl⟩))
  | acceptUni i rest hq =>
      exact .inr (.inr (.inl ⟨true, .inl ⟨rfl, by rw [hq, h]; exact List.mem_cons_self⟩⟩))
  | acceptBi x i rest hq =>
      exact .inr (.inr (.inl ⟨true, .inr ⟨x, by rw [hq, h]; exact List.mem_cons_self⟩⟩))
  | drainUni i rest hq =>
      obtain rfl : i = id := h.resolve_right fun hf => hf
      exact .inr (.inr (.inl ⟨true, .inl ⟨rfl, by rw [hq]; exact List.mem_cons_self⟩⟩))
  | drainBi x i rest hq =>
      obtain rfl : i = id := h.elim (fun hi => hi) fun h => h.resolve_right fun hf => hf
      exact .inr (.inr (.inl ⟨true, .inr ⟨x, by rw [hq]; exact List.mem_cons_self⟩⟩))
  | _ => first | exact .inl h | exact h.elim | exact (Ret.has_resume h).elim

theorem Task.has_timedOut (hc : t.timedOut = some t') : ¬ t'.Has id := by
  cases t <;> cases hc <;> exact fun h => h

theorem Task.has_aborted (ha : t.aborted = some t') (h : t'.Has id) : t.Has id := by
  cases t with
  | reserve s => cases s <;> cases ha <;> first | exact h.resolve_right fun hf => hf | exact h.elim
  | acceptLock i x =>
      cases ha
      exact has_acceptDrop (Ret.has_resume h)
  | closeAll c k => cases c <;> cases ha <;> exact Ret.has_resume h
  | _ => cases ha

/-- A frame that opens a stream gives the inbound task a stream of the peer. -/
theorem Turn.has {fs : List Frame} {b : Bool} (ht : Turn cfg v t t' fs b) (h : t'.Has id) :
    id.initiatorIsServer ≠ cfg.isServer := by
  cases ht with
  | @frame f hl hf =>
      cases f with
      | openUni i =>
          simp only [handleFrame] at h
          split_ifs at h with hd hi
          · exact (Ret.has_resume h).elim
          · exact (Ret.has_resume h).elim
          · exact h ▸ hi
      | openBi i =>
          simp only [handleFrame] at h
          split_ifs at h with hd hi
          · exact (Ret.has_resume h).elim
          · exact (Ret.has_resume h).elim
          · exact h ▸ hi
      | stream i data fin =>
          simp only [handleFrame] at h
          split_ifs at h
          · exact (Ret.has_resume h).elim
          · exact h.elim
      | _ => exact h.elim
  | refuse hl code reason => exact (Ret.has_resume h).elim
  | _ => exact h.elim

/-- A call has a stream that the application has. -/
theorem Call.has_start {c : Call} {u : Use} (hc : c.start m = some (u, a, t)) (h : t.Has id) :
    ∃ b, m.offers b id := by
  cases Call.starts_of_start hc with
  | stop hh => exact ⟨true, .inr (h ▸ hh)⟩
  | read hh api n => exact ⟨true, .inr (h ▸ hh)⟩
  | @dropRecv i hh =>
      obtain rfl : i = id := h.resolve_right fun hf => hf
      exact ⟨true, .inr hh⟩
  | @dropSend k x hx hh =>
      exact ⟨false, .inr ⟨x, List.mem_of_getElem? hx, hh, h.resolve_right fun hf => hf⟩⟩
  | _ =>
      first
      | exact h.elim
      | exact ⟨false, .inr ⟨_, List.mem_of_getElem? ‹_›, ‹_›, h⟩⟩

/-! ## Streams whose open is not published -/

/-- The open of a stream is in the queue's history. -/
def Memory.IsOpened (m : Memory) (id : StreamId) : Prop := ∃ dir, m.HasOpened dir id

theorem Memory.IsOpened.apply (h : m.IsOpened id) (a : Access) : (m.apply a).IsOpened id := by
  obtain ⟨dir, f, hf, ho⟩ := h
  refine ⟨dir, f, ?_, ho⟩
  rw [Memory.admitted_apply]
  exact List.mem_append_left _ hf

/-- A failed open gives its stream up, whose receive direction is no longer in the table. -/
def Task.Undoes (m : Memory) (id : StreamId) : Task → Prop
  | .undoRecv i => i = id
  | .undoFlow i bi => i = id ∧ (bi = true → id ∉ m.recvs.streams)
  | .dropRecv i .done => i = id ∧ id ∉ m.recvs.streams
  | _ => False

/-- A function that opens a stream and has not published the open, or gives the stream up. -/
def Task.Alone (m : Memory) (id : StreamId) (t : Task) : Prop :=
  (∃ dir, t.opening = some (dir, id)) ∨ t.Undoes m id

/-- An open that failed is given up. -/
theorem SendSite.undoes_resume {s : SendSite} {dir : StreamDir} (ho : s.opening = some (dir, id)) :
    (s.resume cfg false).Undoes m id := by
  cases s with
  | openUni i =>
      cases ho
      exact ⟨rfl, nofun⟩
  | openBi i =>
      cases ho
      exact Eq.refl id
  | _ => cases ho

/-- **An open that is in progress** is published or given up. -/
theorem Task.alone_next (ht : t.Alone m id) (hn : t.next cfg m = some (a, t')) (h : t'.Has id) :
    (m.apply a).IsOpened id ∨ t'.Alone (m.apply a) id := by
  rcases ht with ⟨dir, ho⟩ | hu
  · cases t with
    | registerSendFlow d i =>
        simp only [Task.next] at hn
        split at hn
        · cases hn
          exact h.elim
        · cases d <;> cases hn <;> cases ho <;> exact .inr (.inl ⟨_, rfl⟩)
    | registerRecvStream i =>
        cases hn
        cases ho
        exact .inr (.inl ⟨_, rfl⟩)
    | anyOf flags c =>
        cases c with
        | send s =>
            cases flags with
            | nil =>
                cases hn
                exact .inr (.inl ⟨dir, ho⟩)
            | cons f fs =>
                simp only [Task.next] at hn
                split_ifs at hn <;> cases hn
                · exact .inr (.inr (SendSite.undoes_resume ho))
                · exact .inr (.inl ⟨dir, ho⟩)
                · exact .inr (.inl ⟨dir, ho⟩)
        | _ => cases ho
    | reserve s =>
        simp only [Task.next] at hn
        split_ifs at hn <;> cases hn
        · exact .inr (.inr (SendSite.undoes_resume ho))
        · exact .inr (.inl ⟨dir, ho⟩)
    | publish s =>
        -- an open is not refused, as a `Stream` frame would be
        left
        have hframe : opened (s.frame cfg) = some (dir, id) := by
          cases s <;> exact ho
        have hmay : m.sends.mayPublish (s.frame cfg) = true := by
          cases s <;> first | rfl | cases ho
        simp only [Task.next, hmay, if_true] at hn
        cases hn
        refine ⟨dir, s.frame cfg, ?_, hframe⟩
        rw [Memory.admitted_apply]
        exact List.mem_append_right _ List.mem_cons_self
    | _ => cases ho
  · cases t with
    | undoRecv i =>
        cases hn
        cases hu
        exact .inr (.inr ⟨rfl, fun _ => Finset.notMem_erase _ _⟩)
    | undoFlow i bi =>
        obtain ⟨rfl, hout⟩ := hu
        simp only [Task.next] at hn
        split_ifs at hn with hb <;> cases hn
        · exact .inr (.inr ⟨rfl, hout hb⟩)
        · exact h.elim
    | dropRecv i k =>
        cases k with
        | done =>
            obtain ⟨rfl, hout⟩ := hu
            simp only [Task.next, hout, if_false] at hn
            cases hn
            exact h.elim
        | _ => exact hu.elim
    | _ => exact hu.elim

/-- An open in progress gives the application nothing. -/
theorem Task.not_hands_of_alone (ht : t.Alone m id) (hn : t.next cfg m = some (a, t')) {b : Bool} :
    ¬ a.Hands m b i := by
  rcases ht with ⟨dir, ho⟩ | hu
  · cases t with
    | anyOf flags c =>
        cases flags with
        | nil =>
            cases hn
            exact fun h => h
        | cons f fs =>
            simp only [Task.next] at hn
            split_ifs at hn <;> cases hn <;> exact fun h => h
    | registerSendFlow d i =>
        simp only [Task.next] at hn
        split at hn
        · cases hn
          exact fun h => h
        · cases d <;> cases hn <;> exact fun h => h
    | reserve s =>
        simp only [Task.next] at hn
        split_ifs at hn <;> cases hn <;> exact fun h => h
    | publish s =>
        simp only [Task.next] at hn
        split_ifs at hn <;> cases hn <;> exact fun h => h
    | registerRecvStream i =>
        cases hn
        exact fun h => h
    | _ => cases ho
  · cases t with
    | undoRecv i =>
        cases hn
        exact fun h => h
    | undoFlow i bi =>
        simp only [Task.next] at hn
        split_ifs at hn <;> cases hn <;> exact fun h => h
    | dropRecv i k =>
        simp only [Task.next] at hn
        split_ifs at hn <;> cases hn <;> exact fun h => h
    | _ => exact hu.elim

theorem Task.not_alone_of_aborted (ha : t.aborted = some t') : ¬ t.Alone m id := by
  rintro (⟨dir, ho⟩ | hu)
  · cases t with
    | reserve s => cases s <;> first | (cases ho; done) | cases ha
    | _ => first | (cases ho; done) | cases ha
  · cases t <;> first | exact hu | cases ha

/-- A stream that a function will hand over, it has. -/
theorem Task.has_of_promises {b : Bool} (h : t.promises b = some id) : t.Has id := by
  have hsite : ∀ {s : SendSite}, s.promises b = some id → s.stream = id := by
    intro s hs
    cases s with
    | openUni i => cases b <;> cases hs; rfl
    | openBi i =>
        cases hs
        rfl
    | openCredit i =>
        cases hs
        rfl
    | _ => cases hs
  cases t with
  | anyOf flags c =>
      cases c with
      | send s =>
          simp only [Task.promises] at h
          split_ifs at h
          exact hsite h
      | _ => cases h
  | reserve s => exact hsite h
  | publish s => exact hsite h
  | openReturn dir i => cases dir <;> cases b <;> cases h <;> exact Eq.refl id
  | holdRecv i => cases b <;> cases h; exact Eq.refl id
  | holdSend x i =>
      cases h
      exact Eq.refl id
  | acceptSend i x => cases x <;> cases b <;> cases h <;> exact Eq.refl id
  | _ => cases h

/-- A function that gives its stream up has its receive direction, if there was one. -/
theorem Task.Undoes.keep (hu : t.Undoes m id) {m' : Memory}
    (hkeep : (t.recvRole id).uses = true → id ∉ m.recvs.streams → id ∉ m'.recvs.streams) :
    t.Undoes m' id := by
  cases t with
  | undoRecv i => exact hu
  | undoFlow i bi =>
      obtain ⟨rfl, hout⟩ := hu
      refine ⟨rfl, fun hb => ?_⟩
      subst hb
      exact hkeep (by simp [Task.recvRole, RecvRole.on, RecvRole.uses, RecvRole.owns]) (hout rfl)
  | dropRecv i k =>
      cases k with
      | done =>
          obtain ⟨rfl, hout⟩ := hu
          exact ⟨rfl, hkeep (by simp [Task.recvRole, RecvRole.uses, RecvRole.owns]) hout⟩
      | _ => exact hu.elim
  | _ => exact hu.elim

/-! ## Frames about a stream -/

/-- A frame about a stream that does not open it. -/
def About (id : StreamId) : Frame → Prop
  | .stream i _ _ => i = id
  | .resetStream i _ => i = id
  | .stopSending i _ => i = id
  | .maxStreamData i _ => i = id
  | _ => False

/-- A frame that opens a stream. -/
def Opens (id : StreamId) (f : Frame) : Prop := ∃ dir, opened f = some (dir, id)

/-- A function that publishes a frame about a stream has the stream, and does not open it. -/
theorem Task.Admits.has {f : Frame} (h : Task.Admits cfg t f) (hf : About id f) :
    t.Has id ∧ ¬ t.Alone m id := by
  cases h with
  | publish s =>
      refine ⟨?_, ?_⟩
      · cases s <;> first | exact hf | exact hf.elim
      · rintro (⟨dir, ho⟩ | hu)
        · cases s <;> first | exact hf.elim | cases ho
        · exact hu
  | trySend s k =>
      refine ⟨?_, ?_⟩
      · cases s <;> exact .inl hf
      · rintro (⟨dir, ho⟩ | hu)
        · cases ho
        · exact hu
  | pollWrite c =>
      refine ⟨hf, ?_⟩
      rintro (⟨dir, ho⟩ | hu)
      · cases ho
      · exact hu
  | pollShutdown x i =>
      refine ⟨hf, ?_⟩
      rintro (⟨dir, ho⟩ | hu)
      · cases ho
      · exact hu

/-- **The open comes first**: a function that has the stream opens it, or the open is published; the
application has the stream only behind the open; and so have the frames about it in the queue. -/
structure OpenedFirst (v : View) (id : StreamId) : Prop where
  tasks : ∀ t ∈ v.tasks, t.Has id → v.mem.IsOpened id ∨ t.Alone v.mem id
  offers : ∀ b, v.mem.offers b id → v.mem.IsOpened id
  order : Precedes (Opens id) (About id) v.mem.chan.admitted

theorem OpenedFirst.order_moves (hinv : OpenedFirst v id) (h : Moves cfg v who v') :
    Precedes (Opens id) (About id) v'.mem.chan.admitted := by
  rcases h.admitted with heq | ⟨i, t, t', a, f, -, hi, hn, ha, -, heq⟩
  · rw [heq]
    exact hinv.order
  · rw [heq]
    refine hinv.order.concat fun hf => ?_
    obtain ⟨hhas, halone⟩ := (Task.admits hn ha).has (m := v.mem) hf
    obtain ⟨dir, f, hf, ho⟩ :=
      (hinv.tasks t (List.mem_of_getElem? hi) hhas).resolve_right halone
    exact ⟨f, hf, dir, ho⟩

/-- What the application has after a step. -/
theorem OpenedFirst.offers_moves (hinv : OpenedFirst v id) (hnm : HandleNames v)
    (h : Moves cfg v who v') (b : Bool) (ho : v'.mem.offers b id) : v'.mem.IsOpened id := by
  cases h with
  | @next i t t' a hi hn =>
      have hmem := List.mem_of_getElem? hi
      rcases Memory.offers_apply ho with ho | hh
      · exact (hinv.offers b ho).apply a
      · rcases Task.hands_next (hnm.tasks t hmem) hn hh with hp | ho
        · rcases hinv.tasks t hmem (Task.has_of_promises hp) with ho | halone
          · exact ho.apply a
          · exact absurd hh (Task.not_hands_of_alone halone hn)
        · exact (hinv.offers b ho).apply a
  | exit hi => exact (hinv.offers b ho).apply _
  | spawn hc =>
      rcases Memory.offers_apply ho with ho | hh
      · exact (hinv.offers b ho).apply _
      · exact (hinv.offers b ((Call.promises_start hc).2 hh)).apply _
  | loop ha hb =>
      rcases Memory.offers_apply ho with ho | hh
      · exact (hinv.offers b ho).apply _
      · cases ha <;> cases hh
  | _ => exact hinv.offers b ho

/-- **A step that cancels no operation keeps the order**, for a stream of this session: the peer stops
a stream only when its open is published. -/
theorem OpenedFirst.moves (hinv : OpenedFirst v id) (hnm : HandleNames v)
    (hown : id.initiatorIsServer = cfg.isServer) (h : CalmMoves cfg v who v')
    (hstop : ∀ code, .stopFlow id code ∈ v.tasks → v.mem.IsOpened id)
    (hkeep : ∀ t ∈ v.tasks, (t.recvRole id).uses = true → id ∉ v.mem.recvs.streams →
      id ∉ v'.mem.recvs.streams) : OpenedFirst v' id := by
  refine ⟨?_, hinv.offers_moves hnm h.moves, hinv.order_moves h.moves⟩
  -- a function that a step does not concern
  have hold : ∀ {a : Access}, v'.mem = v.mem.apply a → ∀ t ∈ v.tasks, t.Has id →
      v'.mem.IsOpened id ∨ t.Alone v'.mem id := by
    intro a hm t ht hh
    rcases hinv.tasks t ht hh with ho | ho | hu
    · rw [hm]
      exact .inl (ho.apply a)
    · exact .inr (.inl ho)
    · exact .inr (.inr (hu.keep (hkeep t ht)))
  cases h with
  | @next i t t' a hi hn =>
      have hmem := List.mem_of_getElem? hi
      refine forall_mem_set (hold rfl) fun hh => ?_
      rcases Task.has_next hn hh with hht | ho | ⟨b, hq⟩ | ⟨code, rfl⟩
      · rcases hinv.tasks t hmem hht with ho | halone
        · exact .inl (ho.apply a)
        · exact Task.alone_next halone hn hh
      · exact .inr (.inl ho)
      · exact .inl ((hinv.offers b (.inl hq)).apply a)
      · exact .inl ((hstop code hmem).apply a)
  | timeout hi hc => exact forall_mem_set (hold (a := .skip) rfl) fun hh => absurd hh (Task.has_timedOut hc)
  | @abort who t t' hi ha =>
      refine forall_mem_set (hold (a := .skip) rfl) fun hh => ?_
      rcases hinv.tasks t (List.mem_of_getElem? hi) (Task.has_aborted ha hh) with ho | halone
      · exact .inl ho
      · exact absurd halone (Task.not_alone_of_aborted ha)
  | turn hi ht => exact forall_mem_set (hold (a := .skip) rfl) fun hh => absurd hown (ht.has hh)
  | exit hi => exact forall_mem_set (hold (a := .chan .dropRx) rfl) fun hh => hh.elim
  | spawn hc =>
      refine forall_mem_concat (hold rfl) fun hh => ?_
      obtain ⟨b, ho⟩ := Call.has_start hc hh
      exact .inl ((hinv.offers b ho).apply _)
  | loop ha hb => exact hold rfl

/-! ## Runs -/

section Run

variable {ok : Session → Label → Prop} {s s' : Session} {l : Label}

/-- A step of a run keeps the order, unless it cancels an operation. -/
theorem OpenedFirst.step (hinv : OpenedFirst s.view id) (hr : Reachable (Session.step cfg) ok {} s)
    (hown : id.initiatorIsServer = cfg.isServer) (hl : ∀ i, l ≠ .cancelOp i) (hok : ok s l)
    (hs : s.step cfg l = some s')
    (hstop : ∀ code, .stopSending id code ∈ s.inb.handled → s.mem.IsOpened id) :
    OpenedFirst s'.view id := by
  have howner := (recvsInv_of_reachable hr).owner id
  refine hinv.moves (handleNames_of_reachable hr) hown (Session.calmMoves_of_step hl hs) ?_ ?_
  · intro code ht
    rcases handling_of_inHandle hr ht rfl with hf | ⟨f, hf, hh⟩
    · cases hf
    · cases hh
      exact hstop code hf
  · intro t ht huses hout
    have hreg := howner.uses_registered _ (List.mem_map_of_mem (f := Task.recvRole id) ht) huses
    have hin := howner.removed_stable (recvPoolStep_of_step hr hok hs id) hreg
      (decide_eq_false hout)
    exact of_decide_eq_false hin

theorem openedFirst_init (id : StreamId) : OpenedFirst ({} : Session).view id where
  tasks := by
    intro t ht hh
    have hmem : t ∈ [Task.done, Task.done] := ht
    obtain rfl : t = .done := by simpa using hmem
    exact hh.elim
  offers := by
    rintro b ((⟨-, h⟩ | ⟨x, h⟩) | h)
    · cases h
    · cases h
    · cases b with
      | true => cases h
      | false =>
          obtain ⟨x, hx, -⟩ := h
          cases hx
  order := .nil

/-- A stream whose open is in the queue was registered. -/
theorem send_registered_of_opened (hr : Reachable (Session.step cfg) ok {} s)
    (ho : s.mem.IsOpened id) : id ∈ s.mem.sends.registered := by
  refine hr.invariant (I := fun s => s.mem.IsOpened id → id ∈ s.mem.sends.registered) ?_ ?_ ho
  · rintro ⟨dir, f, hf, -⟩
    cases hf
  · rintro s l s' hr h - hs ⟨dir, f, hf, ho⟩
    have hm := Session.moves_of_step hs
    have hold : id ∈ s.mem.sends.registered → id ∈ s'.mem.sends.registered := by
      obtain ⟨a, ha⟩ := hm.mem_eq
      intro hid
      show id ∈ s'.view.mem.sends.registered
      rw [ha]
      exact Memory.sendRegistered_apply a hid
    rcases hm.admitted with heq | ⟨i, t, t', a, g, -, hi, hn, ha, -, heq⟩
    · exact hold (h ⟨dir, f, heq ▸ hf, ho⟩)
    · rw [show s'.mem.chan.admitted = _ from heq] at hf
      rcases List.mem_append.1 hf with hf | hf
      · exact hold (h ⟨dir, f, hf, ho⟩)
      · -- the function that publishes the open has registered the stream
        cases List.mem_singleton.1 hf
        have hmem : t ∈ s.tasks := List.mem_of_getElem? hi
        refine hold (List.count_pos_iff.1 (((sendsInv_of_reachable hr).send id).uses_registered _
          (List.mem_map_of_mem (f := Task.sendRole id) hmem) ?_))
        cases Task.admits hn ha with
        | publish s =>
            cases s <;> cases ho <;>
              simp [Task.sendRole, SendSite.sendRole, SendRole.on, SendRole.uses]
        | trySend s k => cases s <;> cases ho
        | pollWrite c => cases ho
        | pollShutdown x i => cases ho

end Run

end WebsockMux.Native
