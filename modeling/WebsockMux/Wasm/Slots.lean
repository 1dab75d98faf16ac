import WebsockMux.Wasm.Guarantees
import WebsockMux.Wasm.Sending

/-!
# The bound of the outbound channel

A sender of the channel that exceeds the buffer is parked until the session task takes an item, so
the channel holds at most the buffer and one item for each sender that may be parked. Those senders
are the session's own and one for each `SendStream`, as long as no parked sender goes away
(`queue_bounded`). `write_buf` clones a sender for each call and drops it when it returns, so each
call has a fresh slot, and the channel grows with the number of calls
(`write_buf_exceeds_bound`).
-/

set_option autoImplicit false

namespace WebsockMux.Wasm

open WebsockMux.Lib WebsockMux.Proto
open WebsockMux.Native (Limits)

variable {l : Limits} {m m' : Memory} {s s' : Session} {label : Label} {p : May}

/-! ## Parked senders and their owners -/

/-- Every parked sender is the session's own or that of a live `SendStream`. -/
structure Slots (l : Limits) (m : Memory) : Prop where
  chan : m.chan.Slotted l.outboundQueueLen
  session : 0 < m.chan.parked.length
  handle : ∀ x ∈ m.handles, x.outbound < m.chan.parked.length
  owned : ∀ i ∈ m.chan.parkedQueue, i = 0 ∨ ∃ x ∈ m.handles, x.live = true ∧ x.outbound = i

/-- The sender of the handle `h` is not parked, unless it is the session's own. -/
def Idle (m : Memory) (h : Nat) : Prop :=
  ∀ x, m.handles[h]? = some x → x.outbound ∈ m.chan.parkedQueue → x.outbound = 0

/-- What a function needs that is about to act: the handles that it may drop are idle, and it puts
frames into the channel through the session's own sender, or drops nothing and uses that of a live
handle. -/
structure Ready (l : Limits) (p : May) (m : Memory) : Prop where
  slots : Slots l m
  idle : ∀ k, p.release k → Idle m k
  sender : ∀ i f, p.put i f →
    i = 0 ∨ (∀ k, ¬ p.release k) ∧ ∃ x ∈ m.handles, x.live = true ∧ x.outbound = i

theorem Ready.congr (h : Ready l p m) (hc : m'.chan = m.chan) (hh : m'.handles = m.handles) :
    Ready l p m' := by
  obtain ⟨⟨h1, h2, h3, h4⟩, h5, h6⟩ := h
  unfold Idle at h5
  rw [← hc] at h1 h2 h3 h4 h5
  rw [← hh] at h3 h4 h5 h6
  exact ⟨⟨h1, h2, h3, h4⟩, h5, h6⟩

theorem Ready.sender_lt (h : Ready l p m) {i : Nat} {f : Frame} (hp : p.put i f) :
    i < m.chan.parked.length := by
  rcases h.sender i f hp with rfl | ⟨-, x, hx, -, rfl⟩
  · exact h.slots.session
  · exact h.slots.handle x hx

/-- A frame is put into the channel. -/
theorem Ready.put (h : Ready l p m) {i : Nat} {f : Frame} (hp : p.put i f)
    (hs : m.chan.canSend i = true) :
    Ready l p { m with chan := m.chan.push l.outboundQueueLen i f } := by
  have hfree : m.chan.isParked i = false := by
    simp only [ParkingChannel.canSend, Bool.and_eq_true, Bool.not_eq_true'] at hs
    exact hs.2
  refine ⟨⟨h.slots.chan.push (h.sender_lt hp) hfree, ?_, ?_, ?_⟩, ?_, h.sender⟩
  · rw [ParkingChannel.length_parked_push]
    exact h.slots.session
  · intro x hx
    rw [ParkingChannel.length_parked_push]
    exact h.slots.handle x hx
  · intro j hj
    rcases ParkingChannel.parkedQueue_push hj with hj | rfl
    · exact h.slots.owned j hj
    · exact (h.sender j f hp).imp_right And.right
  · intro k hk x hx hout
    rcases ParkingChannel.parkedQueue_push hout with hout | hout
    · exact h.idle k hk x hx hout
    · -- only the session's own sender is used where a handle may be dropped
      rcases h.sender i f hp with hi | ⟨hnone, -⟩
      · exact hout.trans hi
      · exact absurd hk (hnone k)

theorem Ready.clone (h : Ready l p m) : Ready l p { m with chan := m.chan.clone.1 } := by
  have hlen : m.chan.clone.1.parked.length = m.chan.parked.length + 1 := by
    simp [ParkingChannel.clone]
  refine ⟨⟨h.slots.chan.clone, ?_, ?_, h.slots.owned⟩, h.idle, h.sender⟩
  · rw [hlen]
    omega
  · intro x hx
    have hx := h.slots.handle x hx
    rw [hlen]
    omega

/-- A new `SendStream` has a clone of the session's sender, which is not parked. -/
theorem Ready.newSend (h : Ready l p m) (id : StreamId) (held : Bool) :
    Ready l p (m.newSend id held).1 := by
  have hc := h.clone
  refine ⟨⟨hc.slots.chan, hc.slots.session, ?_, ?_⟩, ?_, ?_⟩
  · intro x hx
    rcases List.mem_append.1 hx with hx | hx
    · exact hc.slots.handle x hx
    · rw [List.mem_singleton.1 hx]
      simp [Memory.newSend, ParkingChannel.clone]
  · intro i hi
    refine (hc.slots.owned i hi).imp_right ?_
    rintro ⟨x, hx, hlive⟩
    exact ⟨x, List.mem_append_left _ hx, hlive⟩
  · intro k hk x hx hout
    have hx : (m.handles ++ [⟨id, m.chan.clone.2, false, true, held⟩])[k]? = some x := hx
    rw [List.getElem?_append] at hx
    split_ifs at hx with hlt
    · exact h.idle k hk x hx hout
    · -- the clone has a number that no parked sender has
      have hnew := List.mem_singleton.1 (List.mem_of_getElem? hx)
      rw [hnew] at hout
      exact absurd (h.slots.chan.lt_length hout) (Nat.lt_irrefl _)
  · intro i f hp
    refine (h.sender i f hp).imp_right ?_
    rintro ⟨hnone, x, hx, hlive⟩
    exact ⟨hnone, x, List.mem_append_left _ hx, hlive⟩

theorem getElem?_modify_eq {hs : List SendStream} {h k : Nat} {g : SendStream → SendStream}
    {y : SendStream} (hy : (hs.modify h g)[k]? = some y) :
    ∃ x, hs[k]? = some x ∧ (y = x ∨ k = h ∧ y = g x) := by
  rw [List.getElem?_modify] at hy
  obtain ⟨x, hx, hy⟩ := Option.map_eq_some_iff.1 hy
  refine ⟨x, hx, ?_⟩
  split_ifs at hy with hk
  · exact .inr ⟨hk.symm, hy.symm⟩
  · exact .inl hy.symm

/-- A handle that is changed keeps its place. -/
theorem exists_getElem?_modify {hs : List SendStream} {h k : Nat} {g : SendStream → SendStream}
    {x : SendStream} (hx : hs[k]? = some x) :
    (hs.modify h g)[k]? = some (if h = k then g x else x) := by
  rw [List.getElem?_modify, hx]
  split_ifs <;> rfl

theorem Ready.touch (h : Ready l p m) (k : Nat) {g : SendStream → SendStream}
    (hg : ∀ x, (g x).id = x.id ∧ (g x).outbound = x.outbound ∧ (g x).live = x.live) :
    Ready l p { m with handles := m.handles.modify k g } := by
  -- the handles before and after have the same senders, and the same are live
  have hback : ∀ {j : Nat} {y : SendStream}, (m.handles.modify k g)[j]? = some y →
      ∃ x, m.handles[j]? = some x ∧ y.outbound = x.outbound := by
    intro j y hy
    obtain ⟨x, hx, rfl | ⟨-, rfl⟩⟩ := getElem?_modify_eq hy
    · exact ⟨y, hx, rfl⟩
    · exact ⟨x, hx, (hg x).2.1⟩
  have hforth : ∀ {i : Nat}, (∃ x ∈ m.handles, x.live = true ∧ x.outbound = i) →
      ∃ x ∈ m.handles.modify k g, x.live = true ∧ x.outbound = i := by
    rintro i ⟨x, hx, hlive, hout⟩
    obtain ⟨j, hj⟩ := List.getElem?_of_mem hx
    refine ⟨_, List.mem_of_getElem? (exists_getElem?_modify hj), ?_⟩
    split_ifs
    · exact ⟨(hg x).2.2.trans hlive, (hg x).2.1.trans hout⟩
    · exact ⟨hlive, hout⟩
  refine ⟨⟨h.slots.chan, h.slots.session, ?_, ?_⟩, ?_, ?_⟩
  · intro y hy
    obtain ⟨j, hj⟩ := List.getElem?_of_mem hy
    obtain ⟨x, hx, hout⟩ := hback hj
    rw [hout]
    exact h.slots.handle x (List.mem_of_getElem? hx)
  · exact fun i hi => (h.slots.owned i hi).imp_right hforth
  · intro j hj y hy hout
    obtain ⟨x, hx, heq⟩ := hback hy
    rw [heq] at hout ⊢
    exact h.idle j hj x hx hout
  · exact fun i f hp => (h.sender i f hp).imp_right (And.imp_right hforth)

/-- An idle handle is dropped. -/
theorem Ready.release (h : Ready l p m) {k : Nat} (hk : p.release k) :
    Ready l p (m.releaseSend k) := by
  have hback : ∀ {j : Nat} {y : SendStream}, (m.releaseSend k).handles[j]? = some y →
      ∃ x, m.handles[j]? = some x ∧ y.outbound = x.outbound := by
    intro j y hy
    obtain ⟨x, hx, rfl | ⟨-, rfl⟩⟩ := getElem?_modify_eq hy
    · exact ⟨y, hx, rfl⟩
    · exact ⟨x, hx, rfl⟩
  refine ⟨⟨h.slots.chan, h.slots.session, ?_, ?_⟩, ?_, ?_⟩
  · intro y hy
    obtain ⟨j, hj⟩ := List.getElem?_of_mem hy
    obtain ⟨x, hx, hout⟩ := hback hj
    rw [hout]
    exact h.slots.handle x (List.mem_of_getElem? hx)
  · intro i hi
    rcases h.slots.owned i hi with h0 | ⟨x, hx, hlive, hout⟩
    · exact .inl h0
    · obtain ⟨j, hj⟩ := List.getElem?_of_mem hx
      by_cases hkj : k = j
      · -- the sender of the dropped handle is parked only if it is the session's own
        rw [← hout] at hi ⊢
        exact .inl (h.idle k hk x (hkj ▸ hj) hi)
      · have hmem := exists_getElem?_modify (h := k)
          (g := fun x => { x with live := false, held := false }) hj
        rw [if_neg hkj] at hmem
        exact .inr ⟨x, List.mem_of_getElem? hmem, hlive, hout⟩
  · intro j hj y hy hout
    obtain ⟨x, hx, heq⟩ := hback hy
    rw [heq] at hout ⊢
    exact h.idle j hj x hx hout
  · exact fun i f hp => (h.sender i f hp).imp_right fun hs => absurd hk (hs.1 k)

/-- **Actions keep the owners of parked senders.** -/
theorem Acts.ready (ha : Acts l p m m') (h : Ready l p m) : Ready l p m' := by
  induction ha with
  | quiet hq => exact h.congr hq.chan hq.handles
  | put hp hs => exact h.put hp hs
  | close m => exact ⟨⟨⟨h.slots.chan.1, h.slots.chan.2, h.slots.chan.3⟩, h.slots.session,
      h.slots.handle, h.slots.owned⟩, h.idle, h.sender⟩
  | clone m => exact h.clone
  | newSend held hp => exact h.newSend _ held
  | touch k hg => exact h.touch k hg
  | release hp => exact h.release hp
  | hold hp => exact h.congr rfl rfl
  | offer k hp => exact h.congr rfl rfl
  | credit hp => exact h.congr rfl rfl
  | trans _ _ ih ih' => exact ih' (ih h)

/-! ## Runs that keep parked senders -/

/-- The sender of a handle is parked. -/
def Memory.senderParked (m : Memory) (h : Nat) : Bool :=
  (m.handles[h]?).any fun x => m.chan.isParked x.outbound

/-- The step puts the next chunk of a `write_buf` into the channel, if the channel takes it. -/
def Session.putsChunk (s : Session) : Label → Bool
  | .pollWriteBuf i => ((s.writes[i]?).join.bind Write.grant).isSome
  | _ => false

/-- No `SendStream` is dropped while its sender is parked, and a `write_buf` puts its chunks into
the channel while the buffer has room. -/
def keepsParked (l : Limits) (s : Session) (label : Label) : Prop :=
  (∀ h ∈ s.releases label, s.mem.senderParked h = false) ∧
    (s.putsChunk label = true → s.mem.chan.queue.length < l.outboundQueueLen)

instance (l : Limits) (s : Session) (label : Label) : Decidable (keepsParked l s label) :=
  inferInstanceAs (Decidable (_ ∧ _))

theorem idle_of_not_parked (h : Slots l m) {k : Nat} (hk : m.senderParked k = false) :
    Idle m k := by
  intro x hx hout
  have hp := h.chan.parked _ hout
  unfold Memory.senderParked at hk
  rw [hx] at hk
  simp only [Option.any_some, hp] at hk
  cases hk

/-- The sender of what a step puts into the channel. -/
theorem Puts.sender {i : Nat} {f : Frame} (h : Puts l s label i f)
    (hw : s.putsChunk label = false) :
    i = 0 ∨ (∀ k, k ∉ s.releases label) ∧ ∃ x ∈ s.mem.handles, x.live = true ∧ x.outbound = i := by
  cases h with
  | chunk hi hg =>
      simp only [Session.putsChunk, hi, Option.join_some, Option.bind_some, hg, Option.isSome_some,
        Bool.true_eq_false] at hw
  | write hx hn =>
      obtain ⟨hmem, hlive⟩ := mem_of_held hx
      exact .inr ⟨nofun, _, hmem, hlive, rfl⟩
  | pollClose hx =>
      obtain ⟨hmem, hlive⟩ := mem_of_held hx
      exact .inr ⟨nofun, _, hmem, hlive, rfl⟩
  | _ => exact .inl rfl

/-- A poll of `write_buf` that has its grant puts at most one frame into the channel. -/
theorem pollWriteBuf_chan (m : Memory) {w : Write} {grant : Nat} (hg : w.grant = some grant) :
    (m.pollWriteBuf l w).1.handles = m.handles ∧ ((m.pollWriteBuf l w).1.chan = m.chan ∨
      ∃ f, (m.pollWriteBuf l w).1.chan = m.chan.push l.outboundQueueLen w.outbound f) := by
  have hback : ∀ m : Memory, ((m.release w.id grant).endOperation w.id).chan = m.chan ∧
      ((m.release w.id grant).endOperation w.id).handles = m.handles := by
    intro m
    unfold Memory.release
    split_ifs
    · exact ⟨rfl, rfl⟩
    · exact ⟨rfl, rfl⟩
  unfold Memory.pollWriteBuf
  rw [hg]
  dsimp only
  split_ifs
  · exact ⟨(hback m).2, .inl (hback m).1⟩
  · split
    · exact ⟨rfl, .inl rfl⟩
    · exact ⟨(hback m).2, .inl (hback m).1⟩
    · have hsend : (m.startSend l w.outbound (.stream w.id (w.data.take grant) false)).1.handles =
          m.handles ∧
          ((m.startSend l w.outbound (.stream w.id (w.data.take grant) false)).1.chan = m.chan ∨
            ∃ f, (m.startSend l w.outbound (.stream w.id (w.data.take grant) false)).1.chan =
              m.chan.push l.outboundQueueLen w.outbound f) := by
        refine ⟨rfl, ?_⟩
        unfold Memory.startSend
        rcases ParkingChannel.trySend_cases l.outboundQueueLen m.chan w.outbound
          (.stream w.id (w.data.take grant) false) with ⟨-, h⟩ | ⟨-, h, -⟩
        · exact .inr ⟨_, congrArg Prod.fst h⟩
        · exact .inl h
      split
      · next heq => rwa [heq] at hsend
      · next m₁ heq =>
          rw [heq] at hsend
          obtain ⟨hc, hh⟩ := hback m₁
          rw [← hc, ← hh] at hsend
          exact hsend

/-- A frame is put into the channel while its buffer has room. -/
theorem Slots.push_of_lt (h : Slots l m) {i : Nat} {f : Frame}
    (hlen : m.chan.queue.length < l.outboundQueueLen) (hc : m'.chan = m.chan.push l.outboundQueueLen i f)
    (hh : m'.handles = m.handles) : Slots l m' := by
  obtain ⟨hs, hq⟩ := h.chan.push_of_lt (i := i) (x := f) hlen
  refine ⟨hc ▸ hs, ?_, ?_, ?_⟩
  · rw [hc, ParkingChannel.length_parked_push]
    exact h.session
  · rw [hc, hh, ParkingChannel.length_parked_push]
    exact h.handle
  · rw [hc, hh, hq]
    exact h.owned

/-- The receiver takes items. -/
theorem Slots.pops (h : Slots l m) : Slots l { m with chan := m.chan.pop } := by
  have hlen : m.chan.pop.parked.length = m.chan.parked.length := by
    unfold ParkingChannel.pop
    cases m.chan.parkedQueue with
    | nil => rfl
    | cons k rest => exact List.length_set
  refine ⟨h.chan.pop, ?_, ?_, fun i hi => h.owned i (List.mem_of_mem_tail hi)⟩
  · rw [hlen]
    exact h.session
  · intro x hx
    rw [hlen]
    exact h.handle x hx

theorem Slots.sendBatch (h : Slots l s.mem) {f : Frame} (hs : s.sendBatch l f = some s') :
    Slots l s'.mem := by
  unfold Session.sendBatch at hs
  split at hs
  · cases hs
  · split at hs
    · cases hs
    · next hb =>
        cases hs
        exact collect_pops (K := fun c => Slots l { s.mem with chan := c })
          (fun c hc => hc.pops) hb h

theorem Slots.out (h : Slots l s.mem) {credit : Option StreamId} (hs : s.out l credit = some s') :
    Slots l s'.mem := by
  unfold Session.out at hs
  split at hs
  · split at hs
    · exact Slots.sendBatch (s := { s with pendingFrame := none }) h hs
    · split at hs
      · exact Slots.sendBatch h.pops hs
      · split_ifs at hs
        cases hs
        exact h
  · split_ifs at hs
    refine Slots.sendBatch ?_ hs
    exact ⟨h.chan, h.session, h.handle, h.owned⟩

/-- A chunk is put into a channel whose buffer has room. -/
theorem Slots.chunk (h : Slots l s.mem) (hw : s.putsChunk label = true)
    (hlen : s.mem.chan.queue.length < l.outboundQueueLen) (hs : s.step l label = some s') :
    Slots l s'.mem := by
  cases label with
  | pollWriteBuf i =>
      simp only [Session.step] at hs
      split at hs
      · next w hi =>
          cases hs
          obtain ⟨grant, hg⟩ : ∃ grant, w.grant = some grant := by
            simpa [Session.putsChunk, hi, Option.isSome_iff_exists] using hw
          have hslots : Slots l (s.mem.pollWriteBuf l w).1 := by
            obtain ⟨hh, hc | ⟨f, hc⟩⟩ := pollWriteBuf_chan (l := l) s.mem hg
            · obtain ⟨h1, h2, h3, h4⟩ := h
              rw [← hc] at h1 h2 h3 h4
              rw [← hh] at h3 h4
              exact ⟨h1, h2, h3, h4⟩
            · exact h.push_of_lt hlen hc hh
          unfold Session.pollWriteBuf
          split
          all_goals
            next heq => rwa [heq] at hslots
      · cases hs
  | _ => cases hw

theorem slots_step (hok : keepsParked l s label) (h : Slots l s.mem)
    (hs : s.step l label = some s') : Slots l s'.mem := by
  cases ht : label.takes with
  | true =>
      cases label with
      | out credit =>
          simp only [Session.step] at hs
          split at hs
          · exact h.out hs
          · cases hs
      | connClosed =>
          simp only [Session.step] at hs
          split at hs
          · cases hs
            have hrx : Slots l { s.mem with chan := s.mem.chan.dropRx } := by
              refine ⟨.dropRx _, ?_, ?_, by rintro _ ⟨⟩⟩
              · simpa [ParkingChannel.dropRx] using h.session
              · simpa [ParkingChannel.dropRx] using h.handle
            have hready : Ready l ⟨fun _ _ => False, fun _ => False, fun _ => False,
                fun _ _ => False⟩ { s.mem with chan := s.mem.chan.dropRx } := 
              ⟨hrx, fun _ h => h.elim, fun _ _ h => h.elim⟩
            have hc := (Acts.closeAll _).ready hready
            exact ⟨hc.slots.chan, hc.slots.session, hc.slots.handle, hc.slots.owned⟩
          · cases hs
      | _ => cases ht
  | false =>
      cases hw : s.putsChunk label with
      | true => exact h.chunk hw (hok.2 hw) hs
      | false =>
          have hready : Ready l (s.may l label) s.mem :=
            ⟨h, fun k hk => idle_of_not_parked h (hok.1 k hk), fun i f hp => hp.sender hw⟩
          exact ((Session.acts_of_step ht hs).ready hready).slots

/-- The `SendStream`s that are not dropped. -/
def Memory.liveHandles (m : Memory) : Nat := m.handles.countP SendStream.live

/-- The parked senders have distinct owners. -/
theorem Slots.queue_le (h : Slots l m) :
    m.chan.queue.length ≤ l.outboundQueueLen + (1 + m.liveHandles) := by
  have howners : ∀ i ∈ m.chan.parkedQueue,
      i ∈ 0 :: (m.handles.filter SendStream.live).map SendStream.outbound := by
    intro i hi
    rcases h.owned i hi with rfl | ⟨x, hx, hlive, rfl⟩
    · exact List.mem_cons_self
    · exact List.mem_cons_of_mem _ (List.mem_map_of_mem (List.mem_filter.2 ⟨hx, hlive⟩))
  have hle := h.chan.length_le howners
  rw [List.length_cons, List.length_map, ← List.countP_eq_length_filter] at hle
  unfold Memory.liveHandles
  omega

/-- **The outbound channel is bounded** in every run that keeps parked senders: it holds at most the
buffer, one frame for the session's own sender and one for each live `SendStream`. -/
theorem queue_bounded (hr : Reachable (Session.step l) (keepsParked l) {} s) :
    s.mem.chan.queue.length ≤ l.outboundQueueLen + (1 + s.mem.liveHandles) := by
  have hinit : Slots l {} := ⟨⟨Nat.zero_le _, List.nodup_nil, nofun⟩, Nat.one_pos, nofun, nofun⟩
  have hslots : Slots l s.mem := by
    refine Reachable.invariant (I := fun s => Slots l s.mem) hinit ?_ hr
    intro s label s' _ h hok hs
    exact slots_step hok h hs
  exact hslots.queue_le

/-- Two opens fill the channel of one frame; the peer grants credit to both streams, and each of
them sends a byte through its own sender. -/
theorem queue_bounded_run :
    ∃ s, Reachable (Session.step oneFrame) (keepsParked oneFrame) {} s ∧
      s.mem.chan.queue.length = 4 ∧
      s.mem.chan.queue.length ≤ oneFrame.outboundQueueLen + (1 + s.mem.liveHandles) := by
  obtain ⟨s, hr, hs⟩ : ∃ s, Reachable (Session.step oneFrame) (keepsParked oneFrame) {} s ∧
      s.mem.chan.queue.length = 4 :=
    Reachable.exists_of_run [.openUni, .openUni, .receive (.binary [6, 2, 9, 6, 6, 9]), .frame,
      .frame, .pollWrite 0 [7], .pollWrite 1 [7]] (by decide +kernel)
  exact ⟨s, hr, hs, queue_bounded hr⟩

/-- **`write_buf` exceeds the bound.** A stream is opened on a channel of one frame and gets credit;
three calls of `write_buf` each put one byte into the channel through a sender of their own. -/
theorem write_buf_exceeds_bound :
    ∃ s, Reachable (Session.step oneFrame) anyStep {} s ∧
      ¬ s.mem.chan.queue.length ≤ oneFrame.outboundQueueLen + (1 + s.mem.liveHandles) :=
  Reachable.exists_of_run [.openUni, .receive (.binary [6, 2, 9]), .frame,
    .write 0 [7], .pollWriteBuf 0, .pollWriteBuf 0, .pollWriteBuf 0,
    .write 0 [7], .pollWriteBuf 1, .pollWriteBuf 1, .pollWriteBuf 1,
    .write 0 [7], .pollWriteBuf 2, .pollWriteBuf 2, .pollWriteBuf 2] (by decide +kernel)

end WebsockMux.Wasm
