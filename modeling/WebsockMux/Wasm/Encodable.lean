import WebsockMux.Wasm.Sending

/-!
# What a browser session enqueues can be encoded

As in a native session, the identifiers, codes and limits of the frames that a browser session puts
into its outbound channel, or queues as credit, are in the range of a varint. What a step may send
is `Puts`; the rest is that the handles, the queues and the calls of `write_buf` in progress carry
identifiers in range (`Fits`).
-/

set_option autoImplicit false

namespace WebsockMux.Wasm

open WebsockMux.Lib WebsockMux.Proto
open WebsockMux.Native (Limits IdFits FrameFits FrameSmall SmallClose RecvTable RecvQuiet
  maxWriteChunk encodable_of_fits)

variable {l : Limits} {m m' : Memory} {s s' : Session} {label : Label} {p : May}

/-! ## The state -/

/-- The identifiers and limits that the state holds for later frames are in range, and what was put
into the channel can be encoded. -/
structure Fits (m : Memory) : Prop where
  handles : ∀ x ∈ m.handles, IdFits x.id
  held : ∀ id, (m.recvs.cell id).reader.held = true → IdFits id
  uni : ∀ id ∈ m.accept.uni, IdFits id
  bi : ∀ q ∈ m.accept.bi, IdFits q.2
  credit : ∀ id ∈ m.recvs.pendingCredit, IdFits id ∧ (m.recvs.cell id).credit ≤ VarInt.max
  admitted : ∀ f ∈ m.chan.admitted, f.Encodable
  queue : ∀ f ∈ m.chan.queue, f.Encodable

/-- A `May` that keeps what is sent in range. -/
structure InRange (p : May) : Prop where
  put : ∀ i f, p.put i f → f.Encodable
  handOut : ∀ id, p.handOut id → IdFits id
  credit : ∀ id n, p.credit id n → IdFits id ∧ n ≤ VarInt.max

theorem Fits.quiet (h : Fits m) (hq : Quiet m m') : Fits m' where
  handles := hq.handles ▸ h.handles
  held id hh := h.held id (hq.recvs.held id hh)
  uni id hid := h.uni id (hq.uni hid)
  bi q hqq := h.bi q (hq.bi hqq)
  credit id hid := by
    obtain ⟨hi, hle⟩ := h.credit id (hq.recvs.pending hid)
    exact ⟨hi, (hq.recvs.credit id).trans hle⟩
  admitted := hq.chan ▸ h.admitted
  queue := hq.chan ▸ h.queue

theorem forall_append_singleton {α : Type} {P : α → Prop} {xs : List α} {x : α}
    (h : ∀ y ∈ xs, P y) (hx : P x) : ∀ y ∈ xs ++ [x], P y := by
  intro y hy
  rcases List.mem_append.1 hy with hy | hy
  · exact h y hy
  · exact List.mem_singleton.1 hy ▸ hx

theorem Fits.push (h : Fits m) {n i : Nat} {f : Frame} (hf : f.Encodable) :
    Fits { m with chan := m.chan.push n i f } := by
  have hchan : (m.chan.push n i f).admitted = m.chan.admitted ++ [f] ∧
      (m.chan.push n i f).queue = m.chan.queue ++ [f] := by
    unfold ParkingChannel.push
    split_ifs
    · exact ⟨rfl, rfl⟩
    · exact ⟨rfl, rfl⟩
  refine { h with admitted := ?_, queue := ?_ }
  · show ∀ g ∈ (m.chan.push n i f).admitted, g.Encodable
    rw [hchan.1]
    exact forall_append_singleton h.admitted hf
  · show ∀ g ∈ (m.chan.push n i f).queue, g.Encodable
    rw [hchan.2]
    exact forall_append_singleton h.queue hf

theorem Fits.modify (h : Fits m) (k : Nat) {g : SendStream → SendStream}
    (hg : ∀ x, (g x).id = x.id) : Fits { m with handles := m.handles.modify k g } := by
  refine { h with handles := ?_ }
  intro y hy
  obtain ⟨j, hj⟩ := List.getElem?_of_mem hy
  obtain ⟨x, hx, rfl⟩ := Option.map_eq_some_iff.1 ((List.getElem?_modify ..).symm.trans hj)
  have hid := h.handles x (List.mem_of_getElem? hx)
  split_ifs
  · rw [hg x]
    exact hid
  · exact hid

/-- One cell of the receive tables changes. -/
theorem Fits.ofCell {r : RecvTable} {id : StreamId} {c : Native.RecvCell} (h : Fits m)
    (hcell : r.cell = Function.update m.recvs.cell id c) (hheld : c.reader.held = true → IdFits id)
    (hother : ∀ j ∈ r.pendingCredit, j ≠ id → j ∈ m.recvs.pendingCredit)
    (hcredit : id ∈ r.pendingCredit → IdFits id ∧ c.credit ≤ VarInt.max) :
    Fits { m with recvs := r } := by
  refine { h with held := ?_, credit := ?_ }
  · intro j hj
    by_cases hji : j = id
    · subst hji
      simp only [hcell, Function.update_self] at hj
      exact hheld hj
    · simp only [hcell, Function.update_of_ne hji] at hj
      exact h.held j hj
  · intro j hj
    by_cases hji : j = id
    · subst hji
      simp only [hcell, Function.update_self]
      exact hcredit hj
    · simp only [hcell, Function.update_of_ne hji]
      exact h.credit j (hother j hj hji)

/-- **Actions in range keep the state in range.** -/
theorem Acts.fits (ha : Acts l p m m') (hp : InRange p) (h : Fits m) : Fits m' := by
  induction ha with
  | quiet hq => exact h.quiet hq
  | put hput hs => exact h.push (hp.put _ _ hput)
  | close m => exact ⟨h.handles, h.held, h.uni, h.bi, h.credit, h.admitted, h.queue⟩
  | clone m => exact ⟨h.handles, h.held, h.uni, h.bi, h.credit, h.admitted, h.queue⟩
  | newSend held hout =>
      refine ⟨?_, h.held, h.uni, h.bi, h.credit, h.admitted, h.queue⟩
      exact forall_append_singleton h.handles (hp.handOut _ hout)
  | touch k hg => exact h.modify k fun x => (hg x).1
  | release hr => exact h.modify _ fun _ => rfl
  | hold hout => exact h.ofCell rfl (fun _ => hp.handOut _ hout) (fun _ hj _ => hj) (h.credit _)
  | @offer m id k hout =>
      cases k with
      | none => exact { h with uni := forall_append_singleton h.uni (hp.handOut _ hout) }
      | some k => exact { h with bi := forall_append_singleton h.bi (hp.handOut _ hout) }
  | @credit m id n hcredit =>
      obtain ⟨hid, hn⟩ := hp.credit _ _ hcredit
      have hpruned : m.recvs.pruned l.maxOpenStreams ⊆ m.recvs.pendingCredit :=
        (RecvQuiet.apply m.recvs (a := .prune l.maxOpenStreams) rfl).pending
      refine h.ofCell rfl (h.held id) ?_ fun _ => ⟨hid, ?_⟩
      · intro j hj hji
        exact hpruned ((Finset.mem_insert.1 hj).resolve_left hji)
      · dsimp only
        split_ifs with hin
        · exact max_le (h.credit id (hpruned hin)).2 hn
        · exact hn
  | trans _ _ ih ih' => exact ih' (ih h)

/-! ## The session -/

/-- The session and the frames that its task has taken. -/
structure SessionFits (s : Session) : Prop where
  mem : Fits s.mem
  writes : ∀ (i : Nat) (w : Write), s.writes[i]? = some (some w) →
    IdFits w.id ∧ ∀ n ∈ w.grant, n ≤ maxWriteChunk
  pending : ∀ f ∈ s.pendingFrame, f.Encodable
  taken : ∀ f ∈ s.taken, f.Encodable

theorem encodable_stream {id : StreamId} (hid : IdFits id) {data : List UInt8}
    {fin : Bool} (hd : data.length ≤ maxWriteChunk) : (Frame.stream id data fin).Encodable := by
  have hmax : VarInt.max < 2 ^ 62 := by decide
  have hfin : fin.toNat ≤ 1 := Bool.toNat_le fin
  unfold maxWriteChunk at hd
  unfold IdFits at hid
  simp only [Frame.Encodable, Frame.varints, List.forall_mem_cons]
  exact ⟨by decide, by omega, by omega, by omega, List.forall_mem_nil _⟩

theorem id_of_nextStreamId {dir : StreamDir} {id : StreamId}
    (h : (m.nextStreamId dir).2 = .ok id) : IdFits id := by
  unfold Memory.nextStreamId at h
  split at h
  · next hnew =>
      cases h
      exact (StreamId.new_ok hnew).2.2.2
  · cases h

/-- The fields of a decoded frame. -/
theorem varints_le {b rest : List UInt8} {f : Frame} (h : Frame.decode 32 b = .ok (f, rest)) :
    ∀ x ∈ f.varints, x ≤ VarInt.max := by
  intro x hx
  have hlt := Frame.encodable_of_decode h x hx
  unfold VarInt.max
  omega

theorem idFits_of_opens {b rest : List UInt8} {f : Frame} {id : StreamId}
    (h : Frame.decode 32 b = .ok (f, rest)) (ho : Opens f id) : IdFits id := by
  refine varints_le h id.val ?_
  rcases ho with rfl | rfl
  · simp [Frame.varints]
  · simp [Frame.varints]

/-- **What a step may send can be encoded.** -/
theorem Puts.encodable (hl : l.Valid) (h : SessionFits s) {i : Nat} {f : Frame}
    (hp : Puts l s label i f) : f.Encodable := by
  have hfits : ∀ {f : Frame}, FrameFits f → FrameSmall l f → f.Encodable := encodable_of_fits hl
  have hheld : ∀ {k : Nat} {x : SendStream}, s.held k = some x → IdFits x.id :=
    fun hx => h.mem.handles _ (mem_of_held hx).1
  cases hp with
  | openUni hid => exact hfits (f := .openUni _) (id_of_nextStreamId hid) trivial
  | openBi hid => exact hfits (f := .openBi _) (id_of_nextStreamId hid) trivial
  | openCredit hid =>
      exact hfits (f := .maxStreamData _ _) ⟨id_of_nextStreamId hid, hl.window_le⟩ trivial
  | openStop hid =>
      exact hfits (f := .stopSending _ _) ⟨id_of_nextStreamId hid, Nat.zero_le _⟩ trivial
  | sessionUni hid => exact hfits (f := .stopSending _ _) ⟨h.mem.uni _ hid, Nat.zero_le _⟩ trivial
  | sessionReset hq => exact hfits (f := .resetStream _ _) ⟨h.mem.bi _ hq, Nat.zero_le _⟩ trivial
  | sessionStop hq => exact hfits (f := .stopSending _ _) ⟨h.mem.bi _ hq, Nat.zero_le _⟩ trivial
  | chunk hw hg =>
      obtain ⟨hid, hn⟩ := h.writes _ _ hw
      exact encodable_stream hid ((List.length_take_le _ _).trans (hn _ hg))
  | finish hx => exact encodable_stream (hheld hx) (Nat.zero_le _)
  | reset hx hc => exact hfits (f := .resetStream _ _) ⟨hheld hx, hc⟩ trivial
  | write hx hn => exact encodable_stream (hheld hx) ((List.length_take_le _ _).trans hn)
  | pollClose hx => exact encodable_stream (hheld hx) (Nat.zero_le _)
  | dropSend hx => exact hfits (f := .resetStream _ _) ⟨hheld hx, Nat.zero_le _⟩ trivial
  | stop hh hc => exact hfits (f := .stopSending _ _) ⟨h.mem.held _ hh, hc⟩ trivial
  | dropRecv hh => exact hfits (f := .stopSending _ _) ⟨h.mem.held _ hh, Nat.zero_le _⟩ trivial
  | refuse hsmall => exact hfits (f := .connectionClose _ _) trivial hsmall
  | reply hphase hd hr =>
      cases hr with
      | credit ho =>
          exact hfits (f := .maxStreamData _ _) ⟨idFits_of_opens hd ho, hl.window_le⟩ trivial
      | reset ho =>
          exact hfits (f := .resetStream _ _) ⟨idFits_of_opens hd ho, Nat.zero_le _⟩ trivial
      | stop ho =>
          exact hfits (f := .stopSending _ _) ⟨idFits_of_opens hd ho, Nat.zero_le _⟩ trivial
      | echo id code =>
          have hle := varints_le hd
          exact hfits (f := .resetStream id code)
            ⟨hle _ (by simp [Frame.varints]), hle _ (by simp [Frame.varints])⟩ trivial
      | close hsmall => exact hfits (f := .connectionClose _ _) trivial hsmall

theorem HandsOut.fits (h : SessionFits s) {id : StreamId} (ho : HandsOut s label id) :
    IdFits id := by
  cases ho with
  | openUni hid => exact id_of_nextStreamId hid
  | openBi hid => exact id_of_nextStreamId hid
  | acceptUni hid => exact h.mem.uni _ hid
  | acceptBi hq => exact h.mem.bi _ hq
  | clone hx => exact h.mem.handles _ (mem_of_held hx).1
  | frame hp hd ho => exact idFits_of_opens hd ho

theorem inRange_may (hl : l.Valid) (h : SessionFits s) (label : Label) :
    InRange (s.may l label) where
  put _ _ hp := hp.encodable hl h
  handOut _ ho := ho.fits h
  credit id _ hc := ⟨h.mem.held id hc.1, hc.2⟩

/-- A poll of `write_buf` asks credit for one chunk at most. -/
theorem pollWriteBuf_again {w w' : Write}
    (h : (m.pollWriteBuf l w).2 = .again w') :
    w'.id = w.id ∧ ∀ n ∈ w'.grant, n ≤ maxWriteChunk := by
  unfold Memory.pollWriteBuf at h
  split at h
  · split_ifs at h
    have hle := tryReserve_le m w.id (Memory.wanted l w.data.length)
    split at h
    · split_ifs at h
    · next heq =>
        rw [heq] at hle
        cases h
        refine ⟨rfl, fun n hn => ?_⟩
        cases hn
        exact hle.trans (wanted_le l _)
  · split_ifs at h
    split at h
    · cases h
    · cases h
    · split at h
      · cases h
        exact ⟨rfl, nofun⟩
      · cases h

/-- The calls of `write_buf` in progress after a step. -/
inductive Writes (l : Limits) (s : Session) : List (Option Write) → Prop where
  | same : Writes l s s.writes
  | call {h : Nat} {x : SendStream} {data : List UInt8} {w : Write} (hx : s.held h = some x)
      (hw : (s.mem.writeBuf h x.id data).2 = .ok w) : Writes l s (s.writes ++ [some w])
  | again {i : Nat} {w w' : Write} (hi : s.writes[i]? = some (some w))
      (hw : (s.mem.pollWriteBuf l w).2 = .again w') : Writes l s (s.writes.set i (some w'))
  | ended (i : Nat) : Writes l s (s.writes.set i none)

/-- What a step that takes nothing from the channel leaves of the rest of the session. -/
structure Kept (l : Limits) (s s' : Session) : Prop where
  writes : Writes l s s'.writes
  pending : s'.pendingFrame = s.pendingFrame
  taken : s'.taken = s.taken

theorem Kept.handled (rest : List UInt8) (r : Memory × Except Error Unit) :
    Kept l s (s.handled rest r) := by
  obtain ⟨m, r⟩ := r
  cases r with
  | ok u => exact ⟨.same, rfl, rfl⟩
  | error e => exact ⟨.same, rfl, rfl⟩

theorem kept_of_step (ht : label.takes = false) (h : s.step l label = some s') : Kept l s s' := by
  cases label with
  | openUni | openBi | shutdown | cloneSession | dropSession =>
      cases exists_onSession h
      exact ⟨.same, rfl, rfl⟩
  | acceptUni | acceptBi =>
      obtain ⟨r, -, rfl⟩ := Option.map_eq_some_iff.1 (exists_onSession h)
      exact ⟨.same, rfl, rfl⟩
  | write i data =>
      obtain ⟨x, hx, rfl⟩ := held_of_onSend h
      split
      · next heq => exact ⟨.call hx (congrArg Prod.snd heq), rfl, rfl⟩
      · exact ⟨.same, rfl, rfl⟩
  | pollWriteBuf i =>
      simp only [Session.step] at h
      split at h
      · next w hi =>
          cases h
          unfold Session.pollWriteBuf
          split
          · exact ⟨.same, rfl, rfl⟩
          · next heq => exact ⟨.again hi (congrArg Prod.snd heq), rfl, rfl⟩
          · exact ⟨.ended i, rfl, rfl⟩
      · cases h
  | cancelWriteBuf i =>
      simp only [Session.step] at h
      split at h
      · cases h
        exact ⟨.ended i, rfl, rfl⟩
      · cases h
  | finish i | reset i code | cloneSend i =>
      obtain ⟨x, -, rfl⟩ := held_of_onSend h
      exact ⟨.same, rfl, rfl⟩
  | pollWrite i buf | pollFlush i | pollClose i | dropSend i =>
      obtain ⟨x, -, rfl⟩ := held_of_onSendMut h
      exact ⟨.same, rfl, rfl⟩
  | read id api n =>
      obtain ⟨m, -, rfl⟩ := Option.map_eq_some_iff.1 (held_of_onRecv h).2
      exact ⟨.same, rfl, rfl⟩
  | stop id code | dropRecv id =>
      cases (held_of_onRecv h).2
      exact ⟨.same, rfl, rfl⟩
  | receive msg =>
      simp only [Session.step] at h
      split at h
      · cases h
        unfold Session.receive
        split
        · split_ifs
          · exact .handled _ _
          · exact ⟨.same, rfl, rfl⟩
        · exact .handled _ _
      · cases h
  | receiveErr =>
      simp only [Session.step] at h
      split at h
      · cases h
        exact ⟨.same, rfl, rfl⟩
      · cases h
  | frame =>
      simp only [Session.step] at h
      split at h
      · cases h
        unfold Session.frame
        split
        · exact ⟨.same, rfl, rfl⟩
        · split
          · exact .handled _ _
          · exact .handled _ _
      · cases h
  | out credit => cases ht
  | sent ok =>
      simp only [Session.step] at h
      split at h
      · split_ifs at h
        · cases h
          exact ⟨.same, rfl, rfl⟩
        · cases h
          exact ⟨.same, rfl, rfl⟩
      · cases h
  | connClosed => cases ht

theorem writeBuf_ok {h : Nat} {id : StreamId} {data : List UInt8} {w : Write}
    (hw : (m.writeBuf h id data).2 = .ok w) : w.id = id ∧ w.grant = none := by
  unfold Memory.writeBuf at hw
  split at hw
  · cases hw
  · split_ifs at hw
    cases hw
    exact ⟨rfl, rfl⟩

theorem SessionFits.writes_step (h : SessionFits s) {ws : List (Option Write)}
    (hw : Writes l s ws) : ∀ (i : Nat) (w : Write), ws[i]? = some (some w) →
      IdFits w.id ∧ ∀ n ∈ w.grant, n ≤ maxWriteChunk := by
  intro i w hi
  cases hw with
  | same => exact h.writes i w hi
  | @call k x data w₁ hx hw =>
      rw [List.getElem?_append] at hi
      split_ifs at hi
      · exact h.writes i w hi
      · cases List.mem_singleton.1 (List.mem_of_getElem? hi)
        obtain ⟨hid, hgrant⟩ := writeBuf_ok hw
        rw [hid, hgrant]
        exact ⟨h.mem.handles x (mem_of_held hx).1, nofun⟩
  | @again k w₁ w₂ hk hw =>
      rw [List.getElem?_set] at hi
      split_ifs at hi
      · cases hi
        obtain ⟨hid, hgrant⟩ := pollWriteBuf_again hw
        rw [hid]
        exact ⟨(h.writes k w₁ hk).1, hgrant⟩
      · exact h.writes i w hi
  | ended k =>
      rw [List.getElem?_set] at hi
      split_ifs at hi
      · cases hi
      · exact h.writes i w hi

/-- What the inner loop collects comes from the queue. -/
theorem collect_frames {P : Frame → Prop} {maxFrames maxBytes : Nat} {queue frames : List Frame}
    {c : ParkingChannel Frame} {bytes : List UInt8} {batch : Batch}
    (h : collect maxFrames maxBytes queue c bytes frames = some batch) (hq : ∀ f ∈ queue, P f)
    (hf : ∀ f ∈ frames, P f) : (∀ f ∈ batch.frames, P f) ∧ ∀ f ∈ batch.carried, P f := by
  induction queue generalizing c bytes frames with
  | nil =>
      cases h
      exact ⟨hf, nofun⟩
  | cons f queue ih =>
      have hhead : P f := hq f List.mem_cons_self
      unfold collect at h
      split_ifs at h
      · cases h
        exact ⟨hf, nofun⟩
      · split at h
        · cases h
        · split_ifs at h
          · cases h
            refine ⟨hf, fun g hg => ?_⟩
            cases hg
            exact hhead
          · exact ih h (fun g hg => hq g (List.mem_cons_of_mem f hg))
              (forall_append_singleton hf hhead)

theorem Fits.pop (h : Fits m) : Fits { m with chan := m.chan.pop } :=
  { h with queue := fun f hf => h.queue f (List.mem_of_mem_tail hf) }

theorem SessionFits.sendBatch (h : SessionFits s) {f : Frame} (hf : f.Encodable)
    (hs : s.sendBatch l f = some s') : SessionFits s' := by
  unfold Session.sendBatch at hs
  split at hs
  · cases hs
  · split at hs
    · cases hs
    · next b hb =>
        cases hs
        have hmem : Fits { s.mem with chan := b.chan } :=
          collect_pops (K := fun c => Fits { s.mem with chan := c }) (fun c hc => hc.pop) hb h.mem
        obtain ⟨hframes, hcarried⟩ := collect_frames (P := Frame.Encodable) hb h.mem.queue
          (by simpa using hf)
        refine ⟨hmem, h.writes, hcarried, fun g hg => ?_⟩
        rcases List.mem_append.1 hg with hg | hg
        · rcases List.mem_append.1 hg with hg | hg
          · exact h.taken g hg
          · exact hframes g (List.mem_of_mem_drop hg)
        · exact hcarried g (Option.mem_toList.1 hg)

/-- What `next_credit` would give can be encoded. -/
theorem SessionFits.encodable_credit (h : SessionFits s) {id : StreamId}
    (hid : id ∈ s.mem.recvs.pendingCredit) :
    (Frame.maxStreamData id (s.mem.recvs.cell id).credit).Encodable := by
  have hmax : VarInt.max < 2 ^ 62 := by decide
  obtain ⟨hfits, hle⟩ := h.mem.credit id hid
  unfold IdFits at hfits
  simp only [Frame.Encodable, Frame.varints, List.forall_mem_cons]
  exact ⟨by decide, by omega, by omega, List.forall_mem_nil _⟩

theorem SessionFits.out (h : SessionFits s) {credit : Option StreamId}
    (hs : s.out l credit = some s') : SessionFits s' := by
  unfold Session.out at hs
  split at hs
  · split at hs
    · next f heq =>
        have hf := h.pending f heq
        refine SessionFits.sendBatch ?_ hf hs
        exact ⟨h.mem, h.writes, nofun, h.taken⟩
    · split at hs
      · next f rest heq =>
          have hf : f.Encodable := h.mem.queue f (by rw [heq]; exact List.mem_cons_self)
          refine SessionFits.sendBatch ?_ hf hs
          exact ⟨h.mem.pop, h.writes, h.pending, forall_append_singleton h.taken hf⟩
      · split_ifs at hs
        cases hs
        exact ⟨h.mem, h.writes, h.pending, h.taken⟩
  · next id =>
      split_ifs at hs with hc
      have hf := h.encodable_credit hc.2
      refine SessionFits.sendBatch ?_ hf hs
      have hquiet : RecvQuiet s.mem.recvs (s.mem.recvs.apply (.takeCredit id)) := .apply _ rfl
      refine ⟨?_, h.writes, h.pending, forall_append_singleton h.taken hf⟩
      exact h.mem.quiet ⟨rfl, rfl, hquiet, fun _ h => h, fun _ h => h⟩

theorem Fits.dropRx (h : Fits m) : Fits { m with chan := m.chan.dropRx } :=
  { h with queue := nofun }

/-- **A step keeps the session in range.** -/
theorem SessionFits.step (hl : l.Valid) (h : SessionFits s) (hs : s.step l label = some s') :
    SessionFits s' := by
  cases ht : label.takes with
  | true =>
      cases label with
      | out credit =>
          simp only [Session.step] at hs
          split at hs
          · exact h.out hs
          · cases hs
      | connClosed =>
          simp only [Session.step] at hs
          split at hs
          · cases hs
            have hno : InRange ⟨fun _ _ => False, fun _ => False, fun _ => False,
              fun _ _ => False⟩ := 
              ⟨fun _ _ h => h.elim, fun _ h => h.elim, fun _ _ h => h.elim⟩
            have hc : Fits { s.mem with chan := s.mem.chan.dropRx }.closeAll :=
              (Acts.closeAll (l := l) _).fits hno h.mem.dropRx
            exact ⟨⟨hc.handles, hc.held, hc.uni, hc.bi, hc.credit, hc.admitted, hc.queue⟩,
              h.writes, h.pending, h.taken⟩
          · cases hs
      | _ => cases ht
  | false =>
      have hk := kept_of_step ht hs
      have hm := (Session.acts_of_step ht hs).fits (inRange_may hl h label) h.mem
      exact ⟨hm, h.writes_step hk.writes, hk.pending ▸ h.pending, hk.taken ▸ h.taken⟩

theorem sessionFits_of_reachable {ok : Session → Label → Prop} (hl : l.Valid)
    (hr : Reachable (Session.step l) ok {} s) : SessionFits s := by
  refine hr.invariant (I := SessionFits) ?_ ?_
  · exact ⟨⟨nofun, nofun, nofun, nofun, nofun, nofun, nofun⟩, nofun, nofun, nofun⟩
  · intro s label s' _ h _ hs
    exact h.step hl hs

end WebsockMux.Wasm
