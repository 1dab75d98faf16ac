import WebsockMux.Native.Emission

/-!
# Flush as a barrier

`poll_flush` and `poll_shutdown` of a `SendStream` return `Ready(Ok)` when the oneshot of their
`Flush` command is resolved. `Watch` follows one handle through a run: what had been queued when it
last enqueued a frame, and how much of what was written the sink has flushed. Two habits break the
barrier: a FIN that is enqueued while an abandoned flush is still stored in the handle
(`stale_flush`), and a frame that is enqueued behind a `Shutdown` command. Without them every frame
of the handle is flushed when it is told so (`flush_is_barrier`).
-/

set_option autoImplicit false

namespace WebsockMux.Native

open WebsockMux.Lib WebsockMux.Proto
open WebsockMux.Proto.Frame (ordered decodeMessages)

variable {cfg : Config} {m : Memory} {o o' : Outbound} {a : Access} {h n : Nat}

/-! ## The watched handle -/

/-- An access that enqueues a frame through the handle. -/
def Access.enqueues (h : Nat) : Access → Bool
  | .handle (.sendData k _) => decide (k = h)
  | .handle (.sendFin k _) => decide (k = h)
  | _ => false

/-- An access with which a flush of the handle returns `Ready`. -/
def Access.returns (h : Nat) : Access → Bool
  | .handle (.takeWaiter k) => decide (k = h)
  | _ => false

/-- The flush that the handle waits for. -/
def Memory.waiter (m : Memory) (h : Nat) : Option Nat := (m.handles[h]?).bind SendHandle.flushWaiter

/-- A step in which the sink completes a flush. -/
def Outbound.flushes (o : Outbound) : Label → Bool
  | .outbound .ready => match o.pc with
      | .flushing _ => true
      | _ => false
  | _ => false

/-- A session with one handle watched: `mine` is the history of the queue up to the last frame that
the handle enqueued, and the first `flushed` messages were written when the sink was last flushed. -/
structure Watch where
  session : Session := {}
  mine : List Frame := []
  flushed : Nat := 0

namespace Watch

/-- One step of the session. -/
def step (cfg : Config) (h : Nat) (w : Watch) (l : Label) : Option Watch :=
  (w.session.step cfg l).map fun s =>
    { session := s
      mine :=
        if (w.session.access cfg l).any (Access.enqueues h) then s.mem.chan.admitted else w.mine
      flushed := if w.session.out.flushes l then s.out.written.length else w.flushed }

/-- The handle enqueues a frame only while no `Shutdown` command was sent, and the FIN only when no
flush is stored in the handle. -/
def careful (cfg : Config) (h : Nat) (w : Watch) (l : Label) : Prop :=
  (w.session.access cfg l).any (Access.enqueues h) = true →
    w.session.out.shutting = false ∧ (∀ c ∈ w.session.mem.chan.queue, c.isShutdown = false) ∧
      ((w.session.access cfg l).any (fun a => a matches .handle (.sendFin _ _)) = true →
        w.session.mem.waiter h = none)

instance (w : Watch) (l : Label) : Decidable (w.careful cfg h l) := by
  unfold careful
  infer_instance

/-- `poll_flush` or `poll_shutdown` of the handle returns `Ready(Ok)` in this step. -/
def returnsOk (cfg : Config) (h : Nat) (w : Watch) (l : Label) : Prop :=
  (w.session.access cfg l).any (Access.returns h) = true ∧
    (w.session.mem.waiter h).bind (w.session.mem.chan.acks[·]?) = some .ok

instance (w : Watch) (l : Label) : Decidable (w.returnsOk cfg h l) := by
  unfold returnsOk
  infer_instance

/-- What the handle has enqueued is written and flushed. -/
def Covered (w : Watch) : Prop :=
  ∃ fs, decodeMessages (binaries (w.session.out.written.take w.flushed)) = some fs ∧
    ordered w.mine <+: ordered fs

end Watch

/-! ## Oneshot channels -/

theorem getElem?_foldl_set_dropped {ns : List Nat} {acks : List Ack}
    (h : (ns.foldl (fun as n => as.set n .dropped) acks)[n]? = some .ok) : acks[n]? = some .ok := by
  induction ns generalizing acks with
  | nil => exact h
  | cons k ns ih =>
      have hset := ih h
      rw [List.getElem?_set] at hset
      split_ifs at hset
      · cases hset
      · exact hset

theorem length_foldl_set (ns : List Nat) (acks : List Ack) :
    (ns.foldl (fun as n => as.set n .dropped) acks).length = acks.length := by
  induction ns generalizing acks with
  | nil => rfl
  | cons k ns ih => rw [List.foldl_cons, ih, List.length_set]

/-- No channel is forgotten. -/
theorem Memory.acks_length_le (m : Memory) (a : Access) :
    m.chan.acks.length ≤ (m.apply a).chan.acks.length := by
  have hnew : m.chan.acks.length ≤ (m.chan.acks ++ [Ack.pending]).length := by
    rw [List.length_append]
    exact Nat.le_add_right _ _
  cases a with
  | chan b =>
      cases b with
      | shutdown => exact hnew
      | ack k r => exact (List.length_set ..).ge
      | dropRx => exact (length_foldl_set _ _).ge
      | _ => exact Nat.le_refl _
  | handle b =>
      cases b with
      | sendFlush k => exact hnew
      | _ => exact Nat.le_refl _
  | session clone => cases clone <;> exact Nat.le_refl _
  | _ => exact Nat.le_refl _

/-- A channel that is resolved was resolved before, or by this access. -/
theorem Memory.ack_ok (hn : n < m.chan.acks.length)
    (hok : (m.apply a).chan.acks[n]? = some .ok) :
    m.chan.acks[n]? = some .ok ∨ a = .chan (.ack n .ok) := by
  have hnew : (m.chan.acks ++ [Ack.pending])[n]? = some .ok → m.chan.acks[n]? = some .ok := by
    intro hok
    rwa [List.getElem?_append_left hn] at hok
  cases a with
  | chan b =>
      cases b with
      | shutdown => exact .inl (hnew hok)
      | ack k r =>
          have hok : (m.chan.acks.set k r)[n]? = some .ok := hok
          rw [List.getElem?_set] at hok
          split_ifs at hok with hk
          · cases hok
            exact .inr (by rw [hk])
          · exact .inl hok
      | dropRx => exact .inl (getElem?_foldl_set_dropped hok)
      | _ => exact .inl hok
  | handle b =>
      cases b with
      | sendFlush k => exact .inl (hnew hok)
      | _ => exact .inl hok
  | session clone => cases clone <;> exact .inl hok
  | _ => exact .inl hok

/-- A new command has a new channel. -/
theorem Memory.command_ack {c : OutboundCmd} (hc : a.command? m = some c) (hn : c.ack? = some n) :
    n = m.chan.acks.length ∧ n < (m.apply a).chan.acks.length ∧
      (m.apply a).chan.acks[n]? = some .pending := by
  have hnew : n = m.chan.acks.length → (m.apply a).chan.acks = m.chan.acks ++ [.pending] →
      n = m.chan.acks.length ∧ n < (m.apply a).chan.acks.length ∧
        (m.apply a).chan.acks[n]? = some .pending := by
    intro hn hacks
    rw [hacks, hn, List.length_append]
    exact ⟨rfl, Nat.lt_succ_self _, List.getElem?_concat_length ..⟩
  cases a with
  | chan b =>
      cases b with
      | shutdown =>
          cases hc
          cases hn
          exact hnew rfl rfl
      | _ =>
          cases hc
          try cases hn
  | handle b =>
      cases b with
      | sendFlush k =>
          cases hc
          cases hn
          exact hnew rfl rfl
      | _ =>
          cases hc
          try cases hn
  | _ => cases hc

/-- Only `poll_flush` stores a flush in a handle. -/
theorem Memory.waiter_apply (hw : (m.apply a).waiter h = some n) :
    m.waiter h = some n ∨ (a = .handle (.sendFlush h) ∧ n = m.chan.acks.length) := by
  have hmod : ∀ (k : Nat) (g : SendHandle → SendHandle),
      ((m.handles.modify k g)[h]?).bind SendHandle.flushWaiter = some n →
      (∀ x, (g x).flushWaiter = some n → x.flushWaiter = some n) → m.waiter h = some n := by
    intro k g hb hg
    rw [List.getElem?_modify] at hb
    unfold Memory.waiter
    cases hx : m.handles[h]? with
    | none =>
        rw [hx] at hb
        cases hb
    | some x =>
        rw [hx] at hb
        have hb : (if k = h then g x else x).flushWaiter = some n := hb
        split_ifs at hb
        · exact hg x hb
        · exact hb
  cases a with
  | handle b =>
      cases b with
      | new i held =>
          refine .inl ?_
          have hw : ((m.handles ++ [{ id := i, held := held }])[h]?).bind SendHandle.flushWaiter =
            some n := hw
          unfold Memory.waiter
          rw [List.getElem?_append] at hw
          split_ifs at hw
          · exact hw
          · cases hx : [({ id := i, held := held } : SendHandle)][h - m.handles.length]? with
            | none =>
                rw [hx] at hw
                cases hw
            | some x =>
                rw [hx] at hw
                cases List.mem_singleton.1 (List.mem_of_getElem? hx)
                cases hw
      | sendFlush k =>
          by_cases hk : k = h
          · subst hk
            refine .inr ⟨rfl, ?_⟩
            have hw : ((m.handles.modify k _)[k]?).bind SendHandle.flushWaiter = some n := hw
            rw [List.getElem?_modify_eq] at hw
            cases hx : m.handles[k]? with
            | none =>
                rw [hx] at hw
                cases hw
            | some x =>
                rw [hx] at hw
                exact (Option.some.inj hw).symm
          · have hw : ((m.handles.modify k _)[h]?).bind SendHandle.flushWaiter = some n := hw
            rw [List.getElem?_modify_ne _ _ hk] at hw
            exact .inl hw
      | sendData k f => exact .inl (hmod k _ hw nofun)
      | takeWaiter k => exact .inl (hmod k _ hw nofun)
      | hold k on => exact .inl (hmod k _ hw fun _ hx => hx)
      | reserve k => exact .inl (hmod k _ hw fun _ hx => hx)
      | wait k => exact .inl (hmod k _ hw fun _ hx => hx)
      | sendFin k f => exact .inl (hmod k _ hw fun _ hx => hx)
      | abort k => exact .inl (hmod k _ hw fun _ hx => hx)
      | release k => exact .inl (hmod k _ hw fun _ hx => hx)
  | session clone => cases clone <;> exact .inl hw
  | _ => exact .inl hw

/-- A data frame clears the flush that is stored in its handle. -/
theorem Memory.waiter_sendData (m : Memory) (h : Nat) (f : Frame) :
    (m.apply (.handle (.sendData h f))).waiter h = none := by
  show ((m.handles.modify h _)[h]?).bind SendHandle.flushWaiter = none
  rw [List.getElem?_modify_eq]
  cases m.handles[h]? <;> rfl

/-! ## Who resolves a oneshot channel -/

theorem Task.next_ne_ack {t t' : Task} {r : Ack} (hn : t.next cfg m = some (a, t')) :
    a ≠ .chan (.ack n r) := by
  replace hn := Task.steps_of_next hn
  induction hn with
  | closeAll c k => cases c <;> rintro ⟨⟩
  | _ => rintro ⟨⟩

theorem Call.start_ne_ack {c : Call} {u : Use} {t : Task} {r : Ack}
    (hc : c.start m = some (u, a, t)) : a ≠ .chan (.ack n r) := by
  rintro rfl
  cases Call.starts_of_start hc

theorem Inbound.receive_ne_ack {b b' : Inbound} {msg : Message} {r : Ack}
    (hb : b.receive cfg m msg = some (a, b')) : a ≠ .chan (.ack n r) := by
  rintro rfl
  unfold Inbound.receive at hb
  repeat' split at hb
  all_goals cases hb

theorem Inbound.step_ne_ack {b b' : Inbound} {r : Ack} (hb : b.step cfg m = some (a, b')) :
    a ≠ .chan (.ack n r) := by
  cases Inbound.steps_of_step hb with
  | next hp hn => exact Task.next_ne_ack hn
  | finishing hp hn => exact Task.next_ne_ack hn
  | _ => exact nofun

/-- The loop resolves a channel with `Ok` after an operation of the sink. -/
theorem Outbound.ack_ok {c : OutChoice} (hs : o.step cfg m c = some (.chan (.ack n .ok), o')) :
    c = .ready ∧ ∃ k, (k = .ackFlush n ∨ k = .ackShutdown n) ∧
      (o.pc = .flushing k ∨ o.pc = .closing k) := by
  have hack : ∀ k, ackAccess .ok k = .chan (.ack n .ok) → k = .ackFlush n ∨ k = .ackShutdown n := by
    intro k hk
    cases k <;> cases hk
    · exact .inl rfl
    · exact .inr rfl
  have hfail : ∀ k, o.failed k ≠ (.chan (.ack n .ok), o') := by
    intro k
    cases k <;> exact nofun
  unfold step at hs
  split at hs
  · split_ifs at hs <;> cases hs
  · split_ifs at hs <;> cases hs
  · split at hs <;> cases hs
  · split_ifs at hs
    cases hs
  · cases hs
  · obtain ⟨o₁, -, heq⟩ := Option.map_eq_some_iff.1 hs
    cases heq
  · cases hs
  · cases hs
  · rename_i k hp
    exact ⟨rfl, k, hack k (congrArg Prod.fst (Option.some.inj hs)), .inl hp⟩
  · rename_i k hp
    exact ⟨rfl, k, hack k (congrArg Prod.fst (Option.some.inj hs)), .inr hp⟩
  · exact absurd (Option.some.inj hs) (hfail _)
  · exact absurd (Option.some.inj hs) (hfail _)
  · exact absurd (Option.some.inj hs) (hfail _)
  · cases hs
  · split at hs
    · rename_i hn
      cases hs
      exact absurd rfl (Task.next_ne_ack hn)
    · cases hs
  · cases hs

theorem Outbound.cancel_ne_ack_ok (hs : o.cancel = some (a, o')) : a ≠ .chan (.ack n .ok) := by
  have hdrop : ∀ k, dropAccess k ≠ .chan (.ack n .ok) := by
    intro k
    cases k <;> exact nofun
  unfold cancel at hs
  split at hs
  · cases hs
    exact nofun
  · cases hs
    exact hdrop _
  · cases hs
    exact hdrop _
  · cases hs
    exact hdrop _
  · cases hs

/-- **Who resolves a channel with `Ok`.** -/
theorem ack_ok_of_step {s s' : Session} {l : Label} (hs : s.step cfg l = some s')
    (ha : s.access cfg l = some (.chan (.ack n .ok))) :
    l = .outbound .ready ∧ ∃ k, (k = .ackFlush n ∨ k = .ackShutdown n) ∧
      (s.out.pc = .flushing k ∨ s.out.pc = .closing k) := by
  cases l with
  | call c =>
      obtain ⟨⟨u, a, t⟩, hc, heq⟩ := Option.map_eq_some_iff.1 ha
      exact absurd heq (Call.start_ne_ack hc)
  | op i =>
      obtain ⟨o, -, hm⟩ := Option.bind_eq_some_iff.1 ha
      obtain ⟨⟨a, t⟩, hn, heq⟩ := Option.map_eq_some_iff.1 hm
      exact absurd heq (Task.next_ne_ack hn)
  | receive msg =>
      obtain ⟨⟨a, b⟩, hb, heq⟩ := Option.map_eq_some_iff.1 ha
      exact absurd heq (Inbound.receive_ne_ack hb)
  | inbound =>
      obtain ⟨⟨a, b⟩, hb, heq⟩ := Option.map_eq_some_iff.1 ha
      exact absurd heq (Inbound.step_ne_ack hb)
  | outbound c =>
      obtain ⟨⟨a, o⟩, ho, heq⟩ := Option.map_eq_some_iff.1 ha
      have heq : a = .chan (.ack n .ok) := heq
      rw [heq] at ho
      obtain ⟨rfl, hk⟩ := Outbound.ack_ok ho
      exact ⟨rfl, hk⟩
  | outboundCancel =>
      obtain ⟨⟨a, o⟩, ho, heq⟩ := Option.map_eq_some_iff.1 ha
      exact absurd heq (Outbound.cancel_ne_ack_ok ho)
  | _ => cases ha

/-! ## The invariant -/

/-- Every command with a oneshot channel is younger than its channel. -/
structure Fresh (m : Memory) (o : Outbound) : Prop where
  queue : ∀ c ∈ m.chan.queue, ∀ n, c.ack? = some n → n < m.chan.acks.length
  hand : ∀ c, o.pc.barrier? = some c → ∀ n, c.ack? = some n → n < m.chan.acks.length

theorem Fresh.takes (hf : Fresh m o) (ht : o.Takes m o' a) : Fresh (m.apply a) o' := by
  have hle := m.acks_length_le a
  cases ht with
  | nothing ha hk =>
      refine ⟨?_, ?_⟩
      · intro c hc n hn
        rw [m.queue_apply ha] at hc
        rcases List.mem_append.1 hc with hc | hc
        · exact (hf.queue c hc n hn).trans_le hle
        · exact (Memory.command_ack (Option.mem_toList.1 hc) hn).2.1
      · intro c hc n hn
        rcases hk.barrier with hb | hb
        · exact (hf.hand c (hb ▸ hc) n hn).trans_le hle
        · rw [hb] at hc
          cases hc
  | @command c rest hp hq =>
      refine ⟨fun d hd n hn => hf.queue d (List.mem_of_mem_tail hd) n hn, ?_⟩
      intro d hd n hn
      refine hf.queue d ?_ n hn
      rw [hq]
      cases c <;> cases hd <;> exact List.mem_cons_self
  | credit hp hc hm => exact ⟨hf.queue, nofun⟩
  | leave hp => exact ⟨nofun, nofun⟩

/-- The flush `n` covers the frames of `mine`, wherever its command is. -/
structure Waits (m : Memory) (o : Outbound) (mine : List Frame) (n : Nat) : Prop where
  lt : n < m.chan.acks.length
  queue : ∀ pre post, m.chan.queue = pre ++ .flush n :: post → o.pc.left = false →
    ordered mine <+: ordered (o.taken ++ o.coming pre)
  hand : o.pc.barrier? = some (.flush n) → ordered mine <+: ordered o.taken
  only : .shutdown n ∉ m.chan.queue ∧ o.pc.barrier? ≠ some (.shutdown n)

/-- The command of a flush moves on. -/
theorem Waits.takes {mine : List Frame} (h : Waits m o mine n) (ht : o.Takes m o' a) :
    Waits (m.apply a) o' mine n := by
  have hle := m.acks_length_le a
  cases ht with
  | nothing ha hk =>
      -- a new command has another channel
      have hnew : ∀ c, a.command? m = some c → c.ack? ≠ some n := by
        intro c hc hn
        have heq := (Memory.command_ack hc hn).1
        have hlt := h.lt
        omega
      refine ⟨h.lt.trans_le hle, ?_, ?_, ?_⟩
      · intro pre post hq hl
        rw [m.queue_apply ha] at hq
        rw [hk.taken, Outbound.coming_congr (hk.shutting hl)]
        cases hcmd : a.command? m with
        | none =>
            rw [hcmd, Option.toList_none, List.append_nil] at hq
            exact h.queue pre post hq (hk.left_eq_false hl)
        | some c =>
            rw [hcmd, Option.toList_some] at hq
            rcases List.eq_nil_or_concat post with rfl | ⟨post', d, rfl⟩
            · -- the flush would be the new command
              have hlast := (List.append_inj' hq rfl).2
              cases hlast
              exact absurd rfl (hnew _ hcmd)
            · have hq' : m.chan.queue ++ [c] = (pre ++ .flush n :: post') ++ [d] := by
                rw [hq, List.concat_eq_append, List.append_assoc, List.cons_append]
              exact h.queue pre post' (List.append_inj' hq' rfl).1 (hk.left_eq_false hl)
      · intro hb
        rcases hk.barrier with hb' | hb'
        · rw [hk.taken]
          exact h.hand (hb' ▸ hb)
        · rw [hb'] at hb
          cases hb
      · refine ⟨?_, ?_⟩
        · intro hmem
          rw [m.queue_apply ha] at hmem
          rcases List.mem_append.1 hmem with hmem | hmem
          · exact h.only.1 hmem
          · exact hnew _ (Option.mem_toList.1 hmem) rfl
        · intro hb
          rcases hk.barrier with hb' | hb'
          · exact h.only.2 (hb' ▸ hb)
          · rw [hb'] at hb
            cases hb
  | @command c rest hp hq =>
      have hrest : (m.apply (.chan .pop)).chan.queue = rest := congrArg List.tail hq
      have hl : o.pc.left = false := by rw [hp]; rfl
      refine ⟨h.lt, ?_, ?_, ?_⟩
      · intro pre post hsplit _
        rw [hrest] at hsplit
        rw [Outbound.coming_take hp]
        refine h.queue (c :: pre) post ?_ hl
        rw [hq, hsplit, List.cons_append]
      · intro hb
        have hc : c = .flush n := by
          cases c <;> cases hb
          rfl
        subst hc
        have hmine := h.queue [] rest hq hl
        have hnil : o.coming [] = [] := by
          unfold Outbound.coming
          split_ifs <;> rfl
        rw [hnil, List.append_nil] at hmine
        exact hmine
      · refine ⟨?_, ?_⟩
        · rw [hrest]
          intro hmem
          exact h.only.1 (hq ▸ List.mem_cons_of_mem _ hmem)
        · intro hb
          have hc : c = .shutdown n := by
            cases c <;> cases hb
            rfl
          exact h.only.1 (hq ▸ hc ▸ List.mem_cons_self)
  | credit hp hc hm =>
      refine ⟨h.lt, ?_, nofun, h.only.1, nofun⟩
      intro pre post hq _
      rw [Outbound.coming_credit hp]
      exact h.queue pre post hq (by rw [hp]; rfl)
  | leave hp => exact ⟨h.lt.trans_le hle, nofun, nofun, List.not_mem_nil, nofun⟩

/-- A new flush covers what the loop will take. -/
theorem Waits.new {mine : List Frame} (hf : Fresh m o) (ht : o.Takes m o' (.handle (.sendFlush h)))
    (hmine : o.pc.left = false → ordered mine <+: ordered (o.taken ++ o.coming m.chan.queue)) :
    Waits (m.apply (.handle (.sendFlush h))) o' mine m.chan.acks.length := by
  obtain ⟨-, hlt, -⟩ := Memory.command_ack (m := m) (a := .handle (.sendFlush h)) rfl rfl
  cases ht with
  | nothing ha hk =>
      have hhand : ∀ c : OutboundCmd, c.ack? = some m.chan.acks.length → o'.pc.barrier? ≠ some c := by
        intro c hc hb
        rcases hk.barrier with hb' | hb'
        · exact (hf.hand c (hb' ▸ hb) _ hc).false
        · rw [hb'] at hb
          cases hb
      refine ⟨hlt, ?_, fun hb => absurd hb (hhand _ rfl), ?_, hhand _ rfl⟩
      · intro pre post hq hl
        rw [hk.taken, Outbound.coming_congr (hk.shutting hl)]
        -- the queue had no command with this channel
        rcases List.eq_nil_or_concat post with rfl | ⟨post', d, rfl⟩
        · rw [← (List.append_inj' hq rfl).1]
          exact hmine (hk.left_eq_false hl)
        · rw [List.concat_eq_append] at hq
          have hq' : m.chan.queue ++ [.flush m.chan.acks.length] =
              (pre ++ .flush m.chan.acks.length :: post') ++ [d] := by
            rw [List.append_assoc, List.cons_append]
            exact hq
          have hmem : .flush m.chan.acks.length ∈ m.chan.queue := by
            rw [(List.append_inj' hq' rfl).1]
            exact List.mem_append_right _ List.mem_cons_self
          exact absurd (hf.queue _ hmem _ rfl) (Nat.lt_irrefl _)
      · intro hmem
        rcases List.mem_append.1 hmem with hmem | hmem
        · exact (hf.queue _ hmem _ rfl).false
        · cases List.mem_singleton.1 hmem

theorem Outbound.Takes.keeps_of_enqueues (ht : o.Takes m o' a) (he : a.enqueues h = true) :
    o.Keeps o' := by
  cases ht with
  | nothing _ hk => exact hk
  | _ => cases he

/-! ## Runs -/

namespace Watch

variable {w w' : Watch} {l : Label}

/-- What holds of a watched handle. -/
structure Guarded (h : Nat) (w : Watch) : Prop where
  fresh : Fresh w.session.mem w.session.out
  mine : w.session.out.pc.left = false → ordered w.mine <+:
    ordered (w.session.out.taken ++ w.session.out.coming w.session.mem.chan.queue)
  flushed : w.flushed ≤ w.session.out.written.length
  waits : ∀ n, w.session.mem.waiter h = some n → Waits w.session.mem w.session.out w.mine n
  covered : ∀ n, w.session.mem.waiter h = some n → w.session.mem.chan.acks[n]? = some .ok →
    w.Covered

theorem session_of_reachable {ok : Watch → Label → Prop} (hr : Reachable (Watch.step cfg h) ok {} w) :
    Reachable (Session.step cfg) anyStep {} w.session := by
  induction hr with
  | init => exact .init
  | step _ _ hs ih =>
      obtain ⟨s', hs', rfl⟩ := Option.map_eq_some_iff.1 hs
      exact ih.step trivial hs'

/-- More messages are written, and more of them may be flushed. -/
theorem Covered.grows {s' : Session} (hc : w.Covered)
    (hle : w.flushed ≤ w.session.out.written.length)
    (hw : w.session.out.written <+: s'.out.written) {gs : List Frame}
    (hgs : decodeMessages (binaries s'.out.written) = some gs) (b : Bool) :
    Covered { session := s', mine := w.mine,
              flushed := if b then s'.out.written.length else w.flushed } := by
  obtain ⟨fs, hfs, hmine⟩ := hc
  cases b with
  | false =>
      refine ⟨fs, ?_, hmine⟩
      obtain ⟨more, hmore⟩ := hw
      show decodeMessages (binaries (s'.out.written.take w.flushed)) = some fs
      rw [← hmore, List.take_append_of_le_length hle]
      exact hfs
  | true =>
      refine ⟨gs, ?_, hmine.trans (Frame.ordered_isPrefix ?_)⟩
      · show decodeMessages (binaries (s'.out.written.take s'.out.written.length)) = some gs
        rw [List.take_length]
        exact hgs
      · refine Frame.decodeMessages_prefix ?_ hfs hgs
        exact ((List.take_prefix _ _).trans hw).filterMap _

/-- The sink has flushed what the loop has taken. -/
theorem covered_of_flush {s s' : Session} {mine : List Frame} (hbox : Outbox s.mem.chan.queue s.out)
    (hbox' : Outbox s'.mem.chan.queue s'.out) (hp : s.out.pc = .flushing (.ackFlush n))
    (hsunk : s.out.sunk <+: s'.out.sunk) (hmine : ordered mine <+: ordered s.out.taken) :
    Covered { session := s', mine := mine, flushed := s'.out.written.length } := by
  have hat := hbox.place
  simp only [Outbound.At, hp] at hat
  have htaken : s.out.taken = s.out.sunk := by
    rw [hat.1.taken, hat.2.1, List.append_nil]
    exact List.append_nil _
  refine ⟨s'.out.sunk, ?_, ?_⟩
  · show decodeMessages (binaries (s'.out.written.take s'.out.written.length)) = _
    rw [List.take_length]
    exact Frame.decodeMessages_of_carried hbox'.sunk
  · rw [htaken] at hmine
    exact hmine.trans (Frame.ordered_isPrefix hsunk)

/-- The handle enqueues a frame: no flush is stored in it afterwards. -/
theorem Guarded.enqueue {s s' : Session} {mine : List Frame} {flushed flushed' : Nat}
    (hg : Guarded h ⟨s, mine, flushed⟩) (hr' : Reachable (Session.step cfg) anyStep {} s')
    (hm : s'.mem = s.mem.apply a) (ht : s.out.Takes s.mem s'.out a) (he : a.enqueues h = true)
    (hshut : s.out.shutting = false) (hq : ∀ c ∈ s.mem.chan.queue, c.isShutdown = false)
    (hwait : ∀ f, a = .handle (.sendFin h f) → s.mem.waiter h = none)
    (hf : flushed' ≤ s'.out.written.length) :
    Guarded h ⟨s', s'.mem.chan.admitted, flushed'⟩ := by
  obtain ⟨f, hcmd, hnone⟩ : ∃ f, a.command? s.mem = some (.frame f) ∧ s'.mem.waiter h = none := by
    cases a with
    | handle b =>
        cases b with
        | sendData k f =>
            cases of_decide_eq_true he
            refine ⟨f, rfl, ?_⟩
            rw [hm]
            exact s.mem.waiter_sendData _ f
        | sendFin k f =>
            cases of_decide_eq_true he
            refine ⟨f, rfl, ?_⟩
            have hnone := hwait f rfl
            cases hw : s'.mem.waiter h with
            | none => rfl
            | some n =>
                rw [hm] at hw
                rcases Memory.waiter_apply hw with hw | ⟨heq, -⟩
                · rw [hnone] at hw
                  cases hw
                · cases heq
        | _ => cases he
    | _ => cases he
  have hplain : a.plain = true := by
    cases a with
    | handle b => rfl
    | _ => cases he
  refine ⟨?_, ?_, hf, ?_, ?_⟩
  · show Fresh s'.mem s'.out
    rw [hm]
    exact hg.fresh.takes ht
  · intro hl
    have hk := ht.keeps_of_enqueues he
    have hshut' : s'.out.shutting = false := (hk.shutting hl).trans hshut
    have hq' : ∀ n, .shutdown n ∉ s'.mem.chan.queue := by
      intro n hn
      rw [hm, s.mem.queue_apply hplain, hcmd] at hn
      rcases List.mem_append.1 hn with hn | hn
      · cases hq _ hn
      · cases List.mem_singleton.1 hn
    have hwhole := (emission_of_reachable hr').whole hl hshut' hq'
    rw [← Outbound.coming_eq_queued hshut' hq'] at hwhole
    exact hwhole.symm ▸ List.prefix_rfl
  · intro n hw
    exact absurd (hnone.symm.trans hw) nofun
  · intro n hw
    exact absurd (hnone.symm.trans hw) nofun

/-- **A step keeps what holds of a watched handle.** -/
theorem Guarded.step (hg : Guarded h w) (hr : Reachable (Session.step cfg) anyStep {} w.session)
    (hok : w.careful cfg h l) (hs : w.step cfg h l = some w') : Guarded h w' := by
  obtain ⟨s', hs', rfl⟩ := Option.map_eq_some_iff.1 hs
  have hr' := hr.step trivial hs'
  obtain ⟨a, ha, hm, ht⟩ := takes_of_step hs'
  have hbox := outbox_of_reachable hr
  have hbox' := outbox_of_reachable hr'
  have hgs := Frame.decodeMessages_of_carried hbox'.sunk
  obtain ⟨hwritten, hsunk⟩ := ht.grows
  have hflushed : (if w.session.out.flushes l then s'.out.written.length else w.flushed) ≤
      s'.out.written.length := by
    split_ifs
    · exact Nat.le_refl _
    · exact hg.flushed.trans hwritten.length_le
  unfold careful at hok
  rw [ha] at hok ⊢
  by_cases he : a.enqueues h = true
  · obtain ⟨hshut, hq, hwait⟩ := hok he
    rw [if_pos (show (some a).any (Access.enqueues h) = true from he)]
    exact hg.enqueue hr' hm ht he hshut hq (fun f hf => hwait (by rw [hf]; rfl)) hflushed
  · rw [if_neg (show ¬ (some a).any (Access.enqueues h) = true from he)]
    refine ⟨?_, ?_, hflushed, ?_, ?_⟩
    · show Fresh s'.mem s'.out
      rw [hm]
      exact hg.fresh.takes ht
    · intro hl
      have hmono := ht.coming_mono hl
      rw [← hm] at hmono
      exact (hg.mine (ht.left_eq_false hl)).trans hmono
    · intro n hw
      show Waits s'.mem s'.out w.mine n
      have hw : s'.mem.waiter h = some n := hw
      rw [hm] at hw ⊢
      rcases Memory.waiter_apply hw with hw | ⟨rfl, rfl⟩
      · exact (hg.waits n hw).takes ht
      · exact .new hg.fresh ht hg.mine
    · intro n hw hack
      have hw : s'.mem.waiter h = some n := hw
      have hack : s'.mem.chan.acks[n]? = some .ok := hack
      rw [hm] at hw hack
      rcases Memory.waiter_apply hw with hw | ⟨rfl, rfl⟩
      · have hwaits := hg.waits n hw
        rcases Memory.ack_ok hwaits.lt hack with hack | rfl
        · exact (hg.covered n hw hack).grows hg.flushed hwritten hgs _
        · obtain ⟨rfl, k, hk, hp⟩ := ack_ok_of_step hs' ha
          -- the channel is that of a flush, which the sink has completed
          have hbar : w.session.out.pc.barrier? = k.barrier? := by
            rcases hp with hp | hp <;> rw [hp] <;> rfl
          rcases hk with rfl | rfl
          · rcases hp with hp | hp
            · have hflush : w.session.out.flushes (.outbound .ready) = true := by
                simp only [Outbound.flushes, hp]
              rw [if_pos hflush]
              exact covered_of_flush hbox hbox' hp hsunk (hwaits.hand hbar)
            · have hat := hbox.place
              simp only [Outbound.At, hp] at hat
              cases hat.2
          · exact absurd hbar hwaits.only.2
      · have hpending := (Memory.command_ack (m := w.session.mem) (a := .handle (.sendFlush h))
          rfl rfl).2.2
        rw [hpending] at hack
        cases hack

theorem guarded_of_reachable (hr : Reachable (Watch.step cfg h) (careful cfg h) {} w) :
    Guarded h w := by
  induction hr with
  | init => exact ⟨⟨nofun, nofun⟩, fun _ => List.prefix_rfl, Nat.le_refl _, nofun, nofun⟩
  | step hr hok hs ih => exact ih.step (session_of_reachable hr) hok hs

end Watch

/-- **Flush is a barrier**, in every run in which the handle enqueues a frame only while no
`Shutdown` command was sent, and the FIN only when no flush is stored in it: when its `poll_flush`
or `poll_shutdown` returns `Ready(Ok)`, everything that was queued up to its last frame, credits
aside, is in the messages that were written when the sink was last flushed. -/
theorem flush_is_barrier {w : Watch} {l : Label}
    (hr : Reachable (Watch.step cfg h) (Watch.careful cfg h) {} w) (hl : w.returnsOk cfg h l) :
    w.Covered := by
  obtain ⟨-, hack⟩ := hl
  obtain ⟨n, hn, hack⟩ := Option.bind_eq_some_iff.1 hack
  exact (Watch.guarded_of_reachable hr).covered n hn hack

/-- The handle of `open_uni`, shut down twice: the second `poll_shutdown` returns `Ready(Ok)` after
the outbound task has flushed the FIN. -/
theorem flush_is_barrier_run :
    ∃ w, Reachable (Watch.step ⟨false, {}⟩ 0) (Watch.careful ⟨false, {}⟩ 0) {} w ∧
      w.returnsOk ⟨false, {}⟩ 0 (.op 2) ∧ w.mine = [.openUni ⟨2⟩, .stream ⟨2⟩ [] true] ∧
      w.Covered := by
  obtain ⟨w, hr, hret, hmine⟩ :
      ∃ w, Reachable (Watch.step ⟨false, {}⟩ 0) (Watch.careful ⟨false, {}⟩ 0) {} w ∧
        w.returnsOk ⟨false, {}⟩ 0 (.op 2) ∧ w.mine = [.openUni ⟨2⟩, .stream ⟨2⟩ [] true] :=
    Reachable.exists_of_run (List.flatten [[.call .openUni], List.replicate 7 (.op 0),
      List.replicate 7 (.outbound .ready), [.call (.pollShutdown 0)], List.replicate 14 (.op 1),
      List.replicate 12 (.outbound .ready), [.call (.pollShutdown 0)], List.replicate 3 (.op 2)]) (by decide +kernel)
  exact ⟨w, hr, hret, hmine, flush_is_barrier hr hret⟩

/-- **A stale flush breaks the barrier.** A `poll_flush` of the handle is abandoned while pending,
and the outbound task acknowledges it. The `poll_shutdown` that follows enqueues the FIN, finds the
old acknowledgement in the handle and returns `Ready(Ok)`: the FIN is still in the queue. -/
theorem stale_flush :
    ∃ w, Reachable (Watch.step ⟨false, {}⟩ 0) anyStep {} w ∧ w.returnsOk ⟨false, {}⟩ 0 (.op 2) ∧
      w.mine = [.openUni ⟨2⟩, .stream ⟨2⟩ [] true] ∧
      w.session.mem.chan.queue = [.frame (.stream ⟨2⟩ [] true)] ∧
      decodeMessages (binaries w.session.out.written) = some [.openUni ⟨2⟩] :=
  Reachable.exists_of_run (List.flatten [[.call .openUni], List.replicate 7 (.op 0),
    List.replicate 7 (.outbound .ready), [.call (.pollFlush 0)], List.replicate 5 (.op 1),
    List.replicate 5 (.outbound .ready), [.call (.pollShutdown 0)], List.replicate 10 (.op 2)]) (by decide +kernel)

end WebsockMux.Native
