import WebsockMux.Native.Admission
import WebsockMux.Native.SendRefine

/-!
# The order of opens

`open_uni` and `open_bi` allocate an identifier in one step and publish it in a later one, and the
peer's `validate_peer_stream_id` refuses an identifier below one it has already seen. The opens of a
direction reach the outbound queue in increasing order in runs in which that direction is opened by
one function at a time (`opens_increasing`), and not in all runs (`opens_out_of_order`).
-/

set_option autoImplicit false

namespace WebsockMux.Native

open WebsockMux.Lib WebsockMux.Proto

variable {cfg : Config} {m m' : Memory} {ts ts' : List Task} {who : Option Nat} {dir : StreamDir}

/-- The direction and the identifier that a frame opens. -/
def opened : Frame → Option (StreamDir × StreamId)
  | .openUni id => some (.uni, id)
  | .openBi id => some (.bi, id)
  | _ => none

/-- The open that a call of `send_frame` publishes. -/
def SendSite.opening : SendSite → Option (StreamDir × StreamId)
  | .openUni id => some (.uni, id)
  | .openBi id => some (.bi, id)
  | _ => none

/-- The identifier that a function has allocated and whose open it has not yet published. -/
def Task.opening : Task → Option (StreamDir × StreamId)
  | .registerSendFlow dir id => some (dir, id)
  | .registerRecvStream id => some (.bi, id)
  | .anyOf _ (.send s) => s.opening
  | .reserve s => s.opening
  | .publish s => s.opening
  | _ => none

/-- The functions that are opening a stream of a direction. -/
def Task.opens (dir : StreamDir) (t : Task) : Nat :=
  if t.opening.any (·.1 = dir) then 1 else 0

/-- The direction in which a function is about to allocate. -/
def Task.allocates : Task → Option StreamDir
  | .fetchAdd dir => some dir
  | _ => none

/-- A step that does not allocate an identifier of the direction while another function is opening a
stream of it. -/
def opensOneAtATime (dir : StreamDir) (s : Session) (l : Label) : Prop :=
  ∀ t ∈ s.acting l, dir ∈ t.allocates → ∀ t' ∈ s.tasks, t'.opens dir = 0

instance (s : Session) (l : Label) : Decidable (opensOneAtATime dir s l) := by
  unfold opensOneAtATime
  infer_instance

/-! ## What a function does with its open -/

theorem Ret.opening_resume (k : Ret) : k.resume.opening = none := by
  cases k <;> rfl

theorem SendSite.opening_resume (s : SendSite) (ok : Bool) : (s.resume cfg ok).opening = none := by
  cases s with
  | write c =>
      cases ok with
      | false => rfl
      | true =>
          simp only [SendSite.resume, writeLoop]
          split_ifs <;> rfl
  | inboundCredit i bi => cases bi <;> cases ok <;> rfl
  | _ => cases ok <;> rfl

theorem Check.opening_resume (c : Check) (b : Bool) (flags : List Flag) :
    (c.resume cfg b).opening = (Task.anyOf flags c).opening ∨ (c.resume cfg b).opening = none := by
  cases c with
  | send s =>
      cases b with
      | false => exact .inl rfl
      | true => exact .inr (s.opening_resume false)
  | trySend s k => cases s <;> cases b <;> exact .inr rfl
  | writeStart w =>
      right
      cases b with
      | true => rfl
      | false =>
          simp only [Check.resume, writeLoop]
          split_ifs <;> rfl
  | reserveOpen w =>
      right
      cases b with
      | false => rfl
      | true =>
          simp only [Check.resume, outOfCredit]
          split_ifs <;> rfl
  | noCredit w =>
      right
      cases b with
      | true => rfl
      | false =>
          simp only [Check.resume]
          split_ifs <;> rfl
  | _ => cases b <;> exact .inr rfl

/-- What a step of a function that allocates nothing means for the opens: the function keeps its
open or gives it up, and a published open is its own. -/
structure Task.KeepsOpen (m : Memory) (t : Task) (a : Access) (t' : Task) : Prop where
  next : ∀ d, (m.apply a).ids.next d = m.ids.next d
  opening : t'.opening = t.opening ∨ t'.opening = none
  published : ∀ f ∈ a.frame?, ∀ p ∈ opened f, t.opening = some p ∧ t'.opening = none

theorem Task.KeepsOpen.of_quiet {t t' : Task} {a : Access}
    (hnext : ∀ d, (m.apply a).ids.next d = m.ids.next d)
    (hopen : t'.opening = t.opening ∨ t'.opening = none) (hf : ∀ f ∈ a.frame?, opened f = none) :
    Task.KeepsOpen m t a t' where
  next := hnext
  opening := hopen
  published f hfa p hp := by
    rw [hf f hfa] at hp
    cases hp

theorem Task.KeepsOpen.of_silent {t t' : Task} {a : Access}
    (hnext : ∀ d, (m.apply a).ids.next d = m.ids.next d)
    (hopen : t'.opening = t.opening ∨ t'.opening = none) (hf : a.frame? = none) :
    Task.KeepsOpen m t a t' := by
  refine .of_quiet hnext hopen ?_
  intro f hfa
  rw [hf] at hfa
  cases hfa

/-- **Opening a stream.** A step allocates an identifier, or keeps the open of its function or gives
it up. -/
theorem Task.opening_next {t t' : Task} {a : Access} (hn : t.next cfg m = some (a, t')) :
    (∃ d, t = .fetchAdd d ∧ a = .id (.fetchAdd d) ∧
        ∀ p ∈ t'.opening, p.1 = d ∧ StreamId.new (m.ids.next d) cfg.isServer d = .ok p.2) ∨
      Task.KeepsOpen m t a t' := by
  replace hn := Task.steps_of_next hn
  induction hn with
  | fetchAdd d i hnew =>
      refine .inl ⟨d, rfl, rfl, fun p hp => ?_⟩
      cases hp
      exact ⟨rfl, hnew⟩
  | fetchAddFailed d => exact .inl ⟨d, rfl, rfl, fun p hp => by cases hp⟩
  | validatePeer => exact .inr (.of_silent (fun d => Ids.next_peer _ _ _) (.inr rfl) rfl)
  | publish s =>
      right
      refine ⟨fun _ => rfl, .inr (s.opening_resume true), fun f hf p hp => ?_⟩
      cases hf
      refine ⟨?_, s.opening_resume true⟩
      cases s <;> cases hp <;> rfl
  | unpublished s | reserveClosed s =>
      exact .inr (.of_silent (fun _ => rfl) (.inr (s.opening_resume false)) rfl)
  | trySend s k =>
      right
      refine .of_quiet (fun _ => rfl) (.inr (by cases s <;> rfl)) fun f hf => ?_
      cases hf
      cases s <;> rfl
  | trySendFull s k =>
      exact .inr (.of_silent (fun _ => rfl) (.inr (by cases s <;> rfl)) rfl)
  | anyOfNil c | anyOfSet f fs c | anyOfLast f c =>
      exact .inr (.of_silent (fun _ => rfl) (c.opening_resume _ _) rfl)
  | anyOf f fs c => exact .inr (.of_silent (fun _ => rfl) (.inl (by cases c <;> rfl)) rfl)
  | reserve | registerUni | registerBi | registerRecvStream =>
      exact .inr (.of_silent (fun _ => rfl) (.inl rfl) rfl)
  | closeAll c k =>
      right
      cases c with
      | closeFlows => exact .of_silent (fun _ => rfl) (.inr k.opening_resume) rfl
      | _ => exact .of_silent (fun _ => rfl) (.inr rfl) rfl
  | pollPublish | shutdownPublish =>
      right
      refine .of_quiet (fun _ => rfl) (.inr rfl) fun f hf => ?_
      cases hf
      rfl
  | outOfCredit w =>
      exact .inr (.of_silent (fun _ => rfl) (.inr (outOfCredit_elim w fun _ => rfl)) rfl)
  | casSent => exact .inr (.of_silent (fun _ => rfl) (.inr (granted_elim _ rfl rfl)) rfl)
  | selectApi c | selectApiSame c =>
      exact .inr (.of_silent (fun _ => rfl) (.inr (by cases c <;> rfl)) rfl)
  | swapOperation c =>
      refine .inr (.of_silent (fun _ => rfl) (.inr ?_) rfl)
      cases c <;> simp only [SendCall.body] <;> (try split_ifs) <;> rfl
  | cancel k | closeAllAgain k | releaseHandle _ k | closeReceiver _ k | dropTx _ k =>
      exact .inr (.of_silent (fun _ => rfl) (.inr k.opening_resume) rfl)
  | acceptLockGone | acceptClosed =>
      exact .inr (.of_silent (fun _ => rfl) (.inr (Ret.opening_resume _)) rfl)
  | _ =>
      -- the other functions open nothing
      exact .inr (.of_silent (fun _ => rfl) (.inr rfl) rfl)

/-! ## The invariant of a direction that is opened by one function at a time -/

/-- An identifier that `next_stream_id` has returned for a direction. -/
structure Allocated (cfg : Config) (dir : StreamDir) (x : Ids) (id : StreamId) : Prop where
  dir_eq : id.dir = dir
  initiator : id.initiatorIsServer = cfg.isServer
  val_le : id.val ≤ VarInt.max
  counter_lt : id.counter < x.next dir

/-- Allocated identifiers stay allocated. -/
theorem Allocated.mono {x x' : Ids} {id : StreamId} (h : Allocated cfg dir x id)
    (hle : x.next dir ≤ x'.next dir) : Allocated cfg dir x' id :=
  { h with counter_lt := h.counter_lt.trans_le hle }

/-- The identifiers of a direction whose opens are in the queue's history. -/
def Memory.HasOpened (m : Memory) (dir : StreamDir) (id : StreamId) : Prop :=
  ∃ f ∈ m.chan.admitted, opened f = some (dir, id)

/-- What holds of the opens of a direction: the published ones are in order, and the one in progress
is later than all of them. -/
structure OpenInv (cfg : Config) (dir : StreamDir) (m : Memory) (ts : List Task) : Prop where
  opening : ∀ t ∈ ts, ∀ id, t.opening = some (dir, id) → Allocated cfg dir m.ids id
  later : ∀ t ∈ ts, ∀ id, t.opening = some (dir, id) → ∀ a, m.HasOpened dir a →
    a.counter < id.counter
  published : ∀ a, m.HasOpened dir a → Allocated cfg dir m.ids a
  increasing : m.chan.admitted.Pairwise fun f g => ∀ a b, opened f = some (dir, a) →
    opened g = some (dir, b) → a.counter < b.counter
  single : total (Task.opens dir) ts ≤ 1

theorem Task.opens_of_opening {t : Task} {id : StreamId} (h : t.opening = some (dir, id)) :
    t.opens dir = 1 := by
  simp [Task.opens, h]

theorem Task.opens_of_none {t : Task} (h : t.opening = none) : t.opens dir = 0 := by
  simp [Task.opens, h]

theorem Task.opens_of_ne {t : Task} (h : ∀ p ∈ t.opening, p.1 ≠ dir) : t.opens dir = 0 := by
  unfold Task.opens
  cases ho : t.opening with
  | none => rfl
  | some p =>
      have := h p ho
      simp [this]

namespace OpenInv

/-- The history grows by frames that open nothing in the direction. -/
theorem hasOpened_append {l : List Frame} (hm : m'.chan.admitted = m.chan.admitted ++ l)
    (hl : ∀ f ∈ l, ∀ id, opened f ≠ some (dir, id)) {a : StreamId} (h : m'.HasOpened dir a) :
    m.HasOpened dir a := by
  obtain ⟨f, hf, hfa⟩ := h
  rw [hm] at hf
  rcases List.mem_append.1 hf with hf | hf
  · exact ⟨f, hf, hfa⟩
  · exact absurd hfa (hl f hf a)

/-- A function keeps its open or gives it up, and publishes no open of the direction. -/
theorem keep (hinv : OpenInv cfg dir m ts) {i : Nat} {t t' : Task} {l : List Frame}
    (hi : ts[i]? = some t) (ho : t'.opening = t.opening ∨ t'.opens dir = 0)
    (hnext : m.ids.next dir ≤ m'.ids.next dir) (hm : m'.chan.admitted = m.chan.admitted ++ l)
    (hl : ∀ f ∈ l, ∀ id, opened f ≠ some (dir, id)) : OpenInv cfg dir m' (ts.set i t') := by
  have hmem := List.mem_of_getElem? hi
  have hold : ∀ t₁ ∈ ts.set i t', ∀ id, t₁.opening = some (dir, id) →
      ∃ t₂ ∈ ts, t₂.opening = some (dir, id) := by
    refine forall_mem_set (fun t₁ ht₁ id hid => ⟨t₁, ht₁, hid⟩) fun id hid => ?_
    rcases ho with ho | ho
    · exact ⟨t, hmem, ho ▸ hid⟩
    · rw [Task.opens_of_opening hid] at ho
      cases ho
  refine
    { opening := fun t₁ ht₁ id hid => ?_
      later := fun t₁ ht₁ id hid a ha => ?_
      published := fun a ha => (hinv.published a (hasOpened_append hm hl ha)).mono hnext
      increasing := ?_
      single := ?_ }
  · obtain ⟨t₂, ht₂, hid₂⟩ := hold t₁ ht₁ id hid
    exact (hinv.opening t₂ ht₂ id hid₂).mono hnext
  · obtain ⟨t₂, ht₂, hid₂⟩ := hold t₁ ht₁ id hid
    exact hinv.later t₂ ht₂ id hid₂ a (hasOpened_append hm hl ha)
  · rw [hm, List.pairwise_append]
    refine ⟨hinv.increasing, List.pairwise_iff_forall_sublist.2 fun hsub a b ha _ => ?_,
      fun f _ g hg a b _ hb => absurd hb (hl g hg b)⟩
    exact absurd ha (hl _ (hsub.subset List.mem_cons_self) a)
  · have htot := total_set (f := Task.opens dir) (y := t') hi
    have hle : t'.opens dir ≤ t.opens dir := by
      rcases ho with ho | ho
      · exact (show t'.opens dir = t.opens dir by unfold Task.opens; rw [ho]).le
      · omega
    have := hinv.single
    omega

/-- The only function that is opening a stream of the direction publishes its open. -/
theorem publish (hinv : OpenInv cfg dir m ts) {i : Nat} {t t' : Task} {f : Frame} {id : StreamId}
    (hi : ts[i]? = some t) (ho : t.opening = some (dir, id)) (ho' : t'.opening = none)
    (hf : opened f = some (dir, id)) (hnext : m.ids.next dir ≤ m'.ids.next dir)
    (hm : m'.chan.admitted = m.chan.admitted ++ [f]) : OpenInv cfg dir m' (ts.set i t') := by
  have hmem := List.mem_of_getElem? hi
  have htot := total_set (f := Task.opens dir) (y := t') hi
  have hzero : total (Task.opens dir) (ts.set i t') = 0 := by
    have := hinv.single
    rw [Task.opens_of_opening ho, Task.opens_of_none ho'] at htot
    omega
  -- nobody else is opening a stream of the direction
  have hnone : ∀ t₁ ∈ ts.set i t', ∀ a, t₁.opening ≠ some (dir, a) := by
    intro t₁ ht₁ a ha
    have := le_total (f := Task.opens dir) ht₁
    rw [Task.opens_of_opening ha] at this
    omega
  have hcases : ∀ a, m'.HasOpened dir a → m.HasOpened dir a ∨ a = id := by
    rintro a ⟨g, hg, hga⟩
    rw [hm] at hg
    rcases List.mem_append.1 hg with hg | hg
    · exact .inl ⟨g, hg, hga⟩
    · cases List.mem_singleton.1 hg
      rw [hf] at hga
      cases hga
      exact .inr rfl
  refine
    { opening := fun t₁ ht₁ a ha => absurd ha (hnone t₁ ht₁ a)
      later := fun t₁ ht₁ a ha => absurd ha (hnone t₁ ht₁ a)
      published := fun a ha => ?_
      increasing := ?_
      single := by omega }
  · rcases hcases a ha with ha | rfl
    · exact (hinv.published a ha).mono hnext
    · exact (hinv.opening t hmem a ho).mono hnext
  · rw [hm, List.pairwise_append]
    refine ⟨hinv.increasing, List.pairwise_singleton _ _, fun g hg f' hf' a b ha hb => ?_⟩
    cases List.mem_singleton.1 hf'
    rw [hf] at hb
    cases hb
    exact hinv.later t hmem id ho a ⟨g, hg, ha⟩

/-- A function allocates the next identifier while nobody is opening a stream of the direction. -/
theorem allocate (hinv : OpenInv cfg dir m ts) {i : Nat} {t t' : Task} (hi : ts[i]? = some t)
    (hidle : ∀ t ∈ ts, t.opens dir = 0) (hnext : m'.ids.next dir = m.ids.next dir + 1)
    (hnew : ∀ id, t'.opening = some (dir, id) →
      StreamId.new (m.ids.next dir) cfg.isServer dir = .ok id)
    (hm : m'.chan.admitted = m.chan.admitted) : OpenInv cfg dir m' (ts.set i t') := by
  have hle : m.ids.next dir ≤ m'.ids.next dir := by omega
  have hsame : ∀ a, m'.HasOpened dir a → m.HasOpened dir a := by
    rintro a ⟨f, hf, hfa⟩
    exact ⟨f, hm ▸ hf, hfa⟩
  have hold : ∀ t₁ ∈ ts, ∀ id, t₁.opening ≠ some (dir, id) := by
    intro t₁ ht₁ id hid
    have := hidle t₁ ht₁
    rw [Task.opens_of_opening hid] at this
    cases this
  refine
    { opening := forall_mem_set (fun t₁ ht₁ id hid => absurd hid (hold t₁ ht₁ id))
        fun id hid => ?_
      later := forall_mem_set (fun t₁ ht₁ id hid => absurd hid (hold t₁ ht₁ id))
        fun id hid a ha => ?_
      published := fun a ha => (hinv.published a (hsame a ha)).mono hle
      increasing := hm ▸ hinv.increasing
      single := ?_ }
  · obtain ⟨hc, hs, hd, hv⟩ := StreamId.new_ok (hnew id hid)
    exact ⟨hd, hs, hv, by omega⟩
  · obtain ⟨hc, -⟩ := StreamId.new_ok (hnew id hid)
    rw [hc]
    exact (hinv.published a (hsame a ha)).counter_lt
  · have htot := total_set (f := Task.opens dir) (y := t') hi
    have hz : total (Task.opens dir) ts = 0 := total_eq_zero hidle
    have hone : t'.opens dir ≤ 1 := by
      unfold Task.opens
      split_ifs <;> omega
    omega

/-- The opens depend only on the counters and on the history of the queue. -/
theorem congr (hinv : OpenInv cfg dir m ts) (hids : m'.ids = m.ids)
    (hm : m'.chan.admitted = m.chan.admitted) : OpenInv cfg dir m' ts := by
  have hsame : ∀ a, m'.HasOpened dir a → m.HasOpened dir a := by
    rintro a ⟨f, hf, hfa⟩
    exact ⟨f, hm ▸ hf, hfa⟩
  exact
    { opening := hids ▸ hinv.opening
      later := fun t ht id hid a ha => hinv.later t ht id hid a (hsame a ha)
      published := fun a ha => hids ▸ hinv.published a (hsame a ha)
      increasing := hm ▸ hinv.increasing
      single := hinv.single }

/-- A new function that opens nothing yet. -/
theorem spawn (hinv : OpenInv cfg dir m ts) {t : Task} (ht : t.opening = none) :
    OpenInv cfg dir m (ts ++ [t]) := by
  refine
    { opening := forall_mem_concat hinv.opening fun id hid => ?_
      later := forall_mem_concat hinv.later fun id hid => ?_
      published := hinv.published
      increasing := hinv.increasing
      single := ?_ }
  · rw [ht] at hid
    cases hid
  · rw [ht] at hid
    cases hid
  · rw [total_append, Task.opens_of_none ht]
    exact hinv.single

theorem init (cfg : Config) (dir : StreamDir) : OpenInv cfg dir {} [.done, .done] where
  opening := by
    intro t ht id hid
    simp only [List.mem_cons, List.not_mem_nil, or_false, or_self] at ht
    rw [ht] at hid
    cases hid
  later := by
    rintro t - id - a ⟨f, hf, -⟩
    cases hf
  published := by
    rintro a ⟨f, hf, -⟩
    cases hf
  increasing := List.Pairwise.nil
  single := by simp [Task.opens, Task.opening]

end OpenInv

theorem LoopAccess.ids_eq {a : Access} (ha : LoopAccess m a) : (m.apply a).ids = m.ids := by
  cases ha <;> rfl

theorem Turn.opening_eq {v : View} {t t' : Task} {fs : List Frame} {b : Bool}
    (h : Turn cfg v t t' fs b) : t'.opening = none := by
  cases h with
  | @frame f hl hf => cases f <;> simp only [handleFrame] <;> (try split_ifs) <;> rfl
  | _ => rfl

theorem Task.opening_cancelled {t t' : Task} (h : t.cancelled = some t') : t'.opening = none := by
  cases t with
  | reserve s => cases s <;> cases h <;> rfl
  | _ => cases h <;> rfl

theorem Task.opening_aborted {t t' : Task} (h : t.aborted = some t') : t'.opening = none := by
  cases t with
  | reserve s => cases s <;> cases h <;> rfl
  | acceptLock i x =>
      cases h
      exact Ret.opening_resume _
  | closeAll c k => cases c <;> cases h <;> exact k.opening_resume
  | _ => cases h

theorem Task.opening_timedOut {t t' : Task} (h : t.timedOut = some t') : t'.opening = none := by
  cases t <;> cases h <;> rfl

theorem Call.opening_start {c : Call} {u : Use} {a : Access} {t : Task}
    (h : c.start m = some (u, a, t)) : t.opening = none ∧ (m.apply a).ids = m.ids := by
  cases Call.starts_of_start h <;> exact ⟨rfl, rfl⟩

/-- **A move keeps the order of opens** when an allocation finds nobody else opening. -/
theorem OpenInv.moves {v v' : View} (hinv : OpenInv cfg dir v.mem v.tasks)
    (h : Moves cfg v who v')
    (hone : ∀ i t, who = some i → v.tasks[i]? = some t → dir ∈ t.allocates →
      ∀ t' ∈ v.tasks, t'.opens dir = 0) : OpenInv cfg dir v'.mem v'.tasks := by
  have hnil : ∀ {m₁ : Memory}, m₁.chan.admitted = v.mem.chan.admitted →
      m₁.chan.admitted = v.mem.chan.admitted ++ [] := fun h => by rw [h, List.append_nil]
  cases h with
  | @next i t t' a hi hn =>
      rcases Task.opening_next hn with ⟨d, rfl, rfl, hnew⟩ | hk
      · by_cases hd : d = dir
        · subst hd
          refine hinv.allocate hi (hone i _ rfl hi rfl) ?_ (fun id hid => (hnew _ hid).2) rfl
          exact (Ids.next_fetchAdd v.mem.ids d d).trans (if_pos rfl)
        · refine hinv.keep hi (.inr (Task.opens_of_ne fun p hp => (hnew p hp).1 ▸ hd)) ?_
            (hnil rfl) nofun
          exact ((Ids.next_fetchAdd v.mem.ids d dir).trans (if_neg (Ne.symm hd))).ge
      · have hle := (hk.next dir).ge
        have hopen : t'.opening = t.opening ∨ t'.opens dir = 0 :=
          hk.opening.imp_right Task.opens_of_none
        by_cases hpub : ∃ f ∈ a.frame?, ∃ id, opened f = some (dir, id)
        · obtain ⟨f, hf, id, hid⟩ := hpub
          obtain ⟨ho, ho'⟩ := hk.published f hf _ hid
          refine hinv.publish hi ho ho' hid hle ?_
          rw [Memory.admitted_apply, hf]
          rfl
        · refine hinv.keep hi hopen hle (Memory.admitted_apply v.mem a) fun f hf id hid => ?_
          exact hpub ⟨f, Option.mem_toList.1 hf, id, hid⟩
  | cancel hi hc =>
      exact hinv.keep hi (.inr (Task.opens_of_none (Task.opening_cancelled hc))) le_rfl
        (hnil rfl) nofun
  | timeout hi hc =>
      exact hinv.keep hi (.inr (Task.opens_of_none (Task.opening_timedOut hc))) le_rfl
        (hnil rfl) nofun
  | abort hi ha =>
      exact hinv.keep hi (.inr (Task.opens_of_none (Task.opening_aborted ha))) le_rfl
        (hnil rfl) nofun
  | turn hi ht =>
      exact hinv.keep hi (.inr (Task.opens_of_none ht.opening_eq)) le_rfl (hnil rfl) nofun
  | exit hi => exact hinv.keep hi (.inr rfl) le_rfl (hnil rfl) nofun
  | spawn hc =>
      obtain ⟨ht, hids⟩ := Call.opening_start hc
      refine (hinv.congr hids ?_).spawn ht
      rw [Memory.admitted_apply, Call.frame?_start hc]
      exact List.append_nil _
  | loop ha hb =>
      refine hinv.congr ha.ids_eq ?_
      rw [Memory.admitted_apply, ha.frame?_eq]
      exact List.append_nil _

theorem openInv_of_reachable {s : Session}
    (hr : Reachable (Session.step cfg) (opensOneAtATime dir) {} s) :
    OpenInv cfg dir s.mem s.tasks :=
  hr.invariant (I := fun s => OpenInv cfg dir s.mem s.tasks) (OpenInv.init cfg dir)
    fun _ hinv hok hs => hinv.moves (Session.moves_of_step hs)
      fun _ t hl hi ht => hok t (Session.acting_eq hl hi) ht

/-! ## The peer's view -/

/-- The identifiers of a direction in the order in which their opens were put into the queue. -/
def Memory.opensIn (dir : StreamDir) (m : Memory) : List StreamId :=
  m.chan.admitted.filterMap fun f =>
    (opened f).bind fun p => if p.1 = dir then some p.2 else none

/-- A peer validates opens one after the other with `validate_peer_stream_id`. -/
def Ids.validateAll (x : Ids) : List StreamId → Bool
  | [] => true
  | id :: ids => x.validatePeerStreamId id && (x.apply (.peer id)).validateAll ids

/-- A peer accepts identifiers in increasing order. -/
theorem Ids.validateAll_of_increasing : ∀ (ids : List StreamId) (x : Ids),
    (∀ id ∈ ids, x.nextPeer id.dir ≤ id.counter) → (∀ id ∈ ids, id.val ≤ VarInt.max) →
      ids.Pairwise (fun a b => a.counter < b.counter) → x.validateAll ids = true
  | [], _, _, _, _ => rfl
  | id :: ids, x, hx, hv, hp => by
      rw [List.pairwise_cons] at hp
      unfold validateAll
      rw [Bool.and_eq_true]
      refine ⟨decide_eq_true (hx id List.mem_cons_self), ?_⟩
      refine validateAll_of_increasing ids _ (fun b hb => ?_)
        (fun b hb => hv b (List.mem_cons_of_mem _ hb)) hp.2
      rw [Ids.nextPeer_peer (hv id List.mem_cons_self)]
      split_ifs
      · exact hp.1 b hb
      · exact hx b (List.mem_cons_of_mem _ hb)

theorem Memory.mem_opensIn {a : StreamId} (h : a ∈ m.opensIn dir) : m.HasOpened dir a := by
  obtain ⟨f, hf, hfa⟩ := List.mem_filterMap.1 h
  obtain ⟨p, hp, hpa⟩ := Option.bind_eq_some_iff.1 hfa
  split_ifs at hpa with hd
  cases hpa
  exact ⟨f, hf, hd ▸ hp⟩

/-- **Opens are in order.** In a run in which a direction is opened by one function at a time, its
opens are put into the queue in strictly increasing order, and a peer accepts all of them. -/
theorem opens_increasing (dir : StreamDir) {s : Session}
    (hr : Reachable (Session.step cfg) (opensOneAtATime dir) {} s) :
    (s.mem.opensIn dir).Pairwise (fun a b => a.val < b.val) ∧
      ({} : Ids).validateAll (s.mem.opensIn dir) = true := by
  have hinv := openInv_of_reachable hr
  have hpub : ∀ a ∈ s.mem.opensIn dir, Allocated cfg dir s.mem.ids a := fun a ha =>
    hinv.published a (Memory.mem_opensIn ha)
  have hlt : (s.mem.opensIn dir).Pairwise (fun a b => a.counter < b.counter) := by
    refine List.pairwise_filterMap.2 (hinv.increasing.imp ?_)
    intro f g hfg a ha b hb
    obtain ⟨⟨_, _⟩, hp, hpa⟩ := Option.bind_eq_some_iff.1 ha
    obtain ⟨⟨_, _⟩, hq, hqb⟩ := Option.bind_eq_some_iff.1 hb
    split_ifs at hpa hqb with h1 h2
    cases hpa
    cases hqb
    exact hfg _ _ (h1 ▸ hp) (h2 ▸ hq)
  refine ⟨hlt.imp fun {a b} hab => ?_, Ids.validateAll_of_increasing _ _ (fun a _ => ?_)
    (fun a ha => (hpub a ha).val_le) hlt⟩
  · rw [StreamId.counter_eq, StreamId.counter_eq] at hab
    omega
  · cases a.dir <;> exact Nat.zero_le _

/-- Two streams are opened one after the other. -/
theorem opens_increasing_run :
    ∃ s, Reachable (Session.step ⟨false, {}⟩) (opensOneAtATime .uni) {} s ∧
      s.mem.opensIn .uni = [⟨2⟩, ⟨6⟩] ∧
      (s.mem.opensIn .uni).Pairwise (fun a b => a.val < b.val) ∧
      ({} : Ids).validateAll (s.mem.opensIn .uni) = true := by
  obtain ⟨s, hr, hs⟩ : ∃ s, Reachable (Session.step ⟨false, {}⟩) (opensOneAtATime .uni) {} s ∧
      s.mem.opensIn .uni = [⟨2⟩, ⟨6⟩] :=
    Reachable.exists_of_run (List.flatten [[.call .openUni, .call .openUni],
      List.replicate 6 (.op 0), List.replicate 6 (.op 1)]) (by decide +kernel)
  exact ⟨s, hr, hs, opens_increasing .uni hr⟩

/-- **Opens can be out of order.** Two functions allocate the identifiers 2 and 6; the second one is
the first to publish, and the peer refuses the other open. -/
theorem opens_out_of_order :
    ∃ s, Reachable (Session.step ⟨false, {}⟩) anyStep {} s ∧
      s.mem.opensIn .uni = [⟨6⟩, ⟨2⟩] ∧ ({} : Ids).validateAll (s.mem.opensIn .uni) = false :=
  Reachable.exists_of_run (List.flatten [[.call .openUni, .call .openUni, .op 0, .op 1],
    List.replicate 5 (.op 1), List.replicate 5 (.op 0)]) (by decide +kernel)

end WebsockMux.Native
