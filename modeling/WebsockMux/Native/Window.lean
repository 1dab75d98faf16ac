import WebsockMux.Native.RecvInvariant

/-!
# The receive window

The limit of a receive stream starts at the initial window and is raised by its one reader, which
stores the new limit before it queues it for the peer. So every limit that was or will be announced
to the peer is at most the limit in force (`RecvWindow`).
-/

set_option autoImplicit false

namespace WebsockMux.Native

open WebsockMux.Lib WebsockMux.Proto

/-- The limit that a role has still to store or to queue. -/
def RecvRole.grants : RecvRole → Option Nat
  | storing target => some target
  | queueing target => some target
  | _ => Option.none

/-- What the window of a receive direction depends on: its registrations, the limit in force, the
limit granted by the reader, the announced limits and the entry of `pending_credit`. -/
def RecvDirection.window (d : RecvDirection) : Nat × Nat × Nat × List Nat × Nat :=
  (d.registered, d.cell.maxData, d.cell.reader.granted, d.cell.credits, d.cell.credit)

/-- The invariant of the window. -/
structure RecvWindow (l : Limits) (d : RecvDirection) (rs : List RecvRole) : Prop where
  one_reader : total RecvRole.readers rs ≤ 1
  initial : 0 < d.registered → l.initialStreamWindow ≤ d.cell.maxData
  granted : d.cell.maxData ≤ d.cell.reader.granted
  granted_le : d.cell.reader.granted ≤ VarInt.max
  /-- The limit in force is the granted one, unless the reader has still to store that. -/
  stored : d.cell.maxData = d.cell.reader.granted ∨ ∃ t, .storing t ∈ rs
  storing : ∀ t, .storing t ∈ rs → t = d.cell.reader.granted
  queueing : ∀ t, .queueing t ∈ rs → t = d.cell.maxData
  /-- What is announced, in any of three ways, is at most the limit in force. -/
  pending : d.pending = true → d.cell.credit ≤ d.cell.maxData
  credits : ∀ c ∈ d.cell.credits, c ≤ d.cell.maxData
  log : ∀ c, .credit c ∈ d.log → c ≤ d.cell.maxData

namespace RecvWindow

variable {l : Limits} {d d' : RecvDirection} {rs rs' : List RecvRole} {i : Nat} {r r' : RecvRole}
  {e : RecvChange} {dead blocked : Prop}

theorem initial_state (l : Limits) (own : Bool) (dead blocked : Prop) :
    RecvWindow l (.initial own dead blocked) [.none, .none] where
  one_reader := by decide
  initial h := absurd h (Nat.lt_irrefl 0)
  granted := Nat.le_refl _
  granted_le := Nat.zero_le _
  stored := .inl rfl
  storing := by simp
  queueing := by simp
  pending := nofun
  credits := nofun
  log := nofun

/-- A step that does not touch the window. -/
theorem quiet (h : RecvWindow l d rs) (hw : d'.window = d.window)
    (hp : d'.pending = true → d.pending = true)
    (hlog : ∀ c, .credit c ∈ d'.log → .credit c ∈ d.log)
    (hone : total RecvRole.readers rs' ≤ 1)
    (hrs : ∀ r, r.grants ≠ none → (r ∈ rs' ↔ r ∈ rs)) : RecvWindow l d' rs' := by
  simp only [RecvDirection.window, Prod.mk.injEq] at hw
  obtain ⟨hreg, hmax, hgranted, hcredits, hcredit⟩ := hw
  refine ⟨hone, ?_, ?_, ?_, ?_, ?_, ?_, ?_, ?_, ?_⟩
  · rw [hreg, hmax]
    exact h.initial
  · rw [hmax, hgranted]
    exact h.granted
  · rw [hgranted]
    exact h.granted_le
  · rw [hmax, hgranted]
    exact h.stored.imp_right fun ⟨t, ht⟩ => ⟨t, (hrs (.storing t) nofun).2 ht⟩
  · intro t ht
    rw [hgranted]
    exact h.storing t ((hrs (.storing t) nofun).1 ht)
  · intro t ht
    rw [hmax]
    exact h.queueing t ((hrs (.queueing t) nofun).1 ht)
  · intro hpend
    rw [hcredit, hmax]
    exact h.pending (hp hpend)
  · rw [hcredits, hmax]
    exact h.credits
  · intro c hc
    rw [hmax]
    exact h.log c (hlog c hc)

/-- The roles that have a limit to store or to queue, when another one acts. -/
theorem mem_set_iff (hi : rs[i]? = some r) (hr : r.grants = none) (hr' : r'.grants = none) :
    ∀ q : RecvRole, q.grants ≠ none → (q ∈ rs.set i r' ↔ q ∈ rs) := by
  intro q hq
  constructor
  · intro h
    rcases List.mem_or_eq_of_mem_set h with h | rfl
    · exact h
    · exact absurd hr' hq
  · intro h
    refine mem_set_of_ne hi h ?_ r'
    rintro rfl
    exact hq hr

end RecvWindow

/-- A step does not make a second reader. -/
theorem RecvDirection.Step.readers_le {l : Limits} {d : RecvDirection} {r r' : RecvRole}
    {e : RecvChange} {dead blocked : Prop} (hs : d.Step l dead blocked r e r') :
    r'.readers ≤ r.readers := by
  have hlight : ∀ {q : RecvRole}, q.light = true → q.readers = 0 := by
    intro q hq
    rcases RecvRole.light_cases hq with rfl | rfl <;> rfl
  have hafter : ∀ ev, (RecvRole.afterEvent ev).readers = 0 := by
    intro ev
    rcases RecvRole.afterEvent_cases ev with ⟨-, h⟩ | ⟨-, h⟩ <;> rw [h] <;> rfl
  cases hs with
  | lower hr' => exact (hlight hr').trans_le (Nat.zero_le _)
  | dropFinished _ hr' => exact (hlight hr').trans_le (Nat.zero_le _)
  | dropSkip _ hr' => exact (hlight hr').trans_le (Nat.zero_le _)
  | publishStop hr' => exact (hlight hr').trans_le (Nat.zero_le _)
  | stopFail _ hr' => exact (hlight hr').trans_le (Nat.zero_le _)
  | receiveStopped => exact (hafter _).trans_le (Nat.zero_le _)
  | deliver => exact (hafter _).trans_le (Nat.zero_le _)
  | deliverClosed => exact (hafter _).trans_le (Nat.zero_le _)
  | read _ hr' => rcases hr' with rfl | rfl <;> decide
  | _ => first | exact Nat.le_refl _ | exact Nat.zero_le _

namespace RecvWindow

variable {l : Limits} {d d' : RecvDirection} {rs rs' : List RecvRole} {i : Nat} {r r' : RecvRole}
  {e : RecvChange} {dead blocked : Prop}

/-- While one role reads, no other one has a limit to store or to queue. -/
theorem eq_of_reader (h : RecvWindow l d rs) (hi : rs[i]? = some r) (hr : r.readers = 1)
    {q : RecvRole} (hq : q ∈ rs) (hg : q.grants ≠ none) : q = r := by
  obtain ⟨j, hj⟩ := List.getElem?_of_mem hq
  have hqr : q.readers = 1 := by
    cases q with
    | storing t => rfl
    | queueing t => rfl
    | _ => exact absurd rfl hg
  by_cases hij : i = j
  · subst hij
    rw [hi] at hj
    exact (Option.some.inj hj).symm
  · have hle := add_le_total (f := RecvRole.readers) hi hj hij
    have hone := h.one_reader
    omega

theorem one_reader_set (h : RecvWindow l d rs) (hi : rs[i]? = some r)
    (hs : d.Step l dead blocked r e r') : total RecvRole.readers (rs.set i r') ≤ 1 := by
  have ht := total_set (f := RecvRole.readers) (y := r') hi
  have hle := hs.readers_le
  have hone := h.one_reader
  omega

/-- The stream is registered. -/
theorem register (hw : l.initialStreamWindow ≤ VarInt.max) (hown : RecvOwner d rs)
    (hi : rs[i]? = some .token) (hr' : r'.grants = none)
    (hone : total RecvRole.readers (rs.set i r') ≤ 1) :
    RecvWindow l (d.after (.register l.initialStreamWindow) dead blocked) (rs.set i r') := by
  have hz := hown.unregistered_of_token hi
  have hun := hown.unregistered hz
  -- before the registration no role refers to the stream
  have hno : ∀ q ∈ rs.set i r', q.grants = none := by
    refine forall_mem_set (fun q hq => ?_) hr'
    by_contra hg
    have huse : q.uses = true := by
      cases q with
      | storing t => rfl
      | queueing t => rfl
      | _ => exact absurd rfl hg
    have hpos := hown.uses_registered q hq huse
    omega
  refine ⟨hone, fun _ => Nat.le_refl _, Nat.le_refl _, hw, .inl rfl, ?_, ?_, ?_, ?_, ?_⟩
  · intro t ht
    exact absurd (hno _ ht) nofun
  · intro t ht
    exact absurd (hno _ ht) nofun
  · intro hp
    have hp' : d.pending = true := hp
    rw [hun.2.2.1] at hp'
    cases hp'
  · intro c hc
    cases hc
  · intro c hc
    have hc' : .credit c ∈ d.log := hc
    rw [hun.2.2.2] at hc'
    cases hc'

/-- A read grants a new limit. -/
theorem readGrant (h : RecvWindow l d rs) (hi : rs[i]? = some .reading) {r : RecvStream}
    {events taken : List RecvEvent} {target : Nat}
    (hread : RecvStream.Reads l d.hasSender d.cell.reader d.cell.events r events taken (some target))
    (hone : total RecvRole.readers (rs.set i (.storing target)) ≤ 1) :
    RecvWindow l (d.after (.read r events) dead blocked) (rs.set i (.storing target)) := by
  have hno : ∀ q ∈ rs, q.grants = none := by
    intro q hq
    by_contra hg
    rw [h.eq_of_reader hi rfl hq hg] at hg
    exact hg rfl
  have hgr : r.granted = target := hread.granted
  have hlt := hread.grows target rfl
  have hle : d.cell.maxData ≤ r.granted := by
    have := h.granted
    omega
  have hmem : .storing target ∈ rs.set i (.storing target) :=
    List.mem_set (List.getElem?_eq_some_iff.1 hi).1 _
  refine ⟨hone, h.initial, hle, ?_, .inr ⟨target, hmem⟩, ?_, ?_, h.pending, h.credits, h.log⟩
  · show r.granted ≤ VarInt.max
    rw [hgr]
    exact hlt.2
  · intro t ht
    rcases List.mem_or_eq_of_mem_set ht with ht | ht
    · exact absurd (hno _ ht) nofun
    · cases ht
      exact hgr.symm
  · intro t ht
    rcases List.mem_or_eq_of_mem_set ht with ht | ht
    · exact absurd (hno _ ht) nofun
    · cases ht

/-- The reader stores the granted limit. -/
theorem storeMax (h : RecvWindow l d rs) {target : Nat} (hi : rs[i]? = some (.storing target))
    (hone : total RecvRole.readers (rs.set i (.queueing target)) ≤ 1) :
    RecvWindow l (d.after (.storeMax target) dead blocked) (rs.set i (.queueing target)) := by
  have hno : ∀ q ∈ rs, q.grants ≠ none → q = .storing target :=
    fun q hq hg => h.eq_of_reader hi rfl hq hg
  have ht := h.storing target (List.mem_of_getElem? hi)
  have hle : d.cell.maxData ≤ target := by
    have := h.granted
    omega
  refine ⟨hone, fun hreg => (h.initial hreg).trans hle, ht.le, h.granted_le, .inl ht, ?_, ?_, ?_,
    fun c hc => (h.credits c hc).trans hle, fun c hc => (h.log c hc).trans hle⟩
  · intro t hmem
    rcases List.mem_or_eq_of_mem_set hmem with hmem | hmem
    · cases hno _ hmem nofun
      exact ht
    · cases hmem
  · intro t hmem
    rcases List.mem_or_eq_of_mem_set hmem with hmem | hmem
    · cases hno _ hmem nofun
    · cases hmem
      rfl
  · intro hp
    exact (h.pending hp).trans hle

/-- Once the one reader is done, no role has a limit to store or to queue. -/
theorem no_grants (h : RecvWindow l d rs) (hi : rs[i]? = some r) (hr : r.readers = 1) :
    ∀ q ∈ rs.set i .none, q.grants = none := by
  intro q hq
  by_contra hg
  obtain ⟨j, hj⟩ := List.getElem?_of_mem hq
  rcases getElem?_set_cases hj with ⟨-, rfl⟩ | ⟨hij, hj⟩
  · exact hg rfl
  · have heq := h.eq_of_reader hi hr (List.mem_of_getElem? hj) hg
    subst heq
    have hle := add_le_total (f := RecvRole.readers) hi hj hij.symm
    have hone := h.one_reader
    omega

/-- A reader that queues a limit has stored it. -/
theorem stored_of_queueing (h : RecvWindow l d rs) {target : Nat}
    (hi : rs[i]? = some (.queueing target)) : d.cell.maxData = d.cell.reader.granted := by
  rcases h.stored with hs | ⟨t, ht⟩
  · exact hs
  · cases h.eq_of_reader hi rfl ht nofun

/-- The reader no longer has a limit to queue. -/
theorem queued (h : RecvWindow l d rs) {target : Nat} (hi : rs[i]? = some (.queueing target))
    (hone : total RecvRole.readers (rs.set i .none) ≤ 1) : RecvWindow l d (rs.set i .none) := by
  have hno := h.no_grants hi rfl
  have hstored := h.stored_of_queueing hi
  refine ⟨hone, h.initial, h.granted, h.granted_le, .inl hstored, ?_, ?_, h.pending, h.credits,
    h.log⟩
  · intro t ht
    exact absurd (hno _ ht) nofun
  · intro t ht
    exact absurd (hno _ ht) nofun

/-- **One function acts.** -/
theorem act (hw : l.initialStreamWindow ≤ VarInt.max) (hown : RecvOwner d rs)
    (h : RecvWindow l d rs) (hi : rs[i]? = some r) (hs : d.Step l dead blocked r e r') :
    RecvWindow l (d.after e dead blocked) (rs.set i r') := by
  have hone := h.one_reader_set hi hs
  have hreg := hown.uses_registered r (List.mem_of_getElem? hi)
  have hlight : ∀ {q : RecvRole}, q.light = true → q.grants = none := by
    intro q hq
    rcases RecvRole.light_cases hq with rfl | rfl <;> rfl
  have hafter : ∀ ev, (RecvRole.afterEvent ev).grants = none := by
    intro ev
    rcases RecvRole.afterEvent_cases ev with ⟨-, h⟩ | ⟨-, h⟩ <;> rw [h] <;> rfl
  cases hs with
  | stay r => exact h.quiet rfl id (fun _ hc => hc) hone (by rw [set_same hi]; exact fun _ _ => .rfl)
  | advance r below =>
      exact h.quiet rfl id (fun _ hc => hc) hone (by rw [set_same hi]; exact fun _ _ => .rfl)
  | closeReceiver r =>
      exact h.quiet rfl id (fun _ hc => hc) hone (by rw [set_same hi]; exact fun _ _ => .rfl)
  | dropTx r =>
      exact h.quiet rfl id (fun _ hc => hc) hone (by rw [set_same hi]; exact fun _ _ => .rfl)
  | clear r hd =>
      exact h.quiet rfl id (fun _ hc => hc) hone (by rw [set_same hi]; exact fun _ _ => .rfl)
  | clearCredit r hd =>
      exact h.quiet rfl nofun (fun _ hc => hc) hone (by rw [set_same hi]; exact fun _ _ => .rfl)
  | prune r full =>
      exact h.quiet rfl (fun hp => (Bool.and_eq_true_iff.1 hp).1) (fun _ hc => hc) hone
        (by rw [set_same hi]; exact fun _ _ => .rfl)
  | register ho => exact register hw hown hi rfl hone
  | registerPeer => exact register hw hown hi rfl hone
  | lower hr' => exact h.quiet rfl id (fun _ hc => hc) hone (mem_set_iff hi rfl (hlight hr'))
  | dropFinished hf hr' =>
      exact h.quiet rfl nofun (fun _ hc => hc) hone (mem_set_iff hi rfl (hlight hr'))
  | dropSkip hs hr' =>
      exact h.quiet rfl id (fun _ hc => hc) hone (mem_set_iff hi rfl (hlight hr'))
  | stopFail hd hr' =>
      exact h.quiet rfl id (fun _ hc => hc) hone (mem_set_iff hi rfl (hlight hr'))
  | publishStop hr' =>
      refine h.quiet rfl id (fun c hc => ?_) hone (mem_set_iff hi rfl (hlight hr'))
      rcases List.mem_append.1 hc with hc | hc
      · exact hc
      · cases List.mem_singleton.1 hc
  | publishOpen =>
      refine h.quiet rfl id (fun c hc => ?_) hone (mem_set_iff hi rfl rfl)
      rcases List.mem_append.1 hc with hc | hc
      · exact hc
      · cases List.mem_singleton.1 hc
  | publishCredit =>
      -- the initial window is announced
      have hk : RecvWindow l d (rs.set i .ref) :=
        h.quiet rfl id (fun _ hc => hc) hone (mem_set_iff hi rfl rfl)
      refine { hk with log := fun c hc => ?_ }
      rcases List.mem_append.1 hc with hc | hc
      · exact h.log c hc
      · cases List.mem_singleton.1 hc
        exact h.initial (hreg rfl)
  | read hread hr' =>
      have hg : r'.grants = none := by rcases hr' with rfl | rfl <;> rfl
      refine h.quiet ?_ id (fun _ hc => hc) hone (mem_set_iff hi rfl hg)
      simp only [RecvDirection.window, RecvDirection.after, RecvDirection.apply,
        RecvDirection.modify]
      rw [hread.granted]
      rfl
  | readGrant hread => exact h.readGrant hi hread hone
  | storeMax => exact h.storeMax hi hone
  | @queue target full ht hst =>
      have hk := h.queued hi hone
      refine { hk with pending := fun _ => ?_ }
      have htm := h.queueing target (List.mem_of_getElem? hi)
      show (if d.kept full then max d.cell.credit target else target) ≤ d.cell.maxData
      split_ifs with hkept
      · have hp := h.pending (Bool.and_eq_true_iff.1 hkept).1
        omega
      · omega
  | queueSkip ht => exact { h.queued hi hone with }
  | @queueFull target full hd =>
      exact { h.queued hi hone with
        pending := fun hp => h.pending (Bool.and_eq_true_iff.1 hp).1 }
  | receiveStopped _ _ _ =>
      exact h.quiet rfl id (fun _ hc => hc) hone (mem_set_iff hi rfl (hafter _))
  | deliver _ => exact h.quiet rfl id (fun _ hc => hc) hone (mem_set_iff hi rfl (hafter _))
  | deliverClosed _ => exact h.quiet rfl id (fun _ hc => hc) hone (mem_set_iff hi rfl (hafter _))
  | mark ht => exact h.quiet rfl nofun (fun _ hc => hc) hone (mem_set_iff hi rfl rfl)
  | dropMark => exact h.quiet rfl nofun (fun _ hc => hc) hone (mem_set_iff hi rfl rfl)
  | _ => exact h.quiet rfl id (fun _ hc => hc) hone (mem_set_iff hi rfl rfl)

/-- **A step of the pool keeps the window.** -/
theorem poolStep (hw : l.initialStreamWindow ≤ VarInt.max) (hown : RecvOwner d rs)
    (h : RecvWindow l d rs) (hs : d.PoolStep l rs dead blocked d' rs') : RecvWindow l d' rs' := by
  cases hs with
  | act hi hs => exact h.act hw hown hi hs
  | @arrive x r' hi hnb hx =>
      have hr' : r'.grants = none ∧ r'.readers = 0 := by cases hx <;> exact ⟨rfl, rfl⟩
      refine h.quiet rfl id (fun _ hc => hc) ?_ (mem_set_iff hi rfl hr'.1)
      rw [total_set_of_eq hi (hr'.2.trans rfl)]
      exact h.one_reader
  | spawn =>
      refine h.quiet rfl id (fun _ hc => hc) ?_ ?_
      · rw [total_append]
        exact h.one_reader
      · intro q hq
        have hne : q ≠ .none := fun he => hq (by rw [he]; rfl)
        simp [hne]
  | @borrow r e hr he hh hone =>
      refine h.quiet ?_ ?_ ?_ hone ?_
      · rcases he with rfl | rfl <;> rfl
      · rcases he with rfl | rfl <;> exact id
      · rcases he with rfl | rfl <;> exact fun _ hc => hc
      · intro q hq
        have hne : q ≠ r := by
          rintro rfl
          rcases hr with rfl | rfl <;> exact hq rfl
        simp [hne]
  | takeCredit hp =>
      refine { h with pending := nofun, credits := fun c hc => ?_ }
      rcases List.mem_append.1 hc with hc | hc
      · exact h.credits c hc
      · cases List.mem_singleton.1 hc
        exact h.pending hp
  | idle => exact h.quiet rfl id (fun _ hc => hc) h.one_reader fun _ _ => .rfl

end RecvWindow

/-- **The window in every run.** -/
theorem recvWindow_of_reachable {cfg : Config} (hw : cfg.limits.initialStreamWindow ≤ VarInt.max)
    {ok : Session → Label → Prop} {s : Session} (hr : Reachable (Session.step cfg) ok {} s)
    (id : StreamId) :
    RecvWindow cfg.limits (s.view.recvDirection cfg id) (recvRoles id s.tasks) :=
  recv_invariant (RecvWindow.initial_state cfg.limits)
    (fun hown _ _ h hs => h.poolStep hw hown hs) hr id

/-! ## What is announced -/

/-- The role will announce the limit `max` to the peer. -/
def RecvRole.Announces (l : Limits) (max : Nat) : RecvRole → Prop
  | opening => max = l.initialStreamWindow
  | crediting => max = l.initialStreamWindow
  | queueing target => max = target
  | _ => False

/-- The limit in force is announced, or it will be. -/
def RecvDirection.Announced (l : Limits) (d : RecvDirection) (rs : List RecvRole) : Prop :=
  .credit d.cell.maxData ∈ d.log ∨ d.cell.maxData ∈ d.cell.credits ∨
    (d.pending = true ∧ d.cell.credit = d.cell.maxData) ∨
    ∃ r ∈ rs, r.Announces l d.cell.maxData

/-- The reader asks for credit when it is due, and while the session lasts and the stream is not
stopped, no limit stays unannounced. -/
structure RecvPublished (l : Limits) (d : RecvDirection) (rs : List RecvRole) : Prop where
  upToDate : 0 < d.registered → d.cell.reader.UpToDate l
  announced : ¬ d.dead → d.inTable = true → d.cell.stopped = false → d.Announced l rs

section Published

variable {l : Limits} {d d' : RecvDirection} {rs rs' : List RecvRole} {i : Nat} {r r' : RecvRole}
  {e : RecvChange} {dead blocked : Prop}

theorem RecvDirection.Announced.keep (h : d.Announced l rs)
    (hmax : d'.cell.maxData = d.cell.maxData) (hlog : ∀ x ∈ d.log, x ∈ d'.log)
    (hcr : ∀ c ∈ d.cell.credits, c ∈ d'.cell.credits)
    (hp : d.pending = true → d'.pending = true ∧ d'.cell.credit = d.cell.credit)
    (hrs : ∀ r ∈ rs, r.Announces l d.cell.maxData → ∃ q ∈ rs', q.Announces l d.cell.maxData) :
    d'.Announced l rs' := by
  unfold RecvDirection.Announced
  rw [hmax]
  rcases h with h | h | ⟨h, hc⟩ | ⟨q, hq, ha⟩
  · exact .inl (hlog _ h)
  · exact .inr (.inl (hcr _ h))
  · exact .inr (.inr (.inl ⟨(hp h).1, (hp h).2.trans hc⟩))
  · exact .inr (.inr (.inr (hrs q hq ha)))

/-- The roles that announce a limit, when one that does not acts. -/
theorem announces_set {max : Nat} (hi : rs[i]? = some r) (hr : ¬ r.Announces l max)
    (r' : RecvRole) :
    ∀ q ∈ rs, q.Announces l max → ∃ q ∈ rs.set i r', q.Announces l max := by
  intro q hq ha
  refine ⟨q, mem_set_of_ne hi hq ?_ r', ha⟩
  rintro rfl
  exact hr ha

theorem announces_same {max : Nat} (hi : rs[i]? = some r) :
    ∀ q ∈ rs, q.Announces l max → ∃ q ∈ rs.set i r, q.Announces l max := by
  intro q hq ha
  rw [set_same hi]
  exact ⟨q, hq, ha⟩

/-- A step keeps what is announced. -/
theorem RecvDirection.Step.announced (hwin : RecvWindow l d rs) (hi : rs[i]? = some r)
    (hs : d.Step l dead blocked r e r') (hnd : ¬ dead)
    (h : d.inTable = true → d.cell.stopped = false → d.Announced l rs)
    (hin : (d.apply e).inTable = true) (hst : (d.apply e).cell.stopped = false) :
    (d.apply e).Announced l (rs.set i r') := by
  have hlt := (List.getElem?_eq_some_iff.1 hi).1
  have hgrow : ∀ y : RecvItem, ∀ x ∈ d.log, x ∈ d.log ++ [y] :=
    fun y x hx => List.mem_append_left _ hx
  cases hs with
  | register ho => exact .inr (.inr (.inr ⟨.opening, List.mem_set hlt _, rfl⟩))
  | registerPeer => exact .inr (.inr (.inr ⟨.crediting, List.mem_set hlt _, rfl⟩))
  | publishOpen =>
      refine (h hin hst).keep rfl (hgrow _) (fun _ hc => hc) (fun hp => ⟨hp, rfl⟩) ?_
      intro q hq ha
      by_cases hqr : q = .opening
      · subst hqr
        exact ⟨.crediting, List.mem_set hlt _, ha⟩
      · exact ⟨q, mem_set_of_ne hi hq hqr _, ha⟩
  | publishCredit =>
      by_cases hmax : d.cell.maxData = l.initialStreamWindow
      · refine .inl ?_
        show .credit d.cell.maxData ∈ d.log ++ [_]
        rw [hmax]
        exact List.mem_append_right _ (List.mem_singleton.2 rfl)
      · exact (h hin hst).keep rfl (hgrow _) (fun _ hc => hc) (fun hp => ⟨hp, rfl⟩)
          (announces_set hi hmax _)
  | publishStop hr' =>
      exact (h hin hst).keep rfl (hgrow _) (fun _ hc => hc) (fun hp => ⟨hp, rfl⟩)
        (announces_set hi id _)
  | storeMax => exact .inr (.inr (.inr ⟨_, List.mem_set hlt _, rfl⟩))
  | @queue target full ht hs =>
      refine .inr (.inr (.inl ⟨rfl, ?_⟩))
      have htm := hwin.queueing target (List.mem_of_getElem? hi)
      show (if d.kept full then max d.cell.credit target else target) = d.cell.maxData
      split_ifs with hkept
      · have hp := hwin.pending (Bool.and_eq_true_iff.1 hkept).1
        omega
      · exact htm
  | queueSkip ho =>
      rcases ho with ho | ho
      · exact absurd (ho.symm.trans hin) Bool.false_ne_true
      · exact absurd (hst.symm.trans ho) Bool.false_ne_true
  | prune r full =>
      refine (h hin hst).keep rfl (fun _ hx => hx) (fun _ hc => hc) (fun hp => ⟨?_, rfl⟩)
        (announces_same hi)
      -- the pruning keeps the entries of the streams in the table
      have hin' : d.inTable = true := hin
      simp [RecvDirection.apply, RecvDirection.kept, hp, hin']
  | stay r =>
      exact (h hin hst).keep rfl (fun _ hx => hx) (fun _ hc => hc) (fun hp => ⟨hp, rfl⟩)
        (announces_same hi)
  | advance r below =>
      exact (h hin hst).keep rfl (fun _ hx => hx) (fun _ hc => hc) (fun hp => ⟨hp, rfl⟩)
        (announces_same hi)
  | closeReceiver r =>
      exact (h hin hst).keep rfl (fun _ hx => hx) (fun _ hc => hc) (fun hp => ⟨hp, rfl⟩)
        (announces_same hi)
  | dropTx r =>
      exact (h hin hst).keep rfl (fun _ hx => hx) (fun _ hc => hc) (fun hp => ⟨hp, rfl⟩)
        (announces_same hi)
  | openFail hd => exact absurd hd hnd
  | creditFail hd => exact absurd hd hnd
  | queueFull hd => exact absurd hd hnd
  | stopFail hd => exact absurd hd hnd
  | undoRemove hd => exact absurd hd hnd
  | clear r hd => exact absurd hd hnd
  | clearCredit r hd => exact absurd hd hnd
  | mark ht => cases hst
  | dropMark => cases hst
  | dropFinished hf hr' => cases hst
  | removeFin => cases hin
  | resetRemove => cases hin
  | _ =>
      exact (h hin hst).keep rfl (fun _ hx => hx) (fun _ hc => hc) (fun hp => ⟨hp, rfl⟩)
        (announces_set hi id _)

/-- A step keeps the reader up to date. -/
theorem RecvDirection.Step.upToDate (hpos : 0 < l.streamWindowUpdateThreshold)
    (hown : RecvOwner d rs) (hi : rs[i]? = some r) (hs : d.Step l dead blocked r e r')
    (h : 0 < d.registered → d.cell.reader.UpToDate l) :
    0 < (d.apply e).registered → (d.apply e).cell.reader.UpToDate l := by
  have hreg := hown.uses_registered r (List.mem_of_getElem? hi)
  have hfresh : RecvStream.UpToDate l
      { granted := l.initialStreamWindow, receiverOpen := true } := by
    refine .inr (.inr ?_)
    have hle := Limits.saturatingAdd_le 0 l.initialStreamWindow
    show min (Limits.saturatingAdd 0 l.initialStreamWindow) VarInt.max <
      l.initialStreamWindow + l.streamWindowUpdateThreshold
    omega
  intro hr
  cases hs with
  | register ho => exact hfresh
  | registerPeer => exact hfresh
  | read hread hr' => exact hread.upToDate hpos (h (hreg rfl))
  | readGrant hread => exact hread.upToDate hpos (h (hreg rfl))
  | swapStop => exact .inr (.inl rfl)
  | dropSwap => exact .inr (.inl rfl)
  | _ => exact h hr

/-- **A step of the pool keeps what is announced.** -/
theorem RecvPublished.poolStep (hpos : 0 < l.streamWindowUpdateThreshold) (hown : RecvOwner d rs)
    (hwin : RecvWindow l d rs) (hdead : d.dead → dead) (h : RecvPublished l d rs)
    (hs : d.PoolStep l rs dead blocked d' rs') : RecvPublished l d' rs' := by
  cases hs with
  | act hi hs =>
      refine ⟨hs.upToDate hpos hown hi h.upToDate, fun hnd hin hst => ?_⟩
      have hk := hs.announced hwin hi hnd (h.announced fun hd => hnd (hdead hd)) hin hst
      exact hk.keep rfl (fun _ hx => hx) (fun _ hc => hc) (fun hp => ⟨hp, rfl⟩)
        fun q hq ha => ⟨q, hq, ha⟩
  | arrive hi hnb hx =>
      refine ⟨h.upToDate, fun hnd hin hst => ?_⟩
      exact (h.announced (fun hd => hnd (hdead hd)) hin hst).keep rfl (fun _ hx => hx)
        (fun _ hc => hc) (fun hp => ⟨hp, rfl⟩) (announces_set hi id _)
  | spawn =>
      refine ⟨h.upToDate, fun hnd hin hst => ?_⟩
      exact (h.announced (fun hd => hnd (hdead hd)) hin hst).keep rfl (fun _ hx => hx)
        (fun _ hc => hc) (fun hp => ⟨hp, rfl⟩) fun q hq ha => ⟨q, List.mem_append_left _ hq, ha⟩
  | borrow hr he hh hone =>
      refine ⟨?_, fun hnd hin hst => ?_⟩
      · rcases he with rfl | rfl <;> exact h.upToDate
      · rcases he with rfl | rfl <;>
          exact (h.announced (fun hd => hnd (hdead hd)) hin hst).keep rfl (fun _ hx => hx)
            (fun _ hc => hc) (fun hp => ⟨hp, rfl⟩)
            fun q hq ha => ⟨q, List.mem_append_left _ hq, ha⟩
  | takeCredit hp =>
      refine ⟨h.upToDate, fun hnd hin hst => ?_⟩
      rcases h.announced (fun hd => hnd (hdead hd)) hin hst with hl | hc | ⟨-, hc⟩ | hr
      · exact .inl hl
      · exact .inr (.inl (List.mem_append_left _ hc))
      · refine .inr (.inl (List.mem_append_right _ ?_))
        rw [hc]
        exact List.mem_singleton.2 rfl
      · exact .inr (.inr (.inr hr))
  | idle =>
      refine ⟨h.upToDate, fun hnd hin hst => ?_⟩
      exact (h.announced (fun hd => hnd (hdead hd)) hin hst).keep rfl (fun _ hx => hx)
        (fun _ hc => hc) (fun hp => ⟨hp, rfl⟩) fun q hq ha => ⟨q, hq, ha⟩

end Published

/-- **What is announced in every run.** -/
theorem recvPublished_of_reachable {cfg : Config} (hl : cfg.limits.Valid)
    {ok : Session → Label → Prop} {s : Session} (hr : Reachable (Session.step cfg) ok {} s)
    (id : StreamId) :
    RecvPublished cfg.limits (s.view.recvDirection cfg id) (recvRoles id s.tasks) := by
  refine (recv_invariant
    (P := fun d rs => RecvWindow cfg.limits d rs ∧ RecvPublished cfg.limits d rs) ?_ ?_ hr id).2
  · intro own dead blocked
    exact ⟨RecvWindow.initial_state cfg.limits own dead blocked,
      fun h => absurd h (Nat.lt_irrefl 0), nofun⟩
  · intro d d' rs rs' dead blocked hown hdead _ h hs
    exact ⟨h.1.poolStep hl.window_le hown hs,
      h.2.poolStep hl.threshold_pos hown h.1 hdead hs⟩
end WebsockMux.Native
