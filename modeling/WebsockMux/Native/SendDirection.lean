import WebsockMux.Lib.Pool
import WebsockMux.Native.SendTable

/-!
# One send direction

What the functions of a session do to one send direction, apart from all other streams: an abstract
machine whose state is the direction (`SendDirection`) and a pool of roles (`SendRole`), one for
each function in progress. A role says what the function holds: the right to register the stream,
the guard of a send operation, a reservation of credit, the duty to remove the flow after a FIN.
`SendDirection.Step` lists what a role may do.

The invariant `SendInv` is kept by every step (`SendInv.step`) and by new participants
(`SendInv.spawn`). It contains the accounting of credit: the payload admitted plus the reservations
is at most `sent_data`, which is at most `max_data`, and no `Stream` frame follows a reset.
-/

set_option autoImplicit false

namespace WebsockMux.Native

open WebsockMux.Lib

/-- A frame of a send direction in the outbound queue. -/
inductive SendItem where
  | stream (data : List UInt8) (fin : Bool)
  | reset
  deriving DecidableEq

/-- The payload of an item. -/
def SendItem.bytes : SendItem → List UInt8
  | .stream data _ => data
  | .reset => []

/-- Whether an item is a `Stream` frame, and whether it is a FIN. -/
def SendItem.isStream : SendItem → Bool
  | .stream _ _ => true
  | .reset => false

def SendItem.isFin : SendItem → Bool
  | .stream _ fin => fin
  | .reset => false

/-- A send direction: whether its identifier is below the frontier, how often it was registered,
whether its flow is in the table, its cell, its items in the order of the queue, and whether the
session is shutting down. -/
structure SendDirection where
  allocated : Bool := false
  registered : Nat := 0
  isOpen : Bool := false
  cell : SendCell := {}
  log : List SendItem := []
  dead : Bool := false

/-- The payload of the items of a direction. -/
def SendDirection.payload (d : SendDirection) : List UInt8 := d.log.flatMap SendItem.bytes

/-- What an access means for a send direction. -/
inductive SendEvent where
  | none
  /-- A frontier moves; `below` says that the identifier is now below it. -/
  | advance (below : Bool)
  | register
  | remove
  | clear
  | updateMax (max : Nat)
  | selectApi (mode : Nat)
  | setOperation (on : Bool)
  | reserve (n : Nat)
  | release (n : Nat)
  | finish
  | item (x : SendItem)
  /-- A handle of the stream becomes visible to other functions. -/
  | share
  | shutdown

namespace SendDirection

/-- The flow leaves the table and is closed. -/
def close (d : SendDirection) : SendDirection :=
  { d with isOpen := false, cell := { d.cell with flowClosed := d.cell.flowClosed || d.isOpen } }

/-- `update_max` on a flow of the table. -/
def updateMax (d : SendDirection) (max : Nat) : SendDirection :=
  { d with
    cell := if d.isOpen = true ∧ d.cell.flowClosed = false ∧ d.cell.maxData < max then
      { d.cell with maxData := max } else d.cell }

/-- The direction after an event. -/
def apply (d : SendDirection) : SendEvent → SendDirection
  | .none => d
  | .advance below => { d with allocated := d.allocated || below }
  | .register => { d with registered := d.registered + 1, isOpen := true, cell := {} }
  | .remove => d.close
  | .clear => d.close
  | .updateMax max => d.updateMax max
  | .selectApi mode => { d with cell := { d.cell with apiMode := mode } }
  | .setOperation on => { d with cell := { d.cell with operation := on } }
  | .reserve n => { d with cell := { d.cell with sentData := d.cell.sentData + n } }
  | .release n => { d with cell := { d.cell with sentData := fetchSub d.cell.sentData n } }
  | .finish => { d with cell := { d.cell with finished := true } }
  | .item x => { d with log := d.log ++ [x] }
  | .share => d
  | .shutdown => { d with dead := true }

/-- `update_max` changes only the limit, which does not decrease. -/
theorem updateMax_cell (d : SendDirection) (max : Nat) :
    (d.updateMax max).cell = { d.cell with maxData := (d.updateMax max).cell.maxData } ∧
      d.cell.maxData ≤ (d.updateMax max).cell.maxData := by
  unfold updateMax
  split
  · rename_i h
    exact ⟨rfl, h.2.2.le⟩
  · exact ⟨rfl, Nat.le_refl _⟩

end SendDirection

/-- What a function in progress holds of a send direction. -/
inductive SendRole where
  | none
  /-- The right to register the stream. -/
  | token
  /-- A reference to the stream. -/
  | ref
  /-- An API selected, no guard held. -/
  | selected (mode : Nat)
  /-- The guard of a send operation, and a reservation of `n` bytes; `mode` is 0 where the API no
  longer matters. -/
  | op (mode n : Nat)
  /-- The guard, and the limit `max` read for a `compare_exchange`. -/
  | cas (mode max : Nat)
  /-- `finish` has published the FIN and will remove the flow. -/
  | finishing
  /-- `poll_shutdown` has published the FIN and will remove the flow. -/
  | shutting
  /-- The flow is removed and a reset may follow; `guard` says that the guard is held. -/
  | resetting (guard : Bool)
  deriving DecidableEq

namespace SendRole

/-- The right to register. -/
def tokens : SendRole → Nat
  | token => 1
  | _ => 0

/-- The guard of a send operation. -/
def guards : SendRole → Nat
  | op _ _ => 1
  | cas _ _ => 1
  | finishing => 1
  | resetting guard => guard.toNat
  | _ => 0

/-- The reserved credit. -/
def reserved : SendRole → Nat
  | op _ n => n
  | _ => 0

/-- The API that was selected, 0 for no claim. -/
def mode : SendRole → Nat
  | selected mode => mode
  | op mode _ => mode
  | cas mode _ => mode
  | finishing => 1
  | shutting => 2
  | _ => 0

/-- The limit read for a `compare_exchange`. -/
def limit : SendRole → Nat
  | cas _ max => max
  | _ => 0

/-- The role refers to a registered stream. -/
def uses : SendRole → Bool
  | none => false
  | token => false
  | _ => true

/-- The role may publish a reset. -/
def resets : SendRole → Bool
  | resetting _ => true
  | _ => false

/-- The role has published a FIN and will remove the flow. -/
def removing : SendRole → Bool
  | finishing => true
  | shutting => true
  | _ => false

/-- A role that holds nothing: it may end, or only keep a reference. -/
def bare : SendRole → Bool
  | ref => true
  | selected _ => true
  | resetting guard => !guard
  | _ => false

/-- A role that ended, or that only keeps a reference. -/
def light : SendRole → Bool
  | none => true
  | ref => true
  | _ => false

theorem light_cases {r : SendRole} (h : r.light = true) : r = none ∨ r = ref := by
  cases r with
  | none => exact .inl rfl
  | ref => exact .inr rfl
  | _ => cases h

/-- The weights of a role that holds nothing. -/
theorem bare_weights {r : SendRole} (h : r.bare = true) :
    r.tokens = 0 ∧ r.guards = 0 ∧ r.reserved = 0 ∧ r.removing = false ∧ r.uses = true := by
  cases r with
  | ref => exact ⟨rfl, rfl, rfl, rfl, rfl⟩
  | selected mode => exact ⟨rfl, rfl, rfl, rfl, rfl⟩
  | resetting guard =>
      cases guard with
      | false => exact ⟨rfl, rfl, rfl, rfl, rfl⟩
      | true => cases h
  | _ => cases h

theorem light_weights {r : SendRole} (h : r.light = true) :
    r.tokens = 0 ∧ r.guards = 0 ∧ r.reserved = 0 ∧ r.mode = 0 ∧ r.limit = 0 ∧
      r.resets = false := by
  rcases light_cases h with rfl | rfl
  · exact ⟨rfl, rfl, rfl, rfl, rfl, rfl⟩
  · exact ⟨rfl, rfl, rfl, rfl, rfl, rfl⟩

end SendRole

/-- **What a role may do to a direction**: the event and the role after it. -/
inductive SendDirection.Step (d : SendDirection) : SendRole → SendEvent → SendRole → Prop where
  | stay (r) : Step d r .none r
  | lower {r r'} (hr : r.bare) (hr' : r'.light) : Step d r .none r'
  | refuse : Step d .token .none .none
  | weaken {mode n} : Step d (.op mode n) .none (.op 0 n)
  | advance (r below) : Step d r (.advance below) r
  | allocate (h : d.allocated = false) : Step d .none (.advance true) .token
  | register (h : d.isOpen = false) : Step d .token .register .ref
  | acquire (h : 0 < d.registered) : Step d .none .none .ref
  | share {r'} (hr' : r'.light) : Step d .ref .share r'
  | select {mode} (h : d.cell.apiMode = 0) (hm : mode ≠ 0) :
      Step d .ref (.selectApi mode) (.selected mode)
  | selectOnly {mode} (h : d.cell.apiMode = 0) : Step d .ref (.selectApi mode) .none
  | selectSame {mode} (h : d.cell.apiMode = mode) (hm : mode ≠ 0) :
      Step d .ref .none (.selected mode)
  | begin {mode mode'} (h : d.cell.operation = false) (hm' : mode' = mode ∨ mode' = 0) :
      Step d (.selected mode) (.setOperation true) (.op mode' 0)
  | beginReset (h : d.cell.operation = false) : Step d .ref (.setOperation true) (.op 0 0)
  | loadMax {mode} : Step d (.op mode 0) .none (.cas mode d.cell.maxData)
  | casFail {mode max} : Step d (.cas mode max) .none (.op mode 0)
  | reserve {mode max n} (h : d.cell.sentData + n ≤ max) :
      Step d (.cas mode max) (.reserve n) (.op mode n)
  | release {mode n} : Step d (.op mode n) (.release n) (.op 0 0)
  | finish {mode n} : Step d (.op mode n) .finish (.op mode n)
  | data {mode mode' : Nat} {bytes : List UInt8} (h : d.isOpen = true) (hm : mode ≠ 0)
      (hm' : mode' = mode ∨ mode' = 0) :
      Step d (.op mode bytes.length) (.item (.stream bytes false)) (.op mode' 0)
  | fin (h : d.isOpen = true) : Step d (.op 1 0) (.item (.stream [] true)) .finishing
  | finRemove : Step d .finishing .remove (.op 0 0)
  | shutFin (h : d.isOpen = true) : Step d (.selected 2) (.item (.stream [] true)) .shutting
  | shutFinish : Step d .shutting .finish .shutting
  | shutRemove : Step d .shutting .remove .none
  | resetRemove : Step d (.op 0 0) .remove (.resetting true)
  | dropRemove : Step d .ref .remove (.resetting false)
  | undoRemove : Step d .ref .remove .none
  | stopRemove (h : d.isOpen = true) : Step d .none .remove (.resetting false)
  | reset : Step d (.resetting true) (.item .reset) (.op 0 0)
  | resetBare {r'} (hr' : r'.light) : Step d (.resetting false) (.item .reset) r'
  | resetFail : Step d (.resetting true) .none (.op 0 0)
  | leak {mode n} : Step d (.op mode n) .shutdown (.op 0 0)
  | shutdown (r) : Step d r .shutdown r
  | clear (r) : Step d r .clear r
  | updateMax (r max) : Step d r (.updateMax max) r
  | endOperation {mode} : Step d (.op mode 0) (.setOperation false) .none

/-- Only a function with a reference shares the stream. -/
theorem SendDirection.Step.uses_of_share {d : SendDirection} {r r' : SendRole}
    (h : d.Step r .share r') : r.uses = true := by
  cases h with
  | share => rfl

/-- **The direction with its pool of roles**: nothing happens to it, a role acts, a participant
arrives that holds at most a reference, or the session starts to shut down. -/
inductive SendDirection.PoolStep (d : SendDirection) (rs : List SendRole) :
    SendDirection → List SendRole → Prop where
  | idle : PoolStep d rs d rs
  | act {i : Nat} {r r' : SendRole} {e : SendEvent} (hi : rs[i]? = some r) (hs : d.Step r e r') :
      PoolStep d rs (d.apply e) (rs.set i r')
  | spawn {r : SendRole} (hr : r.light = true) (hu : r.uses = true → 0 < d.registered) :
      PoolStep d rs d (rs ++ [r])
  | shutdown : PoolStep d rs (d.apply .shutdown) rs

/-! ## The invariant -/

/-- The invariant of a send direction and the roles of the functions in progress. -/
structure SendInv (d : SendDirection) (rs : List SendRole) : Prop where
  /-- Only one function may ever register the stream. -/
  fresh : d.registered + total SendRole.tokens rs ≤ d.allocated.toNat
  open_registered : d.isOpen = true → 0 < d.registered
  uses_registered : ∀ r ∈ rs, r.uses = true → 0 < d.registered
  log_registered : d.log ≠ [] → 0 < d.registered
  /-- The guard has one holder. -/
  guard : total SendRole.guards rs = d.cell.operation.toNat
  mode : ∀ r ∈ rs, r.mode ≠ 0 → d.cell.apiMode = r.mode
  /-- A limit that was read stays valid. -/
  limit : ∀ r ∈ rs, r.limit ≤ d.cell.maxData
  sent : d.payload.length + total SendRole.reserved rs ≤ d.cell.sentData
  sent_eq : d.dead = true ∨ d.cell.sentData = d.payload.length + total SendRole.reserved rs
  sent_le : d.cell.sentData ≤ d.cell.maxData
  resetting : ∀ r ∈ rs, r.resets = true → d.isOpen = false
  reset_closed : .reset ∈ d.log → d.isOpen = false
  /-- No `Stream` frame follows a reset. -/
  reset_last : d.log.Pairwise fun x y => x = .reset → y.isStream = false
  /-- While the flow is open, a FIN in the queue has a function that will remove the flow. -/
  fin_removing : d.isOpen = true → (∃ x ∈ d.log, x.isFin = true) → ∃ r ∈ rs, r.removing = true

namespace SendInv

variable {d : SendDirection} {rs : List SendRole} {i : Nat} {r r' : SendRole} {e : SendEvent}

/-- Before the stream is registered, no function holds anything of it. -/
theorem total_eq_zero_of_unregistered (hinv : SendInv d rs) (h : d.registered = 0)
    {f : SendRole → Nat} (hf : ∀ r : SendRole, r.uses = false → f r = 0) : total f rs = 0 := by
  refine total_eq_zero fun r hr => hf r ?_
  by_contra hu
  have := hinv.uses_registered r hr (by simpa using hu)
  omega

/-- A function that may register the stream is the first to do so. -/
theorem unregistered_of_token (hinv : SendInv d rs) (hi : rs[i]? = some .token) :
    d.registered = 0 := by
  have hf := hinv.fresh
  have hp := le_total (f := SendRole.tokens) (List.mem_of_getElem? hi)
  have ha : d.allocated.toNat ≤ 1 := Bool.toNat_le _
  simp only [SendRole.tokens] at hp
  omega

theorem fresh_step (hinv : SendInv d rs) (hi : rs[i]? = some r) (hs : d.Step r e r') :
    (d.apply e).registered + total SendRole.tokens (rs.set i r') ≤ (d.apply e).allocated.toNat := by
  have h := hinv.fresh
  have ht := total_set (f := SendRole.tokens) (y := r') hi
  cases hs with
  | allocate ha =>
      simp only [SendRole.tokens, ha, Bool.toNat_false] at ht h
      simp only [SendDirection.apply, Bool.or_true, Bool.toNat_true]
      omega
  | advance r below =>
      have hle : d.allocated.toNat ≤ (d.allocated || below).toNat := by cases d.allocated <;> simp
      show d.registered + _ ≤ (d.allocated || below).toNat
      omega
  | register =>
      simp only [SendRole.tokens] at ht
      show d.registered + 1 + _ ≤ d.allocated.toNat
      omega
  | lower hr hr' =>
      rw [(SendRole.bare_weights hr).1, (SendRole.light_weights hr').1] at ht
      show d.registered + _ ≤ d.allocated.toNat
      omega
  | share hr' =>
      rw [(SendRole.light_weights hr').1] at ht
      show d.registered + _ ≤ d.allocated.toNat
      omega
  | resetBare hr' =>
      rw [(SendRole.light_weights hr').1] at ht
      show d.registered + _ ≤ d.allocated.toNat
      omega
  | _ =>
      simp only [SendRole.tokens] at ht
      show d.registered + _ ≤ d.allocated.toNat
      omega

theorem registered_le (d : SendDirection) (e : SendEvent) :
    d.registered ≤ (d.apply e).registered := by
  cases e with
  | register => exact Nat.le_succ _
  | _ => exact Nat.le_refl _

/-- Who refers to the stream after a step. -/
theorem uses_step (hinv : SendInv d rs) (hi : rs[i]? = some r) (hs : d.Step r e r') :
    ∀ x ∈ rs.set i r', x.uses = true → 0 < (d.apply e).registered := by
  have hold : ∀ x ∈ rs, x.uses = true → 0 < (d.apply e).registered := fun x hx hu =>
    (hinv.uses_registered x hx hu).trans_le (registered_le d e)
  refine forall_mem_set hold fun hu => ?_
  have hr := List.mem_of_getElem? hi
  cases hs with
  | register => exact Nat.succ_pos _
  | acquire h => exact h
  | stopRemove h => exact hinv.open_registered h
  | lower hb => exact hold _ hr (SendRole.bare_weights hb).2.2.2.2
  | stay => exact hold _ hr hu
  | advance => exact hold _ hr hu
  | shutdown => exact hold _ hr hu
  | clear => exact hold _ hr hu
  | updateMax => exact hold _ hr hu
  | refuse => cases hu
  | allocate => cases hu
  | _ => exact hold _ hr rfl

theorem open_step (hinv : SendInv d rs) (hs : d.Step r e r') :
    (d.apply e).isOpen = true → 0 < (d.apply e).registered := by
  intro h
  cases hs with
  | register => exact Nat.succ_pos _
  | finRemove => cases h
  | shutRemove => cases h
  | resetRemove => cases h
  | dropRemove => cases h
  | undoRemove => cases h
  | stopRemove => cases h
  | clear => cases h
  | _ => exact hinv.open_registered h

theorem log_step (hinv : SendInv d rs) (hi : rs[i]? = some r) (hs : d.Step r e r') :
    (d.apply e).log ≠ [] → 0 < (d.apply e).registered := by
  intro h
  have hr := hinv.uses_registered r (List.mem_of_getElem? hi)
  cases hs with
  | register => exact Nat.succ_pos _
  | data ho => exact hinv.open_registered ho
  | fin ho => exact hinv.open_registered ho
  | shutFin ho => exact hinv.open_registered ho
  | reset => exact hr rfl
  | resetBare => exact hr rfl
  | _ => exact hinv.log_registered h

/-- The guard goes from hand to hand. -/
theorem guard_step (hinv : SendInv d rs) (hi : rs[i]? = some r) (hs : d.Step r e r') :
    total SendRole.guards (rs.set i r') = (d.apply e).cell.operation.toNat := by
  have h := hinv.guard
  have ht := total_set (f := SendRole.guards) (y := r') hi
  have hle : d.cell.operation.toNat ≤ 1 := Bool.toNat_le _
  cases hs with
  | begin ho =>
      simp only [SendRole.guards, ho, Bool.toNat_false] at ht h
      show _ = 1
      omega
  | beginReset ho =>
      simp only [SendRole.guards, ho, Bool.toNat_false] at ht h
      show _ = 1
      omega
  | endOperation =>
      simp only [SendRole.guards] at ht
      show _ = 0
      omega
  | register =>
      -- a fresh cell: nobody refers to the stream yet
      have hz := hinv.unregistered_of_token hi
      have := hinv.total_eq_zero_of_unregistered hz (f := SendRole.guards) fun r hr => by
        cases r <;> first | rfl | cases hr
      simp only [SendRole.guards] at ht
      show _ = 0
      omega
  | lower hr hr' =>
      rw [(SendRole.bare_weights hr).2.1, (SendRole.light_weights hr').2.1] at ht
      show _ = d.cell.operation.toNat
      omega
  | share hr' =>
      rw [(SendRole.light_weights hr').2.1] at ht
      simp only [SendRole.guards] at ht
      show _ = d.cell.operation.toNat
      omega
  | resetBare hr' =>
      rw [(SendRole.light_weights hr').2.1] at ht
      simp only [SendRole.guards, Bool.toNat_false] at ht
      show _ = d.cell.operation.toNat
      omega
  | updateMax r max =>
      show _ = (d.updateMax max).cell.operation.toNat
      rw [(d.updateMax_cell max).1]
      show _ = d.cell.operation.toNat
      omega
  | _ =>
      simp only [SendRole.guards, Bool.toNat_false, Bool.toNat_true] at ht
      show _ = d.cell.operation.toNat
      omega

theorem mode_step (hinv : SendInv d rs) (hi : rs[i]? = some r) (hs : d.Step r e r') :
    ∀ x ∈ rs.set i r', x.mode ≠ 0 → (d.apply e).cell.apiMode = x.mode := by
  have hold := hinv.mode
  have hr := hold r (List.mem_of_getElem? hi)
  cases hs with
  | select h0 hm =>
      -- no other role has selected an API yet
      refine forall_mem_set (fun x hx hx0 => ?_) fun _ => rfl
      exact absurd ((hold x hx hx0).symm.trans h0) hx0
  | selectOnly h0 =>
      refine forall_mem_set (fun x hx hx0 => ?_) fun h => absurd rfl h
      exact absurd ((hold x hx hx0).symm.trans h0) hx0
  | selectSame h hm => exact forall_mem_set hold fun _ => h
  | register =>
      have hz := hinv.unregistered_of_token hi
      refine forall_mem_set (fun x hx hx0 => ?_) fun h => absurd rfl h
      have hu : x.uses = true := by
        cases x <;> first | rfl | exact absurd rfl hx0
      have := hinv.uses_registered x hx hu
      omega
  | lower _ hr' => exact forall_mem_set hold fun h => absurd (SendRole.light_weights hr').2.2.2.1 h
  | share hr' => exact forall_mem_set hold fun h => absurd (SendRole.light_weights hr').2.2.2.1 h
  | resetBare hr' =>
      exact forall_mem_set hold fun h => absurd (SendRole.light_weights hr').2.2.2.1 h
  | data _ hm hm' =>
      refine forall_mem_set hold fun h => ?_
      rcases hm' with rfl | rfl
      · exact hr hm
      · exact absurd rfl h
  | begin _ hm' =>
      refine forall_mem_set hold fun h => ?_
      rcases hm' with rfl | rfl
      · exact hr h
      · exact absurd rfl h
  | updateMax r max =>
      show ∀ x ∈ rs.set i r, x.mode ≠ 0 → (d.updateMax max).cell.apiMode = x.mode
      rw [(d.updateMax_cell max).1]
      exact forall_mem_set hold hr
  | fin => exact forall_mem_set hold fun _ => hr (by decide)
  | shutFin => exact forall_mem_set hold fun _ => hr (by decide)
  | shutFinish => exact forall_mem_set hold fun _ => hr (by decide)
  | stay => exact forall_mem_set hold hr
  | advance => exact forall_mem_set hold hr
  | loadMax => exact forall_mem_set hold hr
  | casFail => exact forall_mem_set hold hr
  | reserve => exact forall_mem_set hold hr
  | finish => exact forall_mem_set hold hr
  | shutdown => exact forall_mem_set hold hr
  | clear => exact forall_mem_set hold hr
  | _ => exact forall_mem_set hold fun h => absurd rfl h

theorem limit_step (hinv : SendInv d rs) (hi : rs[i]? = some r) (hs : d.Step r e r') :
    ∀ x ∈ rs.set i r', x.limit ≤ (d.apply e).cell.maxData := by
  have hold := hinv.limit
  have hr := hold r (List.mem_of_getElem? hi)
  cases hs with
  | loadMax => exact forall_mem_set hold (Nat.le_refl _)
  | register =>
      have hz := hinv.unregistered_of_token hi
      refine forall_mem_set (fun x hx => ?_) (Nat.zero_le _)
      cases x with
      | cas mode max =>
          have := hinv.uses_registered _ hx rfl
          omega
      | _ => exact Nat.zero_le _
  | updateMax r max =>
      have hle := (d.updateMax_cell max).2
      exact forall_mem_set (fun x hx => (hold x hx).trans hle) (hr.trans hle)
  | lower _ hr' =>
      exact forall_mem_set hold ((SendRole.light_weights hr').2.2.2.2.1.le.trans (Nat.zero_le _))
  | share hr' =>
      exact forall_mem_set hold ((SendRole.light_weights hr').2.2.2.2.1.le.trans (Nat.zero_le _))
  | resetBare hr' =>
      exact forall_mem_set hold ((SendRole.light_weights hr').2.2.2.2.1.le.trans (Nat.zero_le _))
  | stay => exact forall_mem_set hold hr
  | advance => exact forall_mem_set hold hr
  | shutdown => exact forall_mem_set hold hr
  | clear => exact forall_mem_set hold hr
  | _ => exact forall_mem_set hold (Nat.zero_le _)

/-- What a role has reserved is part of `sent_data`. -/
theorem reserved_le (hinv : SendInv d rs) {r : SendRole} (hr : r ∈ rs) :
    r.reserved ≤ d.cell.sentData :=
  (le_total hr).trans ((Nat.le_add_left _ _).trans hinv.sent)

/-- The accounting of credit: the payload in the queue, the reservations, `sent_data` and
`max_data`. -/
def Credit (d : SendDirection) (rs : List SendRole) : Prop :=
  d.payload.length + total SendRole.reserved rs ≤ d.cell.sentData ∧
    (d.dead = true ∨ d.cell.sentData = d.payload.length + total SendRole.reserved rs) ∧
    d.cell.sentData ≤ d.cell.maxData

theorem credit (hinv : SendInv d rs) : Credit d rs := ⟨hinv.sent, hinv.sent_eq, hinv.sent_le⟩

/-- The accounting does not change when neither the payload nor the reservations do. -/
theorem Credit.congr {d' : SendDirection} {rs' : List SendRole} (h : Credit d rs)
    (hl : d'.payload = d.payload) (hd : d'.dead = d.dead)
    (hs : d'.cell.sentData = d.cell.sentData) (hm : d.cell.maxData ≤ d'.cell.maxData)
    (ht : total SendRole.reserved rs' = total SendRole.reserved rs) : Credit d' rs' := by
  obtain ⟨h1, h2, h3⟩ := h
  unfold Credit
  rw [hl, hd, hs, ht]
  exact ⟨h1, h2, h3.trans hm⟩

theorem payload_concat (d : SendDirection) (x : SendItem) :
    (d.apply (.item x)).payload = d.payload ++ x.bytes := by
  simp [SendDirection.apply, SendDirection.payload]

/-- **The accounting is kept by every step.** -/
theorem credit_step (hinv : SendInv d rs) (hi : rs[i]? = some r) (hs : d.Step r e r') :
    Credit (d.apply e) (rs.set i r') := by
  have h := hinv.credit
  have ht := total_set (f := SendRole.reserved) (y := r') hi
  have hr := hinv.reserved_le (List.mem_of_getElem? hi)
  cases hs with
  | reserve hn =>
      have hl := hinv.limit _ (List.mem_of_getElem? hi)
      obtain ⟨h1, h2, -⟩ := h
      simp only [SendRole.reserved, SendRole.limit] at ht hl
      refine ⟨?_, h2.imp_right fun h2 => ?_, hn.trans hl⟩
      · show d.payload.length + _ ≤ d.cell.sentData + _
        omega
      · show d.cell.sentData + _ = d.payload.length + _
        omega
  | release =>
      obtain ⟨h1, h2, h3⟩ := h
      simp only [SendRole.reserved] at ht hr
      have hf := fetchSub_of_le hr
      refine ⟨?_, h2.imp_right fun h2 => ?_, ?_⟩
      · show d.payload.length + _ ≤ fetchSub d.cell.sentData _
        omega
      · show fetchSub d.cell.sentData _ = d.payload.length + _
        omega
      · show fetchSub d.cell.sentData _ ≤ d.cell.maxData
        omega
  | data =>
      obtain ⟨h1, h2, h3⟩ := h
      simp only [SendRole.reserved] at ht
      refine ⟨?_, h2.imp_right fun h2 => ?_, h3⟩
      · rw [payload_concat, List.length_append]
        show _ ≤ d.cell.sentData
        simp only [SendItem.bytes]
        omega
      · rw [payload_concat, List.length_append]
        show d.cell.sentData = _
        simp only [SendItem.bytes]
        omega
  | leak =>
      -- a reservation is given up only together with the session
      obtain ⟨h1, -, h3⟩ := h
      simp only [SendRole.reserved] at ht
      refine ⟨?_, .inl rfl, h3⟩
      show d.payload.length + _ ≤ d.cell.sentData
      omega
  | register =>
      have hz := hinv.unregistered_of_token hi
      have hlog : d.log = [] := by
        by_contra hne
        have := hinv.log_registered hne
        omega
      have h0 := hinv.total_eq_zero_of_unregistered hz (f := SendRole.reserved) fun r hr => by
        cases r <;> first | rfl | cases hr
      simp only [SendRole.reserved] at ht
      have hp : d.payload = [] := by rw [SendDirection.payload, hlog]; rfl
      refine ⟨?_, .inr ?_, Nat.le_refl _⟩
      · show d.payload.length + _ ≤ 0
        simp only [hp, List.length_nil]
        omega
      · show 0 = d.payload.length + _
        simp only [hp, List.length_nil]
        omega
  | shutdown => exact ⟨by rw [total_set_of_eq hi rfl]; exact h.1, .inl rfl, h.2.2⟩
  | updateMax r max =>
      have hc := d.updateMax_cell max
      refine h.congr rfl rfl ?_ hc.2 (total_set_of_eq hi rfl)
      show (d.updateMax max).cell.sentData = _
      rw [hc.1]
  | fin =>
      refine h.congr ?_ rfl rfl (Nat.le_refl _) (total_set_of_eq hi rfl)
      rw [payload_concat, SendItem.bytes, List.append_nil]
  | shutFin =>
      refine h.congr ?_ rfl rfl (Nat.le_refl _) (total_set_of_eq hi rfl)
      rw [payload_concat, SendItem.bytes, List.append_nil]
  | reset =>
      refine h.congr ?_ rfl rfl (Nat.le_refl _) (total_set_of_eq hi rfl)
      rw [payload_concat, SendItem.bytes, List.append_nil]
  | resetBare hr' =>
      refine h.congr ?_ rfl rfl (Nat.le_refl _)
        (total_set_of_eq hi (SendRole.light_weights hr').2.2.1)
      rw [payload_concat, SendItem.bytes, List.append_nil]
  | lower hb hr' =>
      exact h.congr rfl rfl rfl (Nat.le_refl _) (total_set_of_eq hi
        ((SendRole.light_weights hr').2.2.1.trans (SendRole.bare_weights hb).2.2.1.symm))
  | share hr' =>
      exact h.congr rfl rfl rfl (Nat.le_refl _)
        (total_set_of_eq hi (SendRole.light_weights hr').2.2.1)
  | _ => exact h.congr rfl rfl rfl (Nat.le_refl _) (total_set_of_eq hi rfl)

/-! ## Resets and FINs -/

theorem resetting_step (hinv : SendInv d rs) (hi : rs[i]? = some r) (hs : d.Step r e r') :
    ∀ x ∈ rs.set i r', x.resets = true → (d.apply e).isOpen = false := by
  have hold := hinv.resetting
  have hr := hold r (List.mem_of_getElem? hi)
  cases hs with
  | register =>
      have hz := hinv.unregistered_of_token hi
      refine forall_mem_set (fun x hx hx0 => ?_) fun h => by cases h
      have hu : x.uses = true := by
        cases x <;> first | rfl | cases hx0
      have := hinv.uses_registered x hx hu
      omega
  | finRemove => exact fun _ _ _ => rfl
  | shutRemove => exact fun _ _ _ => rfl
  | resetRemove => exact fun _ _ _ => rfl
  | dropRemove => exact fun _ _ _ => rfl
  | undoRemove => exact fun _ _ _ => rfl
  | stopRemove => exact fun _ _ _ => rfl
  | clear => exact fun _ _ _ => rfl
  | stay => exact forall_mem_set hold hr
  | advance => exact forall_mem_set hold hr
  | shutdown => exact forall_mem_set hold hr
  | updateMax => exact forall_mem_set hold hr
  | lower _ hr' =>
      exact forall_mem_set hold fun h => absurd h (by simp [(SendRole.light_weights hr').2.2.2.2.2])
  | share hr' =>
      exact forall_mem_set hold fun h => absurd h (by simp [(SendRole.light_weights hr').2.2.2.2.2])
  | resetBare hr' =>
      exact forall_mem_set hold fun h => absurd h (by simp [(SendRole.light_weights hr').2.2.2.2.2])
  | _ => exact forall_mem_set hold fun h => by cases h

/-- A `Stream` item needs an open flow. -/
theorem isOpen_of_stream {x : SendItem} (hs : d.Step r (.item x) r') (hx : x.isStream = true) :
    d.isOpen = true := by
  cases hs with
  | data h => exact h
  | fin h => exact h
  | shutFin h => exact h
  | reset => cases hx
  | resetBare => cases hx

theorem reset_closed_step (hinv : SendInv d rs) (hi : rs[i]? = some r) (hs : d.Step r e r') :
    .reset ∈ (d.apply e).log → (d.apply e).isOpen = false := by
  intro hmem
  have hr := hinv.resetting r (List.mem_of_getElem? hi)
  cases hs with
  | register =>
      have hz := hinv.unregistered_of_token hi
      have := hinv.log_registered (List.ne_nil_of_mem hmem)
      omega
  | data => exact hinv.reset_closed (by simpa [SendDirection.apply] using hmem)
  | fin => exact hinv.reset_closed (by simpa [SendDirection.apply] using hmem)
  | shutFin => exact hinv.reset_closed (by simpa [SendDirection.apply] using hmem)
  | reset => exact hr rfl
  | resetBare => exact hr rfl
  | finRemove => rfl
  | shutRemove => rfl
  | resetRemove => rfl
  | dropRemove => rfl
  | undoRemove => rfl
  | stopRemove => rfl
  | clear => rfl
  | _ => exact hinv.reset_closed hmem

/-- The log grows at the end. -/
theorem log_apply (d : SendDirection) (e : SendEvent) :
    (d.apply e).log = d.log ∨ ∃ x, e = .item x ∧ (d.apply e).log = d.log ++ [x] := by
  cases e with
  | item x => exact .inr ⟨x, rfl, rfl⟩
  | _ => exact .inl rfl

theorem reset_last_step (hinv : SendInv d rs) (hs : d.Step r e r') :
    (d.apply e).log.Pairwise fun x y => x = .reset → y.isStream = false := by
  rcases log_apply d e with hl | ⟨x, rfl, hl⟩
  · rw [hl]
    exact hinv.reset_last
  · rw [hl, List.pairwise_append]
    refine ⟨hinv.reset_last, List.pairwise_singleton _ _, fun a ha b hb => ?_⟩
    rintro rfl
    cases List.mem_singleton.1 hb
    by_contra hx
    have ho := isOpen_of_stream hs (by simpa using hx)
    rw [hinv.reset_closed ha] at ho
    cases ho

/-- A role that will remove the flow does so before anything else. -/
theorem removing_step (hs : d.Step r e r') (hr : r.removing = true) :
    r'.removing = true ∨ (d.apply e).isOpen = false := by
  cases hs with
  | lower hb => rw [(SendRole.bare_weights hb).2.2.2.1] at hr; cases hr
  | stay => exact .inl hr
  | advance => exact .inl hr
  | shutdown => exact .inl hr
  | clear => exact .inr rfl
  | updateMax => exact .inl hr
  | finRemove => exact .inr rfl
  | shutFinish => exact .inl rfl
  | shutRemove => exact .inr rfl
  | _ => cases hr

theorem fin_removing_step (hinv : SendInv d rs) (hi : rs[i]? = some r) (hs : d.Step r e r')
    (ho : (d.apply e).isOpen = true) (hf : ∃ x ∈ (d.apply e).log, x.isFin = true) :
    ∃ x ∈ rs.set i r', x.removing = true := by
  have hlt : i < rs.length := (List.getElem?_eq_some_iff.1 hi).1
  have hmem : r' ∈ rs.set i r' := List.mem_set hlt _
  have hkeep : (∃ x ∈ rs, x.removing = true) → ∃ x ∈ rs.set i r', x.removing = true := by
    rintro ⟨x, hx, hrem⟩
    by_cases hxr : x = r
    · subst hxr
      rcases removing_step hs hrem with h | h
      · exact ⟨r', hmem, h⟩
      · rw [h] at ho
        cases ho
    · exact ⟨x, mem_set_of_ne hi hx hxr r', hrem⟩
  cases hs with
  | fin => exact ⟨_, hmem, rfl⟩
  | shutFin => exact ⟨_, hmem, rfl⟩
  | register =>
      obtain ⟨x, hx, -⟩ := hf
      have hz := hinv.unregistered_of_token hi
      have := hinv.log_registered (List.ne_nil_of_mem hx)
      omega
  | data h =>
      refine hkeep (hinv.fin_removing h ?_)
      simpa [SendDirection.apply, SendItem.isFin] using hf
  | reset => exact hkeep (hinv.fin_removing ho (by simpa [SendDirection.apply, SendItem.isFin] using hf))
  | resetBare =>
      exact hkeep (hinv.fin_removing ho (by simpa [SendDirection.apply, SendItem.isFin] using hf))
  | finRemove => cases ho
  | shutRemove => cases ho
  | resetRemove => cases ho
  | dropRemove => cases ho
  | undoRemove => cases ho
  | stopRemove => cases ho
  | clear => cases ho
  | _ => exact hkeep (hinv.fin_removing ho hf)

/-! ## Runs -/

/-- **Every step of a role keeps the invariant.** -/
theorem step (hinv : SendInv d rs) (hi : rs[i]? = some r) (hs : d.Step r e r') :
    SendInv (d.apply e) (rs.set i r') where
  fresh := hinv.fresh_step hi hs
  open_registered := hinv.open_step hs
  uses_registered := hinv.uses_step hi hs
  log_registered := hinv.log_step hi hs
  guard := hinv.guard_step hi hs
  mode := hinv.mode_step hi hs
  limit := hinv.limit_step hi hs
  sent := (hinv.credit_step hi hs).1
  sent_eq := (hinv.credit_step hi hs).2.1
  sent_le := (hinv.credit_step hi hs).2.2
  resetting := hinv.resetting_step hi hs
  reset_closed := hinv.reset_closed_step hi hs
  reset_last := hinv.reset_last_step hs
  fin_removing := hinv.fin_removing_step hi hs

/-- **A new participant** that holds nothing, or only a reference to a registered stream, keeps the
invariant. -/
theorem spawn (hinv : SendInv d rs) (hr : r.light = true)
    (hu : r.uses = true → 0 < d.registered) : SendInv d (rs ++ [r]) := by
  obtain ⟨ht, hg, hres, hm, hl, hrs⟩ := SendRole.light_weights hr
  refine
    { fresh := by rw [total_append, ht]; exact hinv.fresh
      open_registered := hinv.open_registered
      uses_registered := forall_mem_concat hinv.uses_registered hu
      log_registered := hinv.log_registered
      guard := by rw [total_append, hg]; exact hinv.guard
      mode := forall_mem_concat hinv.mode fun h => absurd hm h
      limit := forall_mem_concat hinv.limit (hl.le.trans (Nat.zero_le _))
      sent := by rw [total_append, hres]; exact hinv.sent
      sent_eq := by rw [total_append, hres]; exact hinv.sent_eq
      sent_le := hinv.sent_le
      resetting := forall_mem_concat hinv.resetting fun h => by rw [hrs] at h; cases h
      reset_closed := hinv.reset_closed
      reset_last := hinv.reset_last
      fin_removing := fun ho hf => ?_ }
  obtain ⟨x, hx, h⟩ := hinv.fin_removing ho hf
  exact ⟨x, List.mem_append_left _ hx, h⟩

/-- The invariant survives the start of a shutdown. -/
theorem shutdown (hinv : SendInv d rs) : SendInv (d.apply .shutdown) rs :=
  { hinv with sent_eq := .inl rfl }

/-- **The pool keeps the invariant.** -/
theorem poolStep {d' : SendDirection} {rs' : List SendRole} (hinv : SendInv d rs)
    (h : SendDirection.PoolStep d rs d' rs') : SendInv d' rs' := by
  cases h with
  | idle => exact hinv
  | act hi hs => exact hinv.step hi hs
  | spawn hr hu => exact hinv.spawn hr hu
  | shutdown => exact hinv.shutdown

/-- The invariant holds at the start. -/
theorem init : SendInv {} [.none, .none] := by
  constructor <;> simp [SendRole.tokens, SendRole.guards, SendRole.reserved, SendRole.uses,
    SendRole.mode, SendRole.limit, SendRole.resets, SendDirection.payload]

/-! ## FIN is final, unless a `poll_shutdown` is between its FIN and the removal -/

/-- No `Stream` item follows a FIN. -/
def FinLast (d : SendDirection) : Prop :=
  d.log.Pairwise fun x y => x.isFin = true → y.isStream = false

/-- The role that publishes a `Stream` item holds the guard or has selected `AsyncWrite`. -/
theorem publisher {x : SendItem} (hs : d.Step r (.item x) r') (hx : x.isStream = true) :
    r.removing = false ∧ r.mode ≠ 0 ∧ (r.guards = 1 ∨ r.mode = 2) := by
  cases hs with
  | data _ hm => exact ⟨rfl, hm, .inl rfl⟩
  | fin => exact ⟨rfl, by decide, .inl rfl⟩
  | shutFin => exact ⟨rfl, by decide, .inr rfl⟩
  | reset => cases hx
  | resetBare => cases hx

/-- **FIN is final.** A step keeps it when no `poll_shutdown` is between its FIN and the removal of
the flow while an `AsyncWrite` call publishes: `finish` holds the guard, and the two APIs exclude
each other. -/
theorem finLast_step (hinv : SendInv d rs) (hfin : FinLast d) (hi : rs[i]? = some r)
    (hs : d.Step r e r')
    (hok : ∀ x, e = .item x → x.isStream = true → r.mode = 2 → .shutting ∉ rs) :
    FinLast (d.apply e) := by
  rcases log_apply d e with hl | ⟨x, rfl, hl⟩
  · unfold FinLast
    rw [hl]
    exact hfin
  · unfold FinLast
    rw [hl, List.pairwise_append]
    refine ⟨hfin, List.pairwise_singleton _ _, fun a ha b hb hafin => ?_⟩
    cases List.mem_singleton.1 hb
    by_contra hx
    have hx : x.isStream = true := by simpa using hx
    obtain ⟨hrem, hmode, hguard⟩ := publisher hs hx
    obtain ⟨q, hq, hqrem⟩ := hinv.fin_removing (isOpen_of_stream hs hx) ⟨a, ha, hafin⟩
    have hrmode := hinv.mode r (List.mem_of_getElem? hi) hmode
    cases q with
    | finishing =>
        have hqmode := hinv.mode _ hq (by decide)
        have hmode1 : r.mode = 1 := hrmode.symm.trans hqmode
        -- both roles are direct operations, so both hold the guard
        have hg : r.guards = 1 := hguard.resolve_right (by omega)
        obtain ⟨j, hj, hje⟩ := List.getElem_of_mem hq
        have hj' : rs[j]? = some .finishing := by rw [List.getElem?_eq_getElem hj, hje]
        have hij : i ≠ j := by
          rintro rfl
          rw [hi] at hj'
          cases hj'
          cases hrem
        have h2 := add_le_total (f := SendRole.guards) hi hj' hij
        have hle : d.cell.operation.toNat ≤ 1 := Bool.toNat_le _
        rw [hinv.guard, hg, show SendRole.finishing.guards = 1 from rfl] at h2
        omega
    | shutting =>
        have hqmode := hinv.mode _ hq (by decide)
        exact hok x rfl hx (hrmode.symm.trans hqmode) hq
    | _ => cases hqrem

end SendInv

end WebsockMux.Native
