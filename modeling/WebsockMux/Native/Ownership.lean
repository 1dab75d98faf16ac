import WebsockMux.Lib.Pool
import WebsockMux.Native.Reading
import WebsockMux.Native.RecvInvariant

/-!
# Who has a receive stream

A `RecvStream` is a value with one owner: the function that makes it, an accept queue, the
application, the function that drops it. The places where it can be are counted
(`Memory.lent`, `Task.carries`), and no step but the registration adds to the count, so that a
stream is in at most one of them (`owners_le_one`). A stream whose drop has begun is in none.

The functions that the application calls on a stream borrow it, so the application has it as long as
one of them is in progress (`held_of_borrows`).
-/

set_option autoImplicit false

namespace WebsockMux.Native

open WebsockMux.Lib WebsockMux.Proto

variable {cfg : Config} {m : Memory} {id : StreamId} {t t' : Task} {a : Access}

/-! ## The places of a stream -/

/-- One, if the stream is the one in question. -/
def oneIf (i id : StreamId) : Nat := if i = id then 1 else 0

/-- The streams that a continuation has still to drop. -/
def Ret.carries (id : StreamId) : Ret → Nat
  | .requestShutdown k => k.carries id
  | .protocolError _ _ k => k.carries id
  | .releaseHandle _ k => k.carries id
  | .closeReceiver _ k => k.carries id
  | .dropRecv i k => oneIf i id + k.carries id
  | .dropSend _ _ k => k.carries id
  | .dropTx _ k => k.carries id
  | _ => 0

/-- The stream that is opened or accepted while `send_frame` runs. -/
def SendSite.carries (id : StreamId) : SendSite → Nat
  | .openBi i => oneIf i id
  | .openCredit i => oneIf i id
  | .inboundCredit i _ => oneIf i id
  | _ => 0

def Check.carries (id : StreamId) : Check → Nat
  | .send s => s.carries id
  | .trySend _ k => k.carries id
  | .dropSend _ _ k => k.carries id
  | _ => 0

/-- **The function has the stream** as its owner, and has not begun to drop it. -/
def Task.carries (id : StreamId) : Task → Nat
  | .anyOf _ c => c.carries id
  | .reserve s => s.carries id
  | .publish s => s.carries id
  | .trySend _ k => k.carries id
  | .storeShutdown k => k.carries id
  | .cancel k => k.carries id
  | .closeAll _ k => k.carries id
  | .openReturn .bi i => oneIf i id
  | .holdRecv i => oneIf i id
  | .undoRecv i => oneIf i id
  | .undoFlow i true => oneIf i id
  | .dropSend _ _ k => k.carries id
  | .dropSendRemove _ _ k => k.carries id
  | .releaseHandle _ k => k.carries id
  | .dropRecv i k => oneIf i id + k.carries id
  | .dropRecvSwap _ k => k.carries id
  | .closeReceiver _ k => k.carries id
  | .registerFlow i => oneIf i id
  | .newSend i => oneIf i id
  | .acceptLock i _ => oneIf i id
  | .acceptSend i _ => oneIf i id
  | .dropTx _ k => k.carries id
  | .holdSend _ i => oneIf i id
  | _ => 0

/-- The stream is in an accept queue. -/
def Accept.carries (id : StreamId) (x : Accept) : Nat :=
  x.uni.count id + (x.bi.map Prod.snd).count id

/-- The stream is with the application or in an accept queue. -/
def Memory.lent (id : StreamId) (m : Memory) : Nat :=
  (m.recvs.cell id).reader.held.toNat + m.accept.carries id

/-- The access registers the stream. -/
def Access.registers (id : StreamId) : Access → Nat
  | .recv (.register i _) => oneIf i id
  | _ => 0

@[simp] theorem Ret.carries_resume (k : Ret) : k.resume.carries id = k.carries id := by
  cases k <;> rfl

theorem acceptDrop_carries (i : StreamId) (h : Option Nat) :
    (acceptDrop i h).carries id = oneIf i id := by
  cases h <;> rfl

theorem SendSite.carries_resume (s : SendSite) (ok : Bool) :
    (s.resume cfg ok).carries id ≤ s.carries id := by
  cases s with
  | write c =>
      cases ok with
      | false => exact Nat.le_refl _
      | true =>
          simp only [SendSite.resume, writeLoop]
          split_ifs <;> exact Nat.le_refl _
  | inboundCredit i bi => cases bi <;> cases ok <;> exact Nat.le_refl _
  | _ => cases ok <;> exact Nat.le_refl _

theorem TrySite.carries_resume (s : TrySite) (k : Ret) (ok : Bool) :
    (s.resume k ok).carries id = k.carries id := by
  cases s <;> cases ok <;> rfl

theorem Check.carries_resume (c : Check) (b : Bool) :
    (c.resume cfg b).carries id ≤ c.carries id := by
  cases c with
  | send s =>
      cases b with
      | false => exact Nat.le_refl _
      | true => exact s.carries_resume false
  | trySend s k =>
      cases b with
      | false => exact Nat.le_refl _
      | true => exact (s.carries_resume k false).le
  | writeStart w =>
      cases b with
      | true => exact Nat.le_refl _
      | false =>
          simp only [Check.resume, writeLoop]
          split_ifs <;> exact Nat.le_refl _
  | reserveOpen w =>
      cases b with
      | false => exact Nat.le_refl _
      | true =>
          simp only [Check.resume, outOfCredit]
          split_ifs <;> exact Nat.le_refl _
  | noCredit w =>
      cases b with
      | true => exact Nat.le_refl _
      | false =>
          simp only [Check.resume]
          split_ifs <;> exact Nat.le_refl _
  | _ => cases b <;> exact Nat.le_refl _

/-! ## One step -/

/-- A read leaves the stream with the application. -/
theorem Memory.lent_read {r : RecvStream} {events : List RecvEvent} {i : StreamId}
    (hheld : r.held = (m.recvs.cell i).reader.held) :
    (m.apply (.recv (.read i r events))).lent id = m.lent id := by
  unfold Memory.lent
  by_cases hi : id = i
  · subst hi
    simp [Memory.apply, RecvTable.apply, RecvTable.modify, hheld]
  · simp [Memory.apply, RecvTable.apply, RecvTable.modify, Function.update_of_ne hi]

/-- The application gets a stream. -/
theorem Memory.lent_hold (i : StreamId) :
    (m.apply (.recv (.hold i true))).lent id ≤ m.lent id + oneIf i id := by
  unfold Memory.lent oneIf
  by_cases hi : i = id
  · subst hi
    have := Bool.toNat_le (m.recvs.cell i).reader.held
    simp [Memory.apply, RecvTable.apply, RecvTable.modify]
    omega
  · simp [Memory.apply, RecvTable.apply, RecvTable.modify, Function.update_of_ne (Ne.symm hi), hi]

/-- A fresh stream is nowhere. -/
theorem Memory.lent_register (i : StreamId) (w : Nat) :
    (m.apply (.recv (.register i w))).lent id ≤ m.lent id := by
  unfold Memory.lent
  by_cases hi : id = i
  · subst hi
    simp [Memory.apply, RecvTable.apply, RecvTable.register]
  · simp [Memory.apply, RecvTable.apply, RecvTable.register, Function.update_of_ne hi]

/-- Other accesses to a cell leave the stream where it is. -/
theorem Memory.lent_modify {b : RecvAccess} {i : StreamId} {g : RecvCell → RecvCell}
    (hb : (m.recvs.apply b).cell = (m.recvs.modify i g).cell)
    (hg : ∀ c, (g c).reader.held = c.reader.held) :
    (m.apply (.recv b)).lent id = m.lent id := by
  unfold Memory.lent
  have hcell : (m.apply (.recv b)).recvs.cell = (m.recvs.modify i g).cell := hb
  rw [hcell]
  by_cases hi : id = i
  · subst hi
    simp [Memory.apply, RecvTable.modify, hg]
  · simp [Memory.apply, RecvTable.modify, Function.update_of_ne hi]

/-- The access moves a stream, or makes one. -/
def Access.lends : Access → Bool
  | .recv (.hold _ _) => true
  | .recv (.register _ _) => true
  | .recv (.read _ _ _) => true
  | .accept (.push _ _) => true
  | .accept (.pop _) => true
  | _ => false

theorem Memory.lent_apply (ha : a.lends = false) : (m.apply a).lent id = m.lent id := by
  cases a with
  | recv b =>
      cases b with
      | stop i =>
          exact Memory.lent_modify (i := i) (g := fun c => { c with stopped := true }) rfl
            fun _ => rfl
      | queueCredit bound i target =>
          exact Memory.lent_modify (i := i) (g := fun c => { c with
            credit := if i ∈ m.recvs.pruned bound then max c.credit target else target }) rfl
            fun _ => rfl
      | takeCredit i =>
          exact Memory.lent_modify (i := i)
            (g := fun c => { c with credits := c.credits ++ [c.credit] }) rfl fun _ => rfl
      | swapStop i => exact Memory.lent_modify (i := i) rfl fun _ => rfl
      | storeMax i target => exact Memory.lent_modify (i := i) rfl fun _ => rfl
      | receive i n => exact Memory.lent_modify (i := i) rfl fun _ => rfl
      | deliver i e => exact Memory.lent_modify (i := i) rfl fun _ => rfl
      | dropTx i => exact Memory.lent_modify (i := i) rfl fun _ => rfl
      | closeReceiver i => exact Memory.lent_modify (i := i) rfl fun _ => rfl
      | hold i on | register i w | read i r events => cases ha
      | _ => rfl
  | accept b =>
      cases b with
      | push i h | pop bi => cases ha
      | takeTx bi => cases bi <;> rfl
      | closeRx bi => cases bi <;> rfl
  | session clone => cases clone <;> rfl
  | _ => rfl

/-- A stream comes to an accept queue. -/
theorem Memory.lent_push (i : StreamId) (h : Option Nat) :
    (m.apply (.accept (.push i h))).lent id = m.lent id + oneIf i id := by
  unfold Memory.lent Accept.carries oneIf
  cases h with
  | none =>
      simp only [Memory.apply, Accept.apply, List.count_append, List.count_singleton, beq_iff_eq]
      omega
  | some h =>
      simp only [Memory.apply, Accept.apply, List.map_append, List.map_cons, List.map_nil,
        List.count_append, List.count_singleton, beq_iff_eq]
      omega

/-- The first stream leaves an accept queue. -/
theorem Memory.lent_popUni {i : StreamId} {rest : List StreamId} (h : m.accept.uni = i :: rest) :
    (m.apply (.accept (.pop false))).lent id + oneIf i id = m.lent id := by
  unfold Memory.lent Accept.carries oneIf
  simp only [Memory.apply, Accept.apply, h, List.tail_cons, List.count_cons, beq_iff_eq]
  omega

theorem Memory.lent_popBi {i : StreamId} {k : Nat} {rest : List (Nat × StreamId)}
    (h : m.accept.bi = (k, i) :: rest) :
    (m.apply (.accept (.pop true))).lent id + oneIf i id = m.lent id := by
  unfold Memory.lent Accept.carries oneIf
  simp only [Memory.apply, Accept.apply, h, List.tail_cons, List.map_cons, List.count_cons,
    beq_iff_eq]
  omega

/-- **A step of a function moves a stream or leaves it where it is.** Only the registration makes
one. -/
theorem Task.carries_next (hn : t.next cfg m = some (a, t')) :
    (m.apply a).lent id + t'.carries id ≤ m.lent id + t.carries id + a.registers id := by
  have hquiet : a.lends = false → t'.carries id ≤ t.carries id →
      (m.apply a).lent id + t'.carries id ≤ m.lent id + t.carries id + a.registers id := by
    intro ha hle
    rw [Memory.lent_apply ha]
    omega
  have hread : ∀ {i : StreamId} {api : ReadApi} {n : Nat} {r : RecvStream}
      {events : List RecvEvent} {target : Option Nat},
      RecvStream.outcome ((m.recvs.cell i).reader.poll cfg.limits (m.recvs.hasSender i) api n
        (m.recvs.cell i).events) = some (r, events, target) →
      (m.apply (.recv (.read i r events))).lent id = m.lent id := by
    intro i api n r events target hout
    obtain ⟨taken, hr⟩ := RecvStream.reads_of_poll hout
    exact Memory.lent_read hr.held
  replace hn := Task.steps_of_next hn
  induction hn with
  | readReturn i api n r es hp | readAgain i api n r es hp | readGrant i api n r es target hp =>
      rw [hread (by rw [hp]; rfl)]
      exact Nat.le_refl _
  | holdRecv i =>
      have : (m.apply (.recv (.hold i true))).lent id ≤ m.lent id + oneIf i id := m.lent_hold i
      simpa [Task.carries, Access.registers] using this
  | registerRecvStream i | tryRegister i =>
      exact Nat.add_le_add_right (m.lent_register i cfg.limits.initialStreamWindow) _
  | acceptLockGone i h | acceptClosed i h =>
      refine hquiet rfl ?_
      rw [Ret.carries_resume, acceptDrop_carries]
      exact Nat.le_refl _
  | acceptFull i h => exact hquiet rfl (acceptDrop_carries i h).le
  | acceptSend i h =>
      rw [Memory.lent_push]
      exact Nat.le_refl _
  | acceptUni i rest hq | drainUni i rest hq => exact (m.lent_popUni hq).le
  | acceptBi h i rest hq | drainBi h i rest hq => exact (m.lent_popBi hq).le
  | anyOfNil c | anyOfSet f fs c | anyOfLast f c => exact hquiet rfl (c.carries_resume _)
  | reserveClosed s | publish s | unpublished s => exact hquiet rfl (s.carries_resume _)
  | trySend s k | trySendFull s k => exact hquiet rfl (s.carries_resume k _).le
  | closeAll c k =>
      cases c with
      | closeFlows => exact hquiet rfl (Ret.carries_resume k).le
      | _ => exact hquiet rfl (Nat.le_refl _)
  | cancel k | closeAllAgain k | releaseHandle _ k | closeReceiver _ k | dropTx _ k =>
      exact hquiet rfl (Ret.carries_resume k).le
  | dropRecvFinished | dropRecv | dropRecvGone => exact hquiet rfl (Nat.le_add_left _ _)
  | selectApi c | selectApiSame c => cases c <;> exact hquiet rfl (Nat.le_refl _)
  | swapOperation c =>
      refine hquiet rfl ?_
      cases c <;> simp only [SendCall.body] <;> (try split_ifs) <;> exact Nat.le_refl _
  | outOfCredit w => exact hquiet rfl (outOfCredit_elim w fun _ => Nat.le_refl _)
  | casSent => exact hquiet rfl (granted_elim _ (Nat.le_refl _) (Nat.le_refl _))
  | _ => exact hquiet rfl (Nat.le_refl _)

theorem Task.carries_cancelled (h : t.cancelled = some t') : t'.carries id ≤ t.carries id := by
  cases t with
  | reserve s => cases s <;> cases h <;> exact Nat.le_refl _
  | _ => cases h <;> exact Nat.le_refl _

theorem Task.carries_timedOut (h : t.timedOut = some t') : t'.carries id ≤ t.carries id := by
  cases t <;> cases h <;> exact Nat.le_refl _

theorem Task.carries_aborted (h : t.aborted = some t') : t'.carries id ≤ t.carries id := by
  cases t with
  | reserve s => cases s <;> cases h <;> exact Nat.le_refl _
  | acceptLock i x =>
      cases h
      rw [Ret.carries_resume, acceptDrop_carries]
      exact Nat.le_refl _
  | closeAll c k => cases c <;> cases h <;> exact (Ret.carries_resume k).le
  | _ => cases h

theorem Turn.carries_eq {v : View} {fs : List Frame} {b : Bool} (h : Turn cfg v t t' fs b) :
    t'.carries id = 0 := by
  cases h with
  | @frame f hl hf => cases f <;> simp only [handleFrame] <;> (try split_ifs) <;> rfl
  | _ => rfl

/-- A call takes a stream from the application only to drop it. -/
theorem Call.carries_start {c : Call} {u : Use} (h : c.start m = some (u, a, t))
    (id : StreamId) :
    (m.apply a).lent id + t.carries id ≤ m.lent id := by
  cases Call.starts_of_start h with
  | @dropRecv i hheld =>
      have haccept : (m.apply (.recv (.hold i false))).accept = m.accept := rfl
      have hcarries : (Task.dropRecv i .done).carries id = oneIf i id := rfl
      unfold Memory.lent
      rw [haccept, hcarries, oneIf]
      by_cases hi : i = id
      · subst hi
        have hheld' : ((m.apply (.recv (.hold i false))).recvs.cell i).reader.held = false := by
          simp [Memory.apply, RecvTable.apply, RecvTable.modify]
        rw [hheld', hheld, if_pos rfl, Bool.toNat_false, Bool.toNat_true]
        omega
      · have hcell : (m.apply (.recv (.hold i false))).recvs.cell id = m.recvs.cell id := by
          simp [Memory.apply, RecvTable.apply, RecvTable.modify, Function.update_of_ne (Ne.symm hi)]
        rw [hcell, if_neg hi]
        omega
  | _ => exact Nat.le_refl _

theorem LoopAccess.lends_eq (ha : LoopAccess m a) : a.lends = false := by
  cases ha <;> rfl

/-! ## One owner -/

/-- The places where a stream is. -/
def View.owners (id : StreamId) (v : View) : Nat :=
  v.mem.lent id + total (Task.carries id) v.tasks

theorem Memory.registered_count (m : Memory) (a : Access) :
    (m.apply a).recvs.registered.count id = m.recvs.registered.count id + a.registers id := by
  cases a with
  | recv b =>
      cases b with
      | register i w =>
          simp only [Memory.apply, RecvTable.apply, RecvTable.register, List.count_append,
            List.count_singleton, beq_iff_eq, Access.registers, oneIf]
      | _ => rfl
  | session clone => cases clone <;> rfl
  | _ => rfl

/-- **A move adds to the places of a stream only when it registers the stream.** -/
theorem Moves.owners {v v' : View} {who : Option Nat} (hm : Moves cfg v who v')
    (id : StreamId) :
    v'.owners id + v.mem.recvs.registered.count id ≤
      v.owners id + v'.mem.recvs.registered.count id := by
  unfold View.owners
  -- a function goes on without an access
  have hset : ∀ {i : Nat} {t t' : Task}, v.tasks[i]? = some t → t'.carries id ≤ t.carries id →
      total (Task.carries id) (v.tasks.set i t') ≤ total (Task.carries id) v.tasks := by
    intro i t t' hi hle
    have := total_set (f := Task.carries id) (y := t') hi
    omega
  cases hm with
  | @next i t t' a hi hn =>
      have hstep : (v.mem.apply a).lent id + t'.carries id ≤
          v.mem.lent id + t.carries id + a.registers id := Task.carries_next hn
      have htot := total_set (f := Task.carries id) (y := t') hi
      rw [Memory.registered_count]
      dsimp only
      omega
  | cancel hi hc =>
      have := hset hi (Task.carries_cancelled hc)
      dsimp only
      omega
  | timeout hi hc =>
      have := hset hi (Task.carries_timedOut hc)
      dsimp only
      omega
  | abort hi ha =>
      have := hset hi (Task.carries_aborted ha)
      dsimp only
      omega
  | turn hi ht =>
      have := hset hi (ht.carries_eq.le.trans (Nat.zero_le _))
      dsimp only
      omega
  | exit hi =>
      have hdone : taskFinished.carries id ≤ Task.done.carries id := Nat.le_refl _
      have := hset hi hdone
      rw [Memory.lent_apply rfl]
      exact Nat.add_le_add_right (Nat.add_le_add_left this _) _
  | spawn hc =>
      have hcall := Call.carries_start hc id
      rw [total_append, Memory.registered_count]
      dsimp only
      omega
  | loop ha hb =>
      rw [Memory.lent_apply ha.lends_eq, Memory.registered_count]
      dsimp only
      omega

/-- **A stream has at most one owner**, in every state of every run. -/
theorem owners_le_one {ok : Session → Label → Prop} {s : Session}
    (hr : Reachable (Session.step cfg) ok {} s) (id : StreamId) : s.view.owners id ≤ 1 := by
  have hle : s.view.owners id ≤ s.mem.recvs.registered.count id := by
    induction hr with
    | init => exact Nat.le_refl _
    | @step s s' l hr hok hs ih =>
        have hstep : s'.view.owners id + s.mem.recvs.registered.count id ≤
            s.view.owners id + s'.mem.recvs.registered.count id :=
          (Session.moves_of_step hs).owners id
        omega
  have hfresh := ((recvsInv_of_reachable hr).owner id).fresh
  have hbool := Bool.toNat_le (s.view.recvDirection cfg id).allocated
  have hreg : (s.view.recvDirection cfg id).registered = s.mem.recvs.registered.count id := rfl
  omega

/-- A function that has the stream is its only owner. -/
theorem alone_of_carries {ok : Session → Label → Prop} {s : Session}
    (hr : Reachable (Session.step cfg) ok {} s) {i : Nat} (hi : s.tasks[i]? = some t)
    (ht : t.carries id = 1) : s.mem.lent id = 0 ∧
      ∀ (j : Nat) (t' : Task), s.tasks[j]? = some t' → j ≠ i → t'.carries id = 0 := by
  have hone : s.mem.lent id + total (Task.carries id) s.tasks ≤ 1 := owners_le_one hr id
  have hle := le_total (f := Task.carries id) (List.mem_of_getElem? hi)
  refine ⟨by omega, fun j t' hj hji => ?_⟩
  have := add_le_total (f := Task.carries id) hj hi hji
  omega

/-- While the application has the stream, no function does. -/
theorem carries_of_held {ok : Session → Label → Prop} {s : Session}
    (hr : Reachable (Session.step cfg) ok {} s) (hh : (s.mem.recvs.cell id).reader.held = true)
    (ht : t ∈ s.tasks) : t.carries id = 0 := by
  have hone : s.mem.lent id + total (Task.carries id) s.tasks ≤ 1 := owners_le_one hr id
  have hle := le_total (f := Task.carries id) ht
  unfold Memory.lent at hone
  rw [hh, Bool.toNat_true] at hone
  omega

/-! ## The application has what is borrowed -/

/-- The application keeps the stream, unless it is registered. -/
theorem RecvDirection.Step.held {l : Limits} {d : RecvDirection} {dead blocked : Prop}
    {r r' : RecvRole} {e : RecvChange} (hs : d.Step l dead blocked r e r') (hr : r ≠ .token)
    (h : d.cell.reader.held = true) : (d.apply e).cell.reader.held = true := by
  cases hs with
  | register => exact absurd rfl hr
  | registerPeer => exact absurd rfl hr
  | hold => rfl
  | read hread => exact hread.held.trans h
  | readGrant hread => exact hread.held.trans h
  | _ => exact h

/-- The application keeps the stream unless it makes a call. -/
theorem RecvDirection.PoolStep.held {l : Limits} {d d' : RecvDirection} {dead blocked : Prop}
    {rs rs' : List RecvRole} (hs : d.PoolStep l rs dead blocked d' rs') (ho : RecvOwner d rs)
    (hlen : rs'.length = rs.length) (h : d.cell.reader.held = true) :
    d'.cell.reader.held = true := by
  cases hs with
  | act hi hs =>
      refine hs.held ?_ h
      rintro rfl
      have hz := ho.unregistered_of_token hi
      have := ho.registered_of_held h
      omega
  | spawn => exact h
  | borrow =>
      rw [List.length_append, List.length_singleton] at hlen
      omega
  | _ => exact h

/-- The application keeps the stream at a call, unless it drops it. -/
theorem Call.held_start {c : Call} {u : Use} (h : c.start m = some (u, a, t))
    (hu : u ≠ .recv id true) (hh : (m.recvs.cell id).reader.held = true) :
    ((m.apply a).recvs.cell id).reader.held = true := by
  cases Call.starts_of_start h with
  | @dropRecv i =>
      have hne : id ≠ i := by
        rintro rfl
        exact hu rfl
      simpa [Memory.apply, RecvTable.apply, RecvTable.modify, Function.update_of_ne hne] using hh
  | _ => exact hh

/-- A call borrows a stream that the application has. -/
theorem Call.held_of_borrowsOf {c : Call} {u : Use} {excl : Bool}
    (h : c.start m = some (u, a, t)) (hb : t.borrowsOf = some (id, excl)) :
    ((m.apply a).recvs.cell id).reader.held = true := by
  cases Call.starts_of_start h <;> cases hb
  all_goals assumption

/-- **The application has every stream that an operation in progress has borrowed.** -/
theorem held_of_borrows {ok : Session → Label → Prop} {s : Session}
    (hr : Reachable (Session.step cfg) ok {} s) :
    ∀ o ∈ s.ops, ∀ id excl, o.task.borrowsOf = some (id, excl) →
      (s.mem.recvs.cell id).reader.held = true := by
  induction hr with
  | init => exact fun o ho => (by cases ho)
  | @step s s' l hr hok hs ih =>
      -- without a call, the application keeps what it has
      have hkeep : s'.tasks.length = s.tasks.length → ∀ id,
          (s.mem.recvs.cell id).reader.held = true → (s'.mem.recvs.cell id).reader.held = true := by
        intro hlen id hh
        refine (recvPoolStep_of_step hr hok hs id).held ((recvsInv_of_reachable hr).owner id) ?_ hh
        simpa [recvRoles] using hlen
      -- an operation that goes on keeps its borrow, or has none
      have hset : ∀ {i : Nat} {o : Op} {t' : Task}, s.ops[i]? = some o →
          (t'.borrowsOf = o.task.borrowsOf ∨ t'.borrowsOf = none) →
          ∀ p ∈ s.ops.set i { o with task := t' }, ∀ id excl, p.task.borrowsOf = some (id, excl) →
            (s.mem.recvs.cell id).reader.held = true := by
        intro i o t' hi hb
        refine forall_mem_set ih fun id excl hp => ?_
        rcases hb with hb | hb
        · exact ih o (List.mem_of_getElem? hi) id excl (hb ▸ hp)
        · rw [show ({ o with task := t' } : Op).task = t' from rfl, hb] at hp
          cases hp
      have hlen : ∀ {i : Nat} {o : Op} {a : Access} {t' : Task},
          (s.setOp i o a t').tasks.length = s.tasks.length := by
        intro i o a t'
        simp [Session.tasks, Session.setOp]
      cases Session.steps_of_step hs with
      | @call c owned u a t ho hst hmay =>
          refine forall_mem_concat (fun o ho id excl hb => ?_) fun id excl hb =>
            Call.held_of_borrowsOf hst hb
          refine Call.held_start hst ?_ (ih o ho id excl hb)
          -- a drop would conflict with the borrow
          rintro rfl
          rcases Bool.or_eq_true_iff.1 (List.all_eq_true.1 hmay o ho) with hd | hc
          · rw [Task.isDone_of_borrowsOf hb] at hd
            cases hd
          · rw [(borrows_apart hr).borrowed o ho id excl hb] at hc
            simp [Use.conflicts] at hc
      | op ho hn =>
          exact fun p hp id excl hb => hkeep hlen id (hset ho (Task.borrowsOf_next hn) p hp id excl hb)
      | cancelOp ho hc =>
          exact fun p hp id excl hb =>
            hkeep hlen id (hset ho (.inr (Task.borrowsOf_cancelled hc)) p hp id excl hb)
      | timeout ho hc =>
          exact fun p hp id excl hb =>
            hkeep hlen id (hset ho (.inr (Task.borrowsOf_timedOut hc)) p hp id excl hb)
      | _ => exact fun p hp id excl hb => hkeep rfl id (ih p hp id excl hb)

/-- A function with a borrow is one of the application. -/
theorem exists_op_of_borrowsOf {ok : Session → Label → Prop} {s : Session}
    (hr : Reachable (Session.step cfg) ok {} s) {i : Nat} (hi : s.tasks[i]? = some t)
    {b : StreamId × Bool} (hb : t.borrowsOf = some b) :
    ∃ j o, i = j + 2 ∧ s.ops[j]? = some o ∧ o.task = t := by
  have hge : ¬ i < 2 := by
    intro hlt
    rw [(frontQuiet_of_reachable hr).2 i t hlt hi] at hb
    cases hb
  obtain ⟨j, rfl⟩ : ∃ j, i = j + 2 := ⟨i - 2, by omega⟩
  have hj : (s.ops.map Op.task)[j]? = some t := hi
  rw [List.getElem?_map] at hj
  obtain ⟨o, ho, hot⟩ := Option.map_eq_some_iff.1 hj
  exact ⟨j, o, rfl, ho, hot⟩

/-- The application has a stream that a function has borrowed. -/
theorem held_of_borrowsOf {ok : Session → Label → Prop} {s : Session}
    (hr : Reachable (Session.step cfg) ok {} s) (ht : t ∈ s.tasks) {excl : Bool}
    (hb : t.borrowsOf = some (id, excl)) : (s.mem.recvs.cell id).reader.held = true := by
  obtain ⟨i, hi⟩ := List.getElem?_of_mem ht
  obtain ⟨j, o, -, ho, rfl⟩ := exists_op_of_borrowsOf hr hi hb
  exact held_of_borrows hr o (List.mem_of_getElem? ho) id excl hb

/-- While a function has borrowed the stream, no other one reads it. -/
theorem not_reads_of_borrowsOf {ok : Session → Label → Prop} {s : Session}
    (hr : Reachable (Session.step cfg) ok {} s) {i j : Nat} (hi : s.tasks[i]? = some t)
    (hj : s.tasks[j]? = some t') (hij : i ≠ j) {excl : Bool}
    (hb : t.borrowsOf = some (id, excl)) : t'.readsOf ≠ some id := by
  intro hread
  have hb' := Task.borrowsOf_of_readsOf hread
  obtain ⟨k, o, rfl, ho, rfl⟩ := exists_op_of_borrowsOf hr hi hb
  obtain ⟨k', o', rfl, ho', rfl⟩ := exists_op_of_borrowsOf hr hj hb'
  have := (borrows_apart hr).alone ho ho' (fun h => hij (by rw [h])) hb hb'
  simp at this

end WebsockMux.Native
