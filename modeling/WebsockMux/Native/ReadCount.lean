import WebsockMux.Native.Delivery
import WebsockMux.Native.ReadApis

/-!
# The reads of a session

A read of a session (`RecvStream.poll`) is a call of one of the four read functions
(`poll_eq_readInto`, `poll_eq_readChunk`, `poll_eq_pollRead`). So their count of consumed bytes is
that of the session's readers, and it is exact there: what a reader returns was delivered, what is
delivered was received, and what is received fits the counter (`consumed_of_reachable`).

With that, the four functions are interchangeable (`read_apis_interchangeable`).
-/

set_option autoImplicit false

namespace WebsockMux.Native

open WebsockMux.Lib WebsockMux.Proto

/-! ## Reads are calls -/

/-- A call as a step of a session: an `async` function that is pending waits, `poll_read`
returns. -/
def ReadCall.result (waits : Bool) (c : ReadCall) : ReadResult :=
  if c.report = .pending ∧ waits = true then .wait
  else
    match c.credit with
    | none => .ret c.reader c.events
    | some target => .grant c.reader c.events target

namespace RecvStream

variable {l : Limits} {open_ : Bool} {n : Nat} {r r' : RecvStream}
  {events left : List RecvEvent} {api : ReadApi} {target : Option Nat}

/-- The bytes of a chunk are returned. -/
theorem give_eq_consume {waits : Bool} (report : ReadReport) (hreport : report ≠ .pending)
    {chunk : List UInt8} {k : Nat} (hk : k = min n chunk.length) :
    r.give l events chunk n =
      (r.consume l events report (chunk.take k) (chunk.drop k)).result waits := by
  have htake : chunk.take n = chunk.take k := by rw [hk, ← List.take_eq_take_min]
  have hdrop : chunk.drop n = chunk.drop k := by rw [hk, ← List.drop_eq_drop_min]
  unfold give consume ReadCall.result
  rw [if_neg fun h => hreport h.1, htake, hdrop]
  dsimp only
  generalize RecvStream.onBytesConsumed l _ _ = y
  obtain ⟨r, _ | target⟩ := y <;> rfl

theorem give_eq_copyOut (chunk : List UInt8) :
    r.give l events chunk n = ({ r with pending := chunk }.copyOut l n events).result true :=
  give_eq_consume (.okSome _) nofun rfl

/-- `read` and `read_buf` are what the session does. -/
theorem poll_eq_readInto (hapi : api = .read ∨ api = .readBuf) :
    r.poll l open_ api n events = (r.readInto l open_ n events).result true := by
  have hne : api ≠ .pollRead := by rcases hapi with rfl | rfl <;> nofun
  unfold poll readInto
  by_cases hn : n = 0
  · rw [if_pos hn, if_pos hn]
    rfl
  rw [if_neg hn, if_neg hn]
  by_cases hp : r.pending = []
  · rw [if_neg (not_not.2 hp), if_pos hp]
    by_cases hf : r.finished = true
    · rw [if_pos hf, if_pos hf]
      rfl
    rw [if_neg hf, if_neg hf]
    cases events with
    | nil =>
        by_cases hopen : open_ = true
        · simp only [readChunkInternal, recv, if_pos hopen, if_neg hne]
          rfl
        · simp only [readChunkInternal, recv, if_neg hopen]
          rfl
    | cons e left =>
        simp only [take, readChunkInternal, recv, ← saw_eq]
        by_cases hfin : e.data = [] ∧ e.fin = true
        · rw [if_pos hfin, if_pos hfin]
          rfl
        · rw [if_neg hfin, if_neg fun h => hne h.2, if_neg hfin]
          exact give_eq_copyOut e.data
  · rw [if_pos hp, if_neg hp]
    exact give_eq_copyOut r.pending

/-- `read_chunk` is what the session does. -/
theorem poll_eq_readChunk :
    r.poll l open_ .readChunk n events = (r.readChunk l open_ n events).result true := by
  unfold poll readChunk
  by_cases hn : n = 0
  · rw [if_pos hn, if_pos hn]
    rfl
  rw [if_neg hn, if_neg hn]
  by_cases hp : r.pending = []
  · rw [if_neg (not_not.2 hp), if_neg (not_not.2 hp)]
    by_cases hf : r.finished = true
    · rw [if_pos hf, if_pos hf]
      rfl
    rw [if_neg hf, if_neg hf]
    cases events with
    | nil =>
        by_cases hopen : open_ = true
        · simp only [recv, if_pos hopen]
          rfl
        · simp only [recv, if_neg hopen]
          rfl
    | cons e left =>
        simp only [take, recv, ← saw_eq]
        by_cases hfin : e.data = [] ∧ e.fin = true
        · rw [if_pos hfin, if_pos hfin]
          rfl
        rw [if_neg hfin, if_neg (by simp), if_neg hfin]
        by_cases hlen : n < e.data.length
        · rw [if_pos hlen]
          exact give_eq_consume (.okSome _) (by rintro ⟨⟩) (by omega)
        · -- the whole event is returned, and nothing stays pending
          rw [if_neg hlen, hp, give_eq_consume (.okSome e.data) (by rintro ⟨⟩) rfl,
            List.take_of_length_le (by omega), List.drop_of_length_le (by omega)]
  · rw [if_pos hp, if_pos hp]
    exact give_eq_consume (.okSome _) (by rintro ⟨⟩) (Nat.min_comm _ _)

/-- `poll_read` is what the session does, one event at a time. -/
theorem poll_eq_pollRead :
    (∃ rest, r.poll l open_ .pollRead n events = .again r rest ∧
      r.pollRead l open_ n events = r.pollRead l open_ n rest) ∨
    r.poll l open_ .pollRead n events = (r.pollRead l open_ n events).result false := by
  unfold poll pollRead
  by_cases hn : n = 0
  · rw [if_pos hn, if_pos hn]
    exact .inr rfl
  rw [if_neg hn, if_neg hn]
  by_cases hp : r.pending = []
  · simp only [if_neg (not_not.2 hp), if_neg hn]
    by_cases hf : r.finished = true
    · rw [if_pos hf, if_pos hf]
      exact .inr rfl
    simp only [if_neg hf]
    cases events with
    | nil =>
        by_cases hopen : open_ = true
        · simp only [pollReadLoop, if_pos hopen]
          exact .inr rfl
        · simp only [pollReadLoop, if_neg hopen]
          exact .inr rfl
    | cons e left =>
        simp only [take, pollReadLoop, ← saw_eq]
        by_cases hdata : e.data = []
        · by_cases hfin : e.fin = true
          · rw [if_pos ⟨hdata, hfin⟩, if_pos hdata, if_pos hfin]
            exact .inr rfl
          · have hsaw : r.saw e = r := if_neg hfin
            rw [if_neg fun h => hfin h.2, if_pos ⟨hdata, trivial⟩, if_pos hdata, if_neg hfin, hsaw]
            exact .inl ⟨left, rfl, rfl⟩
        · rw [if_neg fun h => hdata h.1, if_neg fun h => hdata h.1, if_neg hdata]
          right
          split_ifs with hlen
          · exact give_eq_consume (.filled _) (by rintro ⟨⟩) (Nat.min_comm _ _)
          · have hle : e.data.length ≤ min e.data.length n := Nat.le_of_not_lt hlen
            rw [hp, ← List.drop_of_length_le hle]
            exact give_eq_consume (.filled _) (by rintro ⟨⟩) (Nat.min_comm _ _)
  · rw [if_pos hp, if_pos hp]
    exact .inr (give_eq_consume (.filled _) (by rintro ⟨⟩) (Nat.min_comm _ _))

/-- What a call leaves behind as a step of a session. -/
theorem reader_of_result {waits : Bool} {c : ReadCall}
    (hout : outcome (c.result waits) = some (r', left, target)) : r' = c.reader := by
  unfold ReadCall.result at hout
  split_ifs at hout
  · cases hout
  · cases hc : c.credit with
    | none =>
        rw [hc] at hout
        cases hout
        rfl
    | some t =>
        rw [hc] at hout
        cases hout
        rfl

/-- The reader after a read of a session is that after a call, or the read goes on. -/
theorem reader_of_poll (hout : outcome (r.poll l open_ api n events) = some (r', left, target)) :
    r' = r ∨ (0 < n ∧ r' = (call l open_ api n r events).reader) := by
  rcases Nat.eq_zero_or_pos n with rfl | hn
  · cases hout
    exact .inl rfl
  · have hcall : ∀ {waits : Bool} {c : ReadCall},
        r.poll l open_ api n events = c.result waits → r' = c.reader := by
      intro waits c heq
      rw [heq] at hout
      exact reader_of_result hout
    cases api with
    | read => exact .inr ⟨hn, hcall (poll_eq_readInto (.inl rfl))⟩
    | readBuf => exact .inr ⟨hn, hcall (poll_eq_readInto (.inr rfl))⟩
    | readChunk => exact .inr ⟨hn, hcall poll_eq_readChunk⟩
    | pollRead =>
        rcases poll_eq_pollRead (l := l) (r := r) (n := n) with ⟨rest, heq, -⟩ | heq
        · rw [heq] at hout
          cases hout
          exact .inl rfl
        · exact .inr ⟨hn, hcall heq⟩

end RecvStream

/-! ## The count of a session -/

/-- `consumed` is the number of bytes returned, unless it is saturated. -/
def RecvStream.Counted (r : RecvStream) : Prop := r.consumed = min r.returned.length (2 ^ 64 - 1)

/-- A read keeps the count. -/
theorem RecvStream.Counted.poll {l : Limits} {open_ : Bool} {n : Nat} {r r' : RecvStream}
    {events left : List RecvEvent} {api : ReadApi} {target : Option Nat} (h : r.Counted)
    (hout : outcome (r.poll l open_ api n events) = some (r', left, target)) : r'.Counted := by
  rcases reader_of_poll hout with rfl | ⟨hn, rfl⟩
  · exact h
  · obtain ⟨taken, hc⟩ : ∃ taken, Served open_ r events (call l open_ api n r events) taken :=
      served_call api hn
    unfold RecvStream.Counted
    rw [hc.returned, List.length_append]
    exact hc.consumed.trans (ReadRun.consumed_add h)

/-- The counters of a receive direction. -/
structure RecvCell.Counts (c : RecvCell) : Prop where
  reader : c.reader.Counted
  received : c.received < 2 ^ 64

/-- An access keeps the counters when a read counts and no counter overflows. -/
theorem RecvTable.counts_apply {s : RecvTable} {a : RecvAccess}
    (h : ∀ id, (s.cell id).Counts)
    (hread : ∀ id r events, a = .read id r events → r.Counted)
    (hreceive : ∀ id n, a = .receive id n → (s.cell id).received + n < 2 ^ 64) :
    ∀ id, ((s.apply a).cell id).Counts := by
  -- one cell is changed
  have hone : ∀ {i : StreamId} {c : RecvCell}, c.Counts →
      ∀ id, (Function.update s.cell i c id).Counts := by
    intro i c hc id
    by_cases hid : id = i
    · subst hid
      rw [Function.update_self]
      exact hc
    · rw [Function.update_of_ne hid]
      exact h id
  cases a with
  | register i w => exact hone ⟨rfl, Nat.two_pow_pos 64⟩
  | read i r events => exact hone ⟨hread i r events rfl, (h i).received⟩
  | receive i n => exact hone ⟨(h i).reader, hreceive i n rfl⟩
  | stop i | swapStop i | storeMax i t | queueCredit b i t | takeCredit i | deliver i e | dropTx i
  | closeReceiver i | hold i on => exact hone ⟨(h i).reader, (h i).received⟩
  | remove i | clear | clearCredit | prune b => exact h

section Session

variable {cfg : Config} {m : Memory} {t t' : Task} {id : StreamId}

/-- Who reads: the read functions. -/
theorem Task.reads_of_next {r : RecvStream} {events : List RecvEvent}
    (hn : t.next cfg m = some (.recv (.read id r events), t')) :
    ∃ api n target, RecvStream.outcome ((m.recvs.cell id).reader.poll cfg.limits
      (m.recvs.hasSender id) api n (m.recvs.cell id).events) = some (r, events, target) := by
  generalize ha : Access.recv (.read id r events) = a at hn
  replace hn := Task.steps_of_next hn
  induction hn with
  | readReturn i api n _ _ hp | readAgain i api n _ _ hp =>
      cases ha
      exact ⟨api, n, none, by rw [hp]; rfl⟩
  | readGrant i api n _ _ target hp =>
      cases ha
      exact ⟨api, n, some target, by rw [hp]; rfl⟩
  | closeAll c k => cases c <;> cases ha
  | _ => cases ha

/-- Who counts received bytes: `handle_frame`, after its checks. -/
theorem Task.refusesData_of_next {n : Nat}
    (hn : t.next cfg m = some (.recv (.receive id n), t')) : m.recvs.refusesData id n = none := by
  generalize ha : Access.recv (.receive id n) = a at hn
  replace hn := Task.steps_of_next hn
  induction hn with
  | stoppedFin i data hr | stoppedData i data hr | receiveData i data _ hr =>
      cases ha
      exact hr
  | closeAll c k => cases c <;> cases ha
  | _ => cases ha

theorem RecvTable.lt_of_refusesData {s : RecvTable} {n : Nat} (h : s.refusesData id n = none) :
    (s.cell id).received + n < 2 ^ 64 := by
  unfold RecvTable.refusesData at h
  split_ifs at h with _ hover
  omega

/-- An access that neither reads nor receives. -/
theorem Memory.counts_apply {a : Access} (h : ∀ id, (m.recvs.cell id).Counts)
    (hread : ∀ i r events, a ≠ .recv (.read i r events))
    (hreceive : ∀ i n, a ≠ .recv (.receive i n)) : ∀ id, ((m.apply a).recvs.cell id).Counts := by
  cases a with
  | recv b =>
      refine RecvTable.counts_apply h ?_ fun i n hb => absurd (congrArg _ hb) (hreceive i n)
      exact fun i r events hb => absurd (congrArg _ hb) (hread i r events)
  | session clone => cases clone <;> exact h
  | _ => exact h

/-- The access of a call to a receive stream: the drop of a stream takes it from the application. -/
theorem Call.hold_of_start {c : Call} {u : Use} {b : RecvAccess}
    (h : c.start m = some (u, .recv b, t)) : ∃ i, b = .hold i false := by
  cases Call.starts_of_start h
  exact ⟨_, rfl⟩

/-- **A move keeps the counters.** -/
theorem counts_of_moves {v v' : View} {who : Option Nat} (hm : Moves cfg v who v')
    (h : ∀ id, (v.mem.recvs.cell id).Counts) : ∀ id, (v'.mem.recvs.cell id).Counts := by
  cases hm with
  | @next i t t' a hi hn =>
      cases a with
      | recv b =>
          refine RecvTable.counts_apply h ?_ ?_
          · rintro id r events rfl
            obtain ⟨api, n, target, hout⟩ := Task.reads_of_next hn
            exact (h id).reader.poll hout
          · rintro id n rfl
            exact RecvTable.lt_of_refusesData (Task.refusesData_of_next hn)
      | session clone => cases clone <;> exact h
      | _ => exact h
  | spawn hc =>
      refine Memory.counts_apply h ?_ ?_
      · rintro i r events rfl
        obtain ⟨j, hb⟩ := Call.hold_of_start hc
        cases hb
      · rintro i n rfl
        obtain ⟨j, hb⟩ := Call.hold_of_start hc
        cases hb
  | loop ha hb =>
      refine Memory.counts_apply h ?_ ?_
      · rintro i r events rfl
        cases ha
      · rintro i n rfl
        cases ha
  | exit hi => exact Memory.counts_apply h nofun nofun
  | _ => exact h

/-- **The counters in every run.** -/
theorem counts_of_reachable {ok : Session → Label → Prop} {s : Session}
    (hr : Reachable (Session.step cfg) ok {} s) : ∀ id, (s.mem.recvs.cell id).Counts := by
  induction hr with
  | init => exact fun id => ⟨rfl, Nat.two_pow_pos 64⟩
  | step _ _ hs ih => exact counts_of_moves (Session.moves_of_step hs) ih

end Session

/-! ## What is delivered was received -/

/-- The bytes of a frame that is counted and not yet delivered. -/
def RecvRole.undelivered : RecvRole → Nat
  | delivering e => e.data.length
  | _ => 0

section Delivered

variable {l : Limits} {d d' : RecvDirection} {rs rs' : List RecvRole} {i : Nat} {r r' : RecvRole}
  {e : RecvChange} {dead blocked : Prop}

/-- What is delivered, with what is about to be, was received. -/
def RecvDirection.Backed (d : RecvDirection) (rs : List RecvRole) : Prop :=
  (eventBytes d.cell.delivered).length + total RecvRole.undelivered rs ≤ d.cell.received

/-- A step delivers what it holds, and holds what it receives. -/
theorem RecvDirection.Step.backed (hown : RecvOwner d rs) (hi : rs[i]? = some r)
    (hs : d.Step l dead blocked r e r') :
    (eventBytes (d.apply e).cell.delivered).length + r'.undelivered + d.cell.received ≤
      (eventBytes d.cell.delivered).length + r.undelivered + (d.apply e).cell.received := by
  have hafter : ∀ ev, (RecvRole.afterEvent ev).undelivered = 0 := by
    intro ev
    rcases RecvRole.afterEvent_cases ev with ⟨-, h⟩ | ⟨-, h⟩ <;> rw [h] <;> rfl
  have hlight : ∀ {q : RecvRole}, q.light = true → q.undelivered = 0 := by
    intro q hq
    rcases RecvRole.light_cases hq with rfl | rfl <;> rfl
  have hfresh : ∀ {k : Nat}, rs[i]? = some .token → 0 + 0 + d.cell.received ≤ k := by
    intro k htok
    rw [(hown.unregistered (hown.unregistered_of_token htok)).1]
    exact Nat.zero_le _
  cases hs with
  | register ho => exact hfresh hi
  | registerPeer => exact hfresh hi
  | @receive ev hin hst hm =>
      show _ + ev.data.length + _ ≤ _ + 0 + (d.cell.received + ev.data.length)
      dsimp only [RecvDirection.apply, RecvDirection.modify]
      omega
  | @receiveStopped ev hin hst hm =>
      rw [hafter]
      dsimp only [RecvDirection.apply, RecvDirection.modify, RecvRole.undelivered]
      omega
  | @deliver ev ho =>
      rw [hafter]
      dsimp only [RecvDirection.apply, RecvDirection.modify, RecvRole.undelivered]
      rw [eventBytes_append, List.length_append, eventBytes_singleton]
      omega
  | deliverClosed ho =>
      rw [hafter]
      dsimp only [RecvDirection.apply, RecvRole.undelivered]
      omega
  | deliverFull hd hblk =>
      dsimp only [RecvDirection.apply, RecvRole.undelivered]
      omega
  | lower hr' | dropFinished hf hr' | dropSkip hst hr' | publishStop hr' | stopFail hd hr' =>
      rw [hlight hr']
      exact Nat.le_refl _
  | read hread hr' => rcases hr' with rfl | rfl <;> exact Nat.le_refl _
  | _ => exact Nat.le_refl _

/-- **A step of the pool keeps the account of deliveries.** -/
theorem RecvDirection.Backed.poolStep (hown : RecvOwner d rs) (h : d.Backed rs)
    (hs : d.PoolStep l rs dead blocked d' rs') : d'.Backed rs' := by
  unfold Backed at h ⊢
  cases hs with
  | @act i r r' e hi hs =>
      have ht := total_set (f := RecvRole.undelivered) (y := r') hi
      have hstep := hs.backed hown hi
      show (eventBytes (d.apply e).cell.delivered).length + _ ≤ (d.apply e).cell.received
      omega
  | @arrive x r' hi hnb hx =>
      have ht := total_set (f := RecvRole.undelivered) (y := r') hi
      have hz : r'.undelivered = 0 := by cases hx <;> rfl
      have hz' : RecvRole.undelivered .none = 0 := rfl
      show (eventBytes d.cell.delivered).length + _ ≤ d.cell.received
      omega
  | spawn =>
      rw [total_append]
      exact h
  | @borrow r e hr he hh hone =>
      have hz : r.undelivered = 0 := by rcases hr with rfl | rfl <;> rfl
      rw [total_append, hz]
      rcases he with rfl | rfl <;> exact h
  | takeCredit hp => exact h
  | idle => exact h

/-- **The count of a reader is exact.** In every run of a session, `consumed` is the number of bytes
that the reader has returned: no more is returned than was received, which fits the counter. -/
theorem consumed_of_reachable {cfg : Config} {ok : Session → Label → Prop} {s : Session}
    (hr : Reachable (Session.step cfg) ok {} s) (id : StreamId) :
    (s.mem.recvs.cell id).reader.consumed = (s.mem.recvs.cell id).reader.returned.length := by
  have hcounts := counts_of_reachable hr id
  have hbacked : (s.view.recvDirection cfg id).Backed (recvRoles id s.tasks) :=
    recv_invariant (P := RecvDirection.Backed) (fun _ _ _ => Nat.le_refl _)
      (fun hown _ _ h hs => h.poolStep hown hs) hr id
  have hle : (eventBytes (s.mem.recvs.cell id).delivered).length ≤
      (s.mem.recvs.cell id).received := (Nat.le_add_right _ _).trans hbacked
  obtain ⟨taken, htook⟩ := recvTook_of_reachable hr id
  have hlen := congrArg List.length htook.bytes
  rw [htook.delivered, eventBytes_append, List.length_append] at hle
  rw [List.length_append] at hlen
  have hlt := hcounts.received
  have hcount : (s.mem.recvs.cell id).reader.consumed = _ := hcounts.reader
  omega

end Delivered

/-! ## The four functions are interchangeable -/

/-- **The four read functions are interchangeable.** For every sequence of events with at most one
FIN at its end, arriving at any times, and every sequence of calls of the four functions with
buffers that are not empty: the bytes that the calls return are the first bytes of the events, so
that they are the same for any other mix of calls that returns as many; the end of the stream is
reported only when all bytes of all events were returned, and from then on by every call; and
`consumed` is the number of bytes returned, up to the largest value of the counter.

A session never comes near that value. Its reads are calls of these functions (`reader_of_poll`),
and in every state of every run `consumed` is the number of bytes that the reader has returned. -/
theorem read_apis_interchangeable :
    (∀ (l : Limits) (window : Nat) (x : ReadRun),
      Reachable (ReadRun.step l) anyStep (.start window) x →
      x.bytes = (eventBytes x.arrived).take x.bytes.length ∧
      (∀ (l' : Limits) (window' : Nat) (y : ReadRun),
        Reachable (ReadRun.step l') anyStep (.start window') y →
        x.arrived <+: y.arrived ∨ y.arrived <+: x.arrived → y.bytes.length = x.bytes.length →
        y.bytes = x.bytes) ∧
      (∀ (i : Nat) (r : ReadReport), x.reports[i]? = some r → r.isEnd = true →
        (x.reports.take i).flatMap ReadReport.bytes = eventBytes x.arrived ∧
        ∀ (j : Nat) (r' : ReadReport), i ≤ j → x.reports[j]? = some r' → r'.isEnd = true) ∧
      x.reader.consumed = min x.bytes.length (2 ^ 64 - 1)) ∧
    ∀ (cfg : Config) (s : Session) (id : StreamId), Reachable (Session.step cfg) anyStep {} s →
      (s.mem.recvs.cell id).reader.consumed = (s.mem.recvs.cell id).reader.returned.length := by
  refine ⟨?_, fun cfg s id hr => consumed_of_reachable hr id⟩
  intro l window x hr
  have hx := ReadRun.account_of_reachable hr
  refine ⟨hx.bytes_eq, ?_, ?_, hx.consumed⟩
  · intro l' window' y hr' hpre hlen
    have hy := ReadRun.account_of_reachable hr'
    exact hx.bytes_eq_of_isPrefix hy hpre hlen
  · intro i r hi hend
    exact ⟨hx.bytes_before_end hi hend, (hx.ended i r hi hend).2⟩

/-- All four functions read one stream with an empty event and a FIN that carries data: the end is
reported after five bytes, and again. -/
theorem read_apis_mixed :
    ∃ x : ReadRun, Reachable (ReadRun.step {}) anyStep (.start 10) x ∧
      x.reports = [.okSome [1, 2], .okSome [3], .okSome [], .filled [4], .okSome [5], .okNone,
        .filled []] ∧
      x.bytes = [1, 2, 3, 4, 5] ∧ eventBytes x.arrived = x.bytes ∧ x.reader.consumed = 5 := by
  obtain ⟨x, hr, hreports, harrived⟩ : ∃ x : ReadRun,
      Reachable (ReadRun.step {}) anyStep (.start 10) x ∧
      x.reports = [.okSome [1, 2], .okSome [3], .okSome [], .filled [4], .okSome [5], .okNone,
        .filled []] ∧
      x.arrived = [⟨[1, 2, 3], false⟩, ⟨[], false⟩, ⟨[4, 5], true⟩] :=
    Reachable.exists_of_run
      [.arrive ⟨[1, 2, 3], false⟩, .call .read 2, .call .readChunk 4, .arrive ⟨[], false⟩,
        .call .readBuf 1, .arrive ⟨[4, 5], true⟩, .call .pollRead 1, .close, .call .readChunk 3,
        .call .read 1, .call .pollRead 8] (by decide +kernel)
  obtain ⟨-, -, hend, hconsumed⟩ := read_apis_interchangeable.1 {} 10 x hr
  have hfive : x.bytes = [1, 2, 3, 4, 5] := by
    rw [ReadRun.bytes, hreports]
    rfl
  have hall := (hend 5 .okNone (by rw [hreports]; rfl) rfl).1
  refine ⟨x, hr, hreports, hfive, ?_, ?_⟩
  · rw [← hall, hreports, hfive]
    rfl
  · rw [hconsumed, hfive]
    rfl

end WebsockMux.Native
