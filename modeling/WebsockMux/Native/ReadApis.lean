import WebsockMux.Lib.Run
import WebsockMux.Native.Reading

/-!
# The four read functions

`read`, `read_buf`, `read_chunk` and `poll_read` of `RecvStream`, each as the source has it, with
what the caller gets (`ReadReport`). One poll of each is modelled; an `async` function that is
pending is polled again and has changed nothing. They share one specification (`Served`).

A reader with its event channel is a machine of its own (`ReadRun`): events arrive, the sender is
dropped, and the application calls any of the four functions. Whatever the mix of calls, the bytes
that come back are the first bytes of the events, and the end is reported when all are returned and
from then on (`ReadRun.account_of_reachable`).
-/

set_option autoImplicit false

namespace WebsockMux.Native

open WebsockMux.Lib WebsockMux.Proto

/-! ## The functions -/

/-- What a call comes back with: it is pending, it fails, it returns `Ok(None)` or `Ok(Some(..))`,
or `poll_read` is ready and has put these bytes into the buffer. -/
inductive ReadReport where
  | pending
  | error (msg : String)
  | okNone
  | okSome (data : List UInt8)
  | filled (data : List UInt8)
  deriving DecidableEq

namespace ReadReport

/-- The bytes that the caller gets. -/
def bytes : ReadReport → List UInt8
  | okSome data => data
  | filled data => data
  | _ => []

/-- The end of the stream: `None`, or a `poll_read` that puts nothing into the buffer. -/
def isEnd : ReadReport → Bool
  | okNone => true
  | filled [] => true
  | _ => false

end ReadReport

/-- A call: its report, the reader and the events of the channel after it, and the limit that
`on_bytes_consumed` publishes. -/
structure ReadCall where
  report : ReadReport
  reader : RecvStream
  events : List RecvEvent
  credit : Option Nat := none

namespace RecvStream

/-- `receiver.recv()`: `none` is pending. -/
def recv (open_ : Bool) : List RecvEvent → Option (Option RecvEvent × List RecvEvent)
  | e :: events => some (some e, events)
  | [] => if open_ then none else some (none, [])

/-- `if event.fin { self.finished = true }`. -/
def saw (r : RecvStream) (e : RecvEvent) : RecvStream :=
  if e.fin then { r with finished := true, finRead := true } else r

/-- `data` is returned, `rest` is kept, and `on_bytes_consumed` is called. -/
def consume (l : Limits) (r : RecvStream) (events : List RecvEvent) (report : ReadReport)
    (data rest : List UInt8) : ReadCall :=
  let r := { r with pending := rest, returned := r.returned ++ data }
  ⟨report, (r.onBytesConsumed l data.length).1, events, (r.onBytesConsumed l data.length).2⟩

/-- `read_chunk_internal`; `none` is pending. -/
def readChunkInternal (open_ : Bool) (r : RecvStream) (events : List RecvEvent) :
    Option (Option (List UInt8) × RecvStream × List RecvEvent) :=
  match recv open_ events with
  | none => none
  | some (some e, events) =>
      if e.data = [] ∧ e.fin then some (none, r.saw e, events)
      else some (some e.data, r.saw e, events)
  | some (none, events) => some (none, { r with finished := true }, events)

/-- The end of `read` and `read_buf`: the first bytes of `pending` are copied out. -/
def copyOut (l : Limits) (n : Nat) (r : RecvStream) (events : List RecvEvent) : ReadCall :=
  let amt := min n r.pending.length
  r.consume l events (.okSome (r.pending.take amt)) (r.pending.take amt) (r.pending.drop amt)

/-- The common text of `read` and `read_buf`. -/
def readInto (l : Limits) (open_ : Bool) (n : Nat) (r : RecvStream) (events : List RecvEvent) :
    ReadCall :=
  if n = 0 then ⟨.okSome [], r, events, none⟩
  else if r.pending = [] then
    if r.finished then ⟨.okNone, r, events, none⟩
    else
      match r.readChunkInternal open_ events with
      | none => ⟨.pending, r, events, none⟩
      | some (some chunk, r, events) => { r with pending := chunk }.copyOut l n events
      | some (none, r, events) => ⟨.okNone, r, events, none⟩
  else r.copyOut l n events

/-- `read`. -/
def read := readInto

/-- `read_buf`. -/
def readBuf := readInto

/-- `read_chunk`. -/
def readChunk (l : Limits) (open_ : Bool) (max : Nat) (r : RecvStream) (events : List RecvEvent) :
    ReadCall :=
  if max = 0 then ⟨.error "read_chunk max must be greater than zero", r, events, none⟩
  else if r.pending ≠ [] then
    let amount := min r.pending.length max
    r.consume l events (.okSome (r.pending.take amount)) (r.pending.take amount)
      (r.pending.drop amount)
  else if r.finished then ⟨.okNone, r, events, none⟩
  else
    match recv open_ events with
    | none => ⟨.pending, r, events, none⟩
    | some (some e, events) =>
        if e.data = [] ∧ e.fin then ⟨.okNone, r.saw e, events, none⟩
        else if max < e.data.length then
          (r.saw e).consume l events (.okSome (e.data.take max)) (e.data.take max) (e.data.drop max)
        else (r.saw e).consume l events (.okSome e.data) e.data r.pending
    | some (none, events) => ⟨.okNone, { r with finished := true }, events, none⟩

/-- The loop of `poll_read`. It goes on only after an empty event. -/
def pollReadLoop (l : Limits) (open_ : Bool) (n : Nat) (r : RecvStream) : List RecvEvent → ReadCall
  | [] =>
      if open_ then ⟨.pending, r, [], none⟩
      else ⟨.filled [], { r with finished := true }, [], none⟩
  | e :: events =>
      if e.data = [] then
        if e.fin then ⟨.filled [], r.saw e, events, none⟩
        else pollReadLoop l open_ n (r.saw e) events
      else
        let amt := min e.data.length n
        (r.saw e).consume l events (.filled (e.data.take amt)) (e.data.take amt)
          (if amt < e.data.length then e.data.drop amt else r.pending)

/-- `poll_read`. -/
def pollRead (l : Limits) (open_ : Bool) (n : Nat) (r : RecvStream) (events : List RecvEvent) :
    ReadCall :=
  if n = 0 then ⟨.filled [], r, events, none⟩
  else if r.pending ≠ [] then
    let amt := min r.pending.length n
    r.consume l events (.filled (r.pending.take amt)) (r.pending.take amt) (r.pending.drop amt)
  else if r.finished then ⟨.filled [], r, events, none⟩
  else r.pollReadLoop l open_ n events

/-- A call of a read function. -/
def call (l : Limits) (open_ : Bool) : ReadApi → Nat → RecvStream → List RecvEvent → ReadCall
  | .read => read l open_
  | .readBuf => readBuf l open_
  | .readChunk => readChunk l open_
  | .pollRead => pollRead l open_

/-! ## What a call does -/

variable {l : Limits} {open_ : Bool} {n : Nat} {r r₁ : RecvStream}
  {events left taken : List RecvEvent} {report : ReadReport} {data rest : List UInt8}

/-- **What a call with a buffer does**: `taken` are the events that it takes from the channel. -/
structure Served (open_ : Bool) (r : RecvStream) (events : List RecvEvent) (c : ReadCall)
    (taken : List RecvEvent) : Prop where
  events_eq : events = taken ++ c.events
  bytes : r.pending ++ eventBytes taken = c.report.bytes ++ c.reader.pending
  returned : c.reader.returned = r.returned ++ c.report.bytes
  consumed : c.reader.consumed = if c.report.bytes.length = 0 then r.consumed
    else Limits.saturatingAdd r.consumed c.report.bytes.length
  finished : c.reader.finished = true → r.finished = true ∨ taken.any RecvEvent.fin = true ∨
    (open_ = false ∧ c.events = [])
  finished_mono : r.finished = true → c.reader.finished = true
  taken_nil : r.finished = true → taken = []
  isEnd : c.report.isEnd = true → c.reader.finished = true ∧ c.reader.pending = []
  stays : r.finished = true → r.pending = [] → c.report.isEnd = true

/-- What `on_bytes_consumed` changes in the reader. -/
theorem onBytesConsumed_eq (l : Limits) (r : RecvStream) (n : Nat) :
    ∃ g, (r.onBytesConsumed l n).1 = { r with
      consumed := if n = 0 then r.consumed else Limits.saturatingAdd r.consumed n
      granted := g } := by
  unfold onBytesConsumed
  by_cases hn : n = 0
  · exact ⟨r.granted, by simp only [if_pos hn]⟩
  · simp only [if_neg hn]
    split_ifs <;> exact ⟨_, rfl⟩

/-- A call that returns bytes. `r₁` is the reader when the events are taken. -/
theorem Served.consume (hreport : report.bytes = data) (hend : report.isEnd = false)
    (hevents : events = taken ++ left) (hbytes : r.pending ++ eventBytes taken = data ++ rest)
    (hreturned : r₁.returned = r.returned) (hconsumed : r₁.consumed = r.consumed)
    (hfinished : r₁.finished = true → r.finished = true ∨ taken.any RecvEvent.fin = true)
    (hmono : r.finished = true → r₁.finished = true) (hnil : r.finished = true → taken = [])
    (hstays : r.finished = true → r.pending ≠ []) :
    Served open_ r events (r₁.consume l left report data rest) taken := by
  subst hreport
  obtain ⟨g, hg⟩ := onBytesConsumed_eq l
    { r₁ with pending := rest, returned := r₁.returned ++ report.bytes } report.bytes.length
  have hreader : (r₁.consume l left report report.bytes rest).reader = _ := hg
  refine ⟨hevents, ?_, ?_, ?_, ?_, ?_, hnil, ?_, fun h hp => absurd hp (hstays h)⟩
  · rw [hreader]
    exact hbytes
  · rw [hreader, ← hreturned]
    rfl
  · rw [hreader, ← hconsumed]
    rfl
  · rw [hreader]
    exact fun h => (hfinished h).imp_right .inl
  · rw [hreader]
    exact hmono
  · intro h
    exact absurd (h.symm.trans hend) Bool.noConfusion

/-- A call that takes no bytes from the reader. -/
theorem Served.empty (hreport : report.bytes = []) (hend : report.isEnd = true →
      r₁.finished = true) (hevents : events = taken ++ left) (hempty : eventBytes taken = [])
    (hpending : r.pending = []) (hr₁ : ∃ fin b, r₁ = { r with finished := fin, finRead := b })
    (hfinished : r₁.finished = true → r.finished = true ∨ taken.any RecvEvent.fin = true ∨
      (open_ = false ∧ left = []))
    (hmono : r.finished = true → r₁.finished = true) (hnil : r.finished = true → taken = [])
    (hstays : r.finished = true → report.isEnd = true) :
    Served open_ r events ⟨report, r₁, left, none⟩ taken := by
  obtain ⟨fin, b, rfl⟩ := hr₁
  refine ⟨hevents, ?_, ?_, ?_, hfinished, hmono, hnil, fun h => ⟨hend h, hpending⟩,
    fun h _ => hstays h⟩
  · show r.pending ++ eventBytes taken = report.bytes ++ r.pending
    rw [hreport, hempty, List.append_nil, List.nil_append]
  · show r.returned = r.returned ++ report.bytes
    rw [hreport, List.append_nil]
  · show r.consumed = _
    rw [hreport]
    rfl

theorem saw_eq (r : RecvStream) (e : RecvEvent) :
    r.saw e = { r with finished := r.finished || e.fin, finRead := r.finRead || e.fin } := by
  unfold saw
  cases hf : e.fin with
  | true => simp
  | false => simp

theorem eventBytes_cons (e : RecvEvent) (es : List RecvEvent) :
    eventBytes (e :: es) = e.data ++ eventBytes es := rfl

section Cases

variable {e : RecvEvent}

/-- The first bytes of `pending` are returned. -/
theorem served_pendingBytes (hp : r.pending ≠ []) (hreport : report.bytes = data)
    (hend : report.isEnd = false) (hsplit : r.pending = data ++ rest) :
    Served open_ r events (r.consume l events report data rest) [] :=
  .consume hreport hend rfl (by rw [eventBytes_nil, List.append_nil, hsplit]) rfl rfl .inl id
    (fun _ => rfl) fun _ => hp

/-- The end is reported again. -/
theorem served_finished (hp : r.pending = []) (hf : r.finished = true) (hreport : report.bytes = [])
    (hend : report.isEnd = true) : Served open_ r events ⟨report, r, events, none⟩ [] :=
  .empty hreport (fun _ => hf) rfl rfl hp ⟨_, _, rfl⟩ .inl id (fun _ => rfl) fun _ => hend

/-- The first bytes of an event are returned. -/
theorem served_event (hp : r.pending = []) (hf : ¬ r.finished = true)
    (hreport : report.bytes = data) (hend : report.isEnd = false) (hsplit : e.data = data ++ rest) :
    Served open_ r (e :: left) ((r.saw e).consume l left report data rest) [e] := by
  have hsaw : (r.saw e).finished = (r.finished || e.fin) := by rw [saw_eq]
  refine .consume hreport hend rfl ?_ (by rw [saw_eq]) (by rw [saw_eq]) ?_ (absurd · hf)
    (absurd · hf) (absurd · hf)
  · rw [hp, List.nil_append, eventBytes_singleton, hsplit]
  · intro h
    rw [hsaw] at h
    exact (Bool.or_eq_true_iff.1 h).imp_right fun h => by simpa using h

/-- The event is a FIN without data. -/
theorem served_fin (hp : r.pending = []) (hf : ¬ r.finished = true) (hdata : e.data = [])
    (hfin : e.fin = true) (hreport : report.bytes = []) :
    Served open_ r (e :: left) ⟨report, r.saw e, left, none⟩ [e] := by
  have hsaw : r.saw e = { r with finished := true, finRead := true } := if_pos hfin
  rw [hsaw]
  refine .empty hreport (fun _ => rfl) rfl ?_ hp ⟨_, _, rfl⟩ (fun _ => .inr (.inl ?_)) (absurd · hf)
    (absurd · hf) (absurd · hf)
  · rw [eventBytes_singleton, hdata]
  · simpa using hfin

/-- There is no event and no sender. -/
theorem served_closed (hp : r.pending = []) (hf : ¬ r.finished = true) (hopen : ¬ open_ = true)
    (hreport : report.bytes = []) :
    Served open_ r [] ⟨report, { r with finished := true }, [], none⟩ [] :=
  .empty hreport (fun _ => rfl) rfl rfl hp ⟨_, _, rfl⟩
    (fun _ => .inr (.inr ⟨Bool.eq_false_of_not_eq_true hopen, rfl⟩)) (absurd · hf) (absurd · hf)
    (absurd · hf)

/-- There is no event yet. -/
theorem served_pending (hp : r.pending = []) (hf : ¬ r.finished = true) :
    Served open_ r events ⟨.pending, r, events, none⟩ [] :=
  .empty rfl nofun rfl rfl hp ⟨_, _, rfl⟩ .inl (absurd · hf) (absurd · hf) (absurd · hf)

/-- An empty event is skipped. -/
theorem Served.skip {c : ReadCall} (hf : ¬ r.finished = true) (hdata : e.data = [])
    (h : Served open_ r events c taken) : Served open_ r (e :: events) c (e :: taken) where
  events_eq := by rw [h.events_eq, List.cons_append]
  bytes := by rw [eventBytes_cons, hdata, List.nil_append, h.bytes]
  returned := h.returned
  consumed := h.consumed
  finished hfin := (h.finished hfin).imp_right fun h => h.imp_left fun h => by simp [h]
  finished_mono := (absurd · hf)
  taken_nil := (absurd · hf)
  isEnd := h.isEnd
  stays := (absurd · hf)

end Cases

theorem filled_take_isEnd (hd : data ≠ []) (hn : 0 < n) :
    (ReadReport.filled (data.take (min data.length n))).isEnd = false := by
  obtain ⟨b, bs, rfl⟩ := List.exists_cons_of_ne_nil hd
  obtain ⟨k, hk⟩ : ∃ k, min (b :: bs).length n = k + 1 :=
    ⟨min (b :: bs).length n - 1, by simp only [List.length_cons]; omega⟩
  rw [hk]
  rfl

/-- `read` and `read_buf`. -/
theorem served_readInto (hn : 0 < n) :
    ∃ taken, Served open_ r events (r.readInto l open_ n events) taken := by
  unfold readInto
  rw [if_neg (by omega)]
  by_cases hp : r.pending = []
  · rw [if_pos hp]
    by_cases hf : r.finished = true
    · rw [if_pos hf]
      exact ⟨[], served_finished hp hf rfl rfl⟩
    · rw [if_neg hf]
      cases events with
      | nil =>
          by_cases hopen : open_ = true
          · simp only [readChunkInternal, recv, if_pos hopen]
            exact ⟨[], served_pending hp hf⟩
          · simp only [readChunkInternal, recv, if_neg hopen]
            exact ⟨[], served_closed hp hf hopen rfl⟩
      | cons e left =>
          by_cases hfin : e.data = [] ∧ e.fin = true
          · simp only [readChunkInternal, recv, if_pos hfin]
            exact ⟨[e], served_fin hp hf hfin.1 hfin.2 rfl⟩
          · simp only [readChunkInternal, recv, if_neg hfin]
            exact ⟨[e], served_event hp hf rfl rfl (List.take_append_drop _ e.data).symm⟩
  · rw [if_neg hp]
    exact ⟨[], served_pendingBytes hp rfl rfl (List.take_append_drop _ r.pending).symm⟩

/-- `read_chunk`. -/
theorem served_readChunk (hn : 0 < n) :
    ∃ taken, Served open_ r events (r.readChunk l open_ n events) taken := by
  unfold readChunk
  rw [if_neg (by omega)]
  by_cases hp : r.pending = []
  · rw [if_neg (not_not.2 hp)]
    by_cases hf : r.finished = true
    · rw [if_pos hf]
      exact ⟨[], served_finished hp hf rfl rfl⟩
    · rw [if_neg hf]
      cases events with
      | nil =>
          by_cases hopen : open_ = true
          · simp only [recv, if_pos hopen]
            exact ⟨[], served_pending hp hf⟩
          · simp only [recv, if_neg hopen]
            exact ⟨[], served_closed hp hf hopen rfl⟩
      | cons e left =>
          simp only [recv]
          split_ifs with hfin hlen
          · exact ⟨[e], served_fin hp hf hfin.1 hfin.2 rfl⟩
          · exact ⟨[e], served_event hp hf rfl rfl (List.take_append_drop _ e.data).symm⟩
          · exact ⟨[e], served_event hp hf rfl rfl (by rw [hp, List.append_nil])⟩
  · rw [if_pos hp]
    exact ⟨[], served_pendingBytes hp rfl rfl (List.take_append_drop _ r.pending).symm⟩

/-- The loop of `poll_read`, by induction on the events in the channel. -/
theorem served_pollReadLoop (hn : 0 < n) (hp : r.pending = []) (hf : ¬ r.finished = true) :
    ∃ taken, Served open_ r events (r.pollReadLoop l open_ n events) taken := by
  induction events with
  | nil =>
      unfold pollReadLoop
      split_ifs with hopen
      · exact ⟨[], served_pending hp hf⟩
      · exact ⟨[], served_closed hp hf hopen rfl⟩
  | cons e left ih =>
      unfold pollReadLoop
      by_cases hdata : e.data = []
      · rw [if_pos hdata]
        split_ifs with hfin
        · exact ⟨[e], served_fin hp hf hdata hfin rfl⟩
        · have hsaw : r.saw e = r := if_neg hfin
          rw [hsaw]
          obtain ⟨taken, h⟩ := ih
          exact ⟨e :: taken, h.skip hf hdata⟩
      · rw [if_neg hdata]
        refine ⟨[e], served_event hp hf rfl (filled_take_isEnd hdata hn) ?_⟩
        split_ifs with hlen
        · exact (List.take_append_drop _ e.data).symm
        · rw [hp, List.append_nil, List.take_of_length_le (Nat.le_of_not_lt hlen)]

/-- `poll_read`. -/
theorem served_pollRead (hn : 0 < n) :
    ∃ taken, Served open_ r events (r.pollRead l open_ n events) taken := by
  unfold pollRead
  rw [if_neg (by omega)]
  split_ifs with hp hf
  · have hsplit := (List.take_append_drop (min r.pending.length n) r.pending).symm
    exact ⟨[], served_pendingBytes hp rfl (filled_take_isEnd hp hn) hsplit⟩
  · exact ⟨[], served_finished (not_not.1 hp) hf rfl rfl⟩
  · exact served_pollReadLoop hn (not_not.1 hp) hf

/-- **The four read functions share one specification.** -/
theorem served_call (api : ReadApi) (hn : 0 < n) :
    ∃ taken, Served open_ r events (call l open_ api n r events) taken := by
  cases api with
  | read => exact served_readInto hn
  | readBuf => exact served_readInto hn
  | readChunk => exact served_readChunk hn
  | pollRead => exact served_pollRead hn

end RecvStream

/-! ## Any mix of calls -/

/-- A reader with its event channel. Two fields are a history: the events that have arrived, and the
reports of the calls. -/
structure ReadRun where
  reader : RecvStream
  events : List RecvEvent := []
  open_ : Bool := true
  arrived : List RecvEvent := []
  reports : List ReadReport := []

/-- What can happen to a reader: an event arrives, the last sender is dropped, a read function is
called with a buffer of `n` bytes. -/
inductive ReadAction where
  | arrive (e : RecvEvent)
  | close
  | call (api : ReadApi) (n : Nat)

namespace ReadRun

variable {l : Limits} {window : Nat} {x x' : ReadRun} {a : ReadAction}

/-- A fresh reader, with `window` as receive limit. -/
def start (window : Nat) : ReadRun := { reader := { granted := window, receiverOpen := true } }

/-- The bytes that the calls have returned. -/
def bytes (x : ReadRun) : List UInt8 := x.reports.flatMap ReadReport.bytes

/-- One action. Nothing arrives behind a FIN, and a buffer is not empty. -/
def step (l : Limits) (x : ReadRun) : ReadAction → Option ReadRun
  | .arrive e =>
      if x.open_ = true ∧ x.arrived.any RecvEvent.fin = false then
        some { x with events := x.events ++ [e], arrived := x.arrived ++ [e] }
      else none
  | .close => some { x with open_ := false }
  | .call api n =>
      if 0 < n then
        let c := RecvStream.call l x.open_ api n x.reader x.events
        some { x with reader := c.reader, events := c.events, reports := x.reports ++ [c.report] }
      else none

/-- **The account of a reader**: no byte is lost, duplicated or reordered; the reader is finished
only when no event is left and none can come; and once the end is reported, it is reported by every
call. -/
structure Account (x : ReadRun) : Prop where
  bytes : x.bytes ++ x.reader.pending ++ eventBytes x.events = eventBytes x.arrived
  split : ∃ taken, x.arrived = taken ++ x.events
  fin_last : x.arrived.dropLast.any RecvEvent.fin = false
  finished : x.reader.finished = true →
    x.events = [] ∧ (x.open_ = false ∨ x.arrived.any RecvEvent.fin = true)
  consumed : x.reader.consumed = min x.bytes.length (2 ^ 64 - 1)
  ended : ∀ (i : Nat) (r : ReadReport), x.reports[i]? = some r → r.isEnd = true →
    (x.reader.finished = true ∧ x.reader.pending = []) ∧
      ∀ (j : Nat) (r' : ReadReport), i ≤ j → x.reports[j]? = some r' → r'.isEnd = true

theorem Account.start (window : Nat) : Account (.start window) where
  bytes := rfl
  split := ⟨[], rfl⟩
  fin_last := rfl
  finished := nofun
  consumed := rfl
  ended := nofun

/-- An event arrives. The reader is not finished then. -/
theorem Account.arrive (h : Account x) (e : RecvEvent) (hopen : x.open_ = true)
    (hfin : x.arrived.any RecvEvent.fin = false) :
    Account { x with events := x.events ++ [e], arrived := x.arrived ++ [e] } := by
  refine { h with bytes := ?_, split := ?_, fin_last := ?_, finished := ?_ }
  · show x.bytes ++ x.reader.pending ++ eventBytes (x.events ++ [e]) = _
    rw [eventBytes_append, ← List.append_assoc, h.bytes, ← eventBytes_append]
  · obtain ⟨taken, ht⟩ := h.split
    exact ⟨taken, by rw [ht, List.append_assoc]⟩
  · rw [List.dropLast_concat]
    exact hfin
  · intro hf
    obtain ⟨-, hc | hc⟩ := h.finished hf
    · rw [hopen] at hc
      cases hc
    · rw [hfin] at hc
      cases hc

/-- Where a FIN was taken, no event is left: it is the last that has arrived. -/
theorem Account.events_nil_of_fin {taken left : List RecvEvent} (h : Account x)
    (hev : x.events = taken ++ left) (hfin : taken.any RecvEvent.fin = true) :
    left = [] ∧ x.arrived.any RecvEvent.fin = true := by
  obtain ⟨before, hb⟩ := h.split
  have harr : x.arrived = before ++ taken ++ left := by rw [hb, hev, List.append_assoc]
  constructor
  · by_contra hne
    have hlast := h.fin_last
    rw [harr, List.dropLast_append_of_ne_nil hne, List.any_append, List.any_append, hfin] at hlast
    simp at hlast
  · rw [harr, List.any_append, List.any_append, hfin]
    simp

/-- The count of the bytes with those of one more call. -/
theorem consumed_add {c k n : Nat} (hc : c = min n (2 ^ 64 - 1)) :
    (if k = 0 then c else Limits.saturatingAdd c k) = min (n + k) (2 ^ 64 - 1) := by
  unfold Limits.saturatingAdd
  split_ifs with hk <;> omega

/-- **A call keeps the account.** -/
theorem Account.call (h : Account x) {c : ReadCall} {taken : List RecvEvent}
    (hc : RecvStream.Served x.open_ x.reader x.events c taken) :
    Account
      { x with reader := c.reader, events := c.events, reports := x.reports ++ [c.report] } := by
  have hbytes : ReadRun.bytes { x with
      reader := c.reader, events := c.events, reports := x.reports ++ [c.report] } =
      x.bytes ++ c.report.bytes := by
    simp [ReadRun.bytes]
  refine ⟨?_, ?_, h.fin_last, ?_, ?_, ?_⟩
  · rw [hbytes]
    calc x.bytes ++ c.report.bytes ++ c.reader.pending ++ eventBytes c.events
        = x.bytes ++ (c.report.bytes ++ c.reader.pending) ++ eventBytes c.events := by
          simp only [List.append_assoc]
      _ = x.bytes ++ (x.reader.pending ++ eventBytes taken) ++ eventBytes c.events := by
          rw [hc.bytes]
      _ = x.bytes ++ x.reader.pending ++ eventBytes x.events := by
          rw [hc.events_eq, eventBytes_append]
          simp only [List.append_assoc]
      _ = eventBytes x.arrived := h.bytes
  · obtain ⟨before, hb⟩ := h.split
    exact ⟨before ++ taken, by rw [hb, hc.events_eq, List.append_assoc]⟩
  · intro hf
    rcases hc.finished hf with hf | hfin | ⟨hopen, hnil⟩
    · obtain ⟨hnil, hend⟩ := h.finished hf
      have hev := hc.events_eq
      rw [hc.taken_nil hf, List.nil_append] at hev
      exact ⟨hev ▸ hnil, hend⟩
    · obtain ⟨hnil, hany⟩ := h.events_nil_of_fin hc.events_eq hfin
      exact ⟨hnil, .inr hany⟩
    · exact ⟨hnil, .inl hopen⟩
  · rw [hbytes, List.length_append]
    exact hc.consumed.trans (consumed_add h.consumed)
  · intro i r hi hend
    rcases Nat.lt_or_ge i x.reports.length with hlt | hge
    · -- the end was reported before: the reader keeps reporting it
      have hi' : x.reports[i]? = some r := by rwa [List.getElem?_append_left hlt] at hi
      obtain ⟨⟨hf, hp⟩, hlater⟩ := h.ended i r hi' hend
      have hnow := hc.stays hf hp
      refine ⟨hc.isEnd hnow, fun j r' hij hj => ?_⟩
      rcases Nat.lt_or_ge j x.reports.length with hjlt | hjge
      · exact hlater j r' hij (by rwa [List.getElem?_append_left hjlt] at hj)
      · rw [List.getElem?_append_right hjge] at hj
        cases List.mem_singleton.1 (List.mem_of_getElem? hj)
        exact hnow
    · rw [List.getElem?_append_right hge] at hi
      cases List.mem_singleton.1 (List.mem_of_getElem? hi)
      refine ⟨hc.isEnd hend, fun j r' hij hj => ?_⟩
      rw [List.getElem?_append_right (hge.trans hij)] at hj
      cases List.mem_singleton.1 (List.mem_of_getElem? hj)
      exact hend

/-- **The account in every run.** -/
theorem account_of_reachable (hr : Reachable (step l) anyStep (.start window) x) : Account x := by
  refine hr.invariant (Account.start window) ?_
  intro x a x' _ h _ hs
  cases a with
  | arrive e =>
      simp only [step] at hs
      split_ifs at hs with hok
      cases hs
      exact h.arrive e hok.1 hok.2
  | close =>
      cases hs
      exact { h with finished := fun hf => ⟨(h.finished hf).1, .inl rfl⟩ }
  | call api n =>
      simp only [step] at hs
      split_ifs at hs with hn
      cases hs
      obtain ⟨taken, hc⟩ := RecvStream.served_call api hn
      exact h.call hc

/-- The bytes that the calls have returned are the first bytes of the events. -/
theorem Account.bytes_eq (h : Account x) :
    x.bytes = (eventBytes x.arrived).take x.bytes.length := by
  rw [← h.bytes, List.append_assoc, List.take_left]

/-- Two readers of one sequence of events, of which more may have arrived at one of them, that have
returned the same number of bytes. -/
theorem Account.bytes_eq_of_isPrefix {y : ReadRun} (hx : Account x) (hy : Account y)
    (hpre : x.arrived <+: y.arrived ∨ y.arrived <+: x.arrived)
    (hlen : y.bytes.length = x.bytes.length) : y.bytes = x.bytes := by
  have hmono : ∀ {as bs : List RecvEvent}, as <+: bs → eventBytes as <+: eventBytes bs := by
    rintro as _ ⟨cs, rfl⟩
    exact ⟨eventBytes cs, (eventBytes_append as cs).symm⟩
  have hx' : x.bytes <+: eventBytes x.arrived := ⟨_, by rw [← List.append_assoc]; exact hx.bytes⟩
  have hy' : y.bytes <+: eventBytes y.arrived := ⟨_, by rw [← List.append_assoc]; exact hy.bytes⟩
  rcases hpre with hpre | hpre
  · exact List.IsPrefix.eq_of_length
      (List.prefix_of_prefix_length_le hy' (hx'.trans (hmono hpre)) hlen.le) hlen
  · exact List.IsPrefix.eq_of_length
      (List.prefix_of_prefix_length_le (hy'.trans (hmono hpre)) hx' hlen.le) hlen

/-- When the end is reported, the calls before have returned everything. -/
theorem Account.bytes_before_end (h : Account x) {i : Nat} {r : ReadReport}
    (hi : x.reports[i]? = some r) (hend : r.isEnd = true) :
    (x.reports.take i).flatMap ReadReport.bytes = eventBytes x.arrived := by
  obtain ⟨⟨hf, hp⟩, hlater⟩ := h.ended i r hi hend
  -- the reports from the end on have no bytes
  have hnone : ∀ r ∈ x.reports.drop i, r.bytes = [] := by
    intro r hr
    obtain ⟨k, hk⟩ := List.getElem?_of_mem hr
    rw [List.getElem?_drop] at hk
    have := hlater (i + k) r (Nat.le_add_right _ _) hk
    unfold ReadReport.isEnd at this
    split at this
    · rfl
    · rfl
    · cases this
  have hsplit : x.bytes = (x.reports.take i).flatMap ReadReport.bytes := by
    unfold ReadRun.bytes
    conv_lhs => rw [← List.take_append_drop i x.reports]
    rw [List.flatMap_append, List.flatMap_eq_nil_iff.2 hnone, List.append_nil]
  have hbytes := h.bytes
  rw [hp, (h.finished hf).1, eventBytes_nil, List.append_nil, List.append_nil] at hbytes
  rw [← hsplit, hbytes]

end ReadRun

end WebsockMux.Native
