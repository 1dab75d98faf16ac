import WebsockMux.Native.Outcome

/-!
# Writing in chunks

`write_buf` and `poll_write` from the call to the return. A write in progress is waiting for the
guard, asks for credit (`Task.Asks`), holds a reservation (`Task.Sends`), or has decided what it
returns and releases what it holds (`WritePhase`). A phase carries the bytes that the write has put
into the queue so far and the number of bytes it has reserved beyond them, and each step of the
operation moves both (`WriteEffect`). The record of the operation follows them (`Ledger`): while the
guard is held, `sent_data` is its value at the start plus the bytes in the queue plus the
reservation.
-/

set_option autoImplicit false

namespace WebsockMux.Native

open WebsockMux.Lib WebsockMux.Proto

variable {cfg : Config} {m : Memory} {w : Writer} {t t' : Task} {a : Access}

/-! ## What a return value says about the data -/

/-- The bytes `out` of a write of `w` that are in the queue when it returns. -/
def Outcome.Explains (w : Writer) (out : List UInt8) : Outcome → Prop
  | .ok => w.direct = true ∧ out = w.data
  | .wrote n => w.direct = false ∧ n ≤ w.data.length ∧ out = w.data.take n
  | .pending => w.direct = false ∧ out = []
  | .err => out <+: w.data ∧ (w.data ≠ [] → out ≠ w.data) ∧ (w.direct = false → out = [])

/-- A write has bytes left: `out` is in the queue, `rest` is not empty and the next chunk may have
at least one byte. `poll_write` has put nothing into the queue yet. -/
structure Writer.Left (cfg : Config) (w : Writer) (out rest : List UInt8) : Prop where
  split : out ++ rest = w.data
  wanted : ({ w with data := rest } : Writer).wanted cfg ≠ 0
  first : w.direct = false → out = []

/-- Nothing but a proper prefix of the data is in the queue. -/
theorem explains_err {out rest : List UInt8} (hs : out ++ rest = w.data) (hne : rest ≠ [])
    (hf : w.direct = false → out = []) : Outcome.err.Explains w out := by
  refine ⟨⟨rest, hs⟩, fun _ h => hne ?_, hf⟩
  rw [← h] at hs
  exact List.append_right_eq_self.1 hs

theorem Writer.Left.ne_nil {out rest : List UInt8} (h : w.Left cfg out rest) : rest ≠ [] := by
  rintro rfl
  have := h.wanted
  simp [Writer.wanted] at this

theorem Writer.Left.err {out rest : List UInt8} (h : w.Left cfg out rest) :
    Outcome.err.Explains w out :=
  explains_err h.split h.ne_nil h.first

theorem Writer.Left.pending {out rest : List UInt8} (h : w.Left cfg out rest)
    (hd : w.direct = false) : Outcome.pending.Explains w out :=
  ⟨hd, h.first hd⟩

/-- The largest payload of a chunk. -/
def Config.maxChunk (cfg : Config) : Nat := min maxWriteChunk cfg.limits.maxStreamDataPerFrame

theorem Writer.wanted_le_maxChunk (w : Writer) : w.wanted cfg ≤ cfg.maxChunk := by
  unfold Writer.wanted Config.maxChunk
  omega

/-! ## The phases of a write -/

/-- The control points at which a writer asks for credit. -/
inductive Task.Asks (w : Writer) : Task → Prop where
  | reserveOpen (fs : List Flag) : Asks w (.anyOf fs (.reserveOpen w))
  | noCredit (fs : List Flag) : Asks w (.anyOf fs (.noCredit w))
  | loadSent : Asks w (.loadSent w)
  | loadMax (sent : Nat) : Asks w (.loadMax w sent)
  | casSent {sent max : Nat} (h : sent < max) : Asks w (.casSent w sent max)
  | waitCredit (hd : w.direct = true) : Asks w (.waitCredit w)

/-- The control points at which a writer holds a reservation. -/
inductive Task.Sends (c : Chunk) : Task → Prop where
  | check (fs : List Flag) (hd : c.direct = true) : Sends c (.anyOf fs (.send (.write c)))
  | reserve (hd : c.direct = true) : Sends c (.reserve (.write c))
  | publish (hd : c.direct = true) : Sends c (.publish (.write c))
  | pollReserve (hd : c.direct = false) : Sends c (.pollReserve c)
  | pollPublish (hd : c.direct = false) : Sends c (.pollPublish c)

/-- Before the guard is taken, while it is held, and after it is given back. -/
inductive Stage where
  | waiting
  | holding
  | returned

/-- **Where a write is**: its control point, its stage, what it will return once that is decided,
the bytes it has put into the queue, and the bytes it has reserved beyond them. -/
inductive WritePhase (cfg : Config) (w : Writer) :
    Task → Stage → Option Outcome → List UInt8 → Nat → Prop where
  | select : WritePhase cfg w (.selectApi (.write w)) .waiting none [] 0
  | swap : WritePhase cfg w (.swapOperation (.write w)) .waiting none [] 0
  | refused : WritePhase cfg w .done .waiting (some .err) [] 0
  | start (fs : List Flag) (hw : w.direct = false → w.data ≠ []) :
      WritePhase cfg w (.anyOf fs (.writeStart w)) .holding none [] 0
  | asks {t : Task} {out rest : List UInt8} (hl : w.Left cfg out rest)
      (ht : t.Asks { w with data := rest }) : WritePhase cfg w t .holding none out 0
  | sends {t : Task} {out rest : List UInt8} {c : Chunk} (hl : w.Left cfg out rest)
      (hc : c.toWriter = { w with data := rest }) (hpos : 0 < c.grant)
      (hle : c.grant ≤ cfg.maxChunk) (ht : t.Sends c) : WritePhase cfg w t .holding none out c.grant
  | release {v : Outcome} {out : List UInt8} (n : Nat) (abort : Option Nat)
      (hv : v.Explains w out) :
      WritePhase cfg w (.release w.id n abort) .holding (some v) out n
  | abort {v : Outcome} {out : List UInt8} (h : Nat) (hv : v.Explains w out) :
      WritePhase cfg w (.abortSend h w.id) .holding (some v) out 0
  | ending {v : Outcome} {out : List UInt8} (hv : v.Explains w out) :
      WritePhase cfg w (.endOperation w.id) .holding (some v) out 0
  | returned {v : Outcome} {out : List UInt8} (hv : v.Explains w out) :
      WritePhase cfg w .done .returned (some v) out 0

/-- An access that neither publishes a frame nor changes what a write of `id` counts. -/
structure Access.Idle (id : StreamId) (a : Access) : Prop where
  frame : a.frame? = none
  sent : ∀ m : Memory,
    ((m.apply a).sends.cell id).sentData = (m.sends.cell id).sentData
  operation : ∀ m : Memory,
    ((m.apply a).sends.cell id).operation = (m.sends.cell id).operation

/-- **What a step of a write does**: nothing that counts, or it takes or gives back the guard,
reserves or releases credit, or puts a chunk into the queue. -/
inductive WriteEffect (cfg : Config) (id : StreamId) (m : Memory) :
    Access → Stage → Stage → List UInt8 → List UInt8 → Nat → Nat → Prop where
  | idle {a : Access} {g : Stage} {out : List UInt8} {n : Nat} (ha : a.Idle id) :
      WriteEffect cfg id m a g g out out n n
  | take (h : (m.sends.cell id).operation = false) :
      WriteEffect cfg id m (.send (.setOperation id true)) .waiting .holding [] [] 0 0
  | give {out : List UInt8} :
      WriteEffect cfg id m (.send (.setOperation id false)) .holding .returned out out 0 0
  | reserve {out : List UInt8} (n : Nat) :
      WriteEffect cfg id m (.send (.reserve id n)) .holding .holding out out 0 n
  | release {out : List UInt8} (n : Nat) :
      WriteEffect cfg id m (.send (.release id n)) .holding .holding out out n 0
  | put {a : Access} {out data : List UInt8} (ha : a.frame? = some (.stream id data false))
      (hs : ∀ m : Memory, (m.apply a).sends = m.sends) (hne : data ≠ [])
      (hle : data.length ≤ cfg.maxChunk) :
      WriteEffect cfg id m a .holding .holding out (out ++ data) data.length 0

theorem Access.Idle.of_sends {id : StreamId} (hf : a.frame? = none)
    (hs : ∀ m : Memory, (m.apply a).sends = m.sends) : a.Idle id :=
  ⟨hf, fun m => by rw [hs m], fun m => by rw [hs m]⟩

theorem Access.idle_selectApi (id i : StreamId) (mode : Nat) :
    (Access.send (.selectApi i mode)).Idle id := by
  refine ⟨rfl, fun m => ?_, fun m => ?_⟩
  · by_cases h : id = i
    · subst h
      simp [Memory.apply, SendTable.apply, SendTable.modify]
    · simp [Memory.apply, SendTable.apply, SendTable.modify, h]
  · by_cases h : id = i
    · subst h
      simp [Memory.apply, SendTable.apply, SendTable.modify]
    · simp [Memory.apply, SendTable.apply, SendTable.modify, h]

/-! ## The steps of a write -/

/-- A step of a check of flags: it goes on with the result, or loads the next flag. -/
theorem anyOf_next {fs : List Flag} {c : Check}
    (hn : (Task.anyOf fs c).next cfg m = some (a, t')) :
    a = .skip ∧
      ((∃ b, t' = c.resume cfg b ∧ (Task.anyOf fs c).outcome cfg m = c.outcome cfg b) ∨
        ∃ fs', t' = .anyOf fs' c ∧ (Task.anyOf fs c).outcome cfg m = none) := by
  cases fs with
  | nil =>
      cases hn
      exact ⟨rfl, .inl ⟨false, rfl, rfl⟩⟩
  | cons f fs =>
      simp only [Task.next] at hn
      simp only [Task.outcome]
      split_ifs at hn ⊢
      · cases hn
        exact ⟨rfl, .inl ⟨true, rfl, rfl⟩⟩
      · cases hn
        exact ⟨rfl, .inl ⟨false, rfl, rfl⟩⟩
      · cases hn
        exact ⟨rfl, .inr ⟨fs, rfl, rfl⟩⟩

/-- What a writer that asks for credit does next: it goes on asking, it gives up, or it gets a
reservation. -/
inductive Asked (cfg : Config) (w : Writer) : Access → Option Outcome → Task → Prop where
  | asks {t' : Task} (ht : t'.Asks w) : Asked cfg w .skip none t'
  | fails : Asked cfg w .skip (some .err) (.endOperation w.id)
  | waits (hd : w.direct = false) : Asked cfg w .skip (some .pending) (.endOperation w.id)
  | granted {c : Chunk} {t' : Task} (hc : c.toWriter = w) (hpos : 0 < c.grant)
      (hle : c.grant ≤ cfg.maxChunk) (ht : t'.Sends c) :
      Asked cfg w (.send (.reserve w.id c.grant)) none t'

theorem asks_outOfCredit (w : Writer) : (outOfCredit w).Asks w := by
  unfold outOfCredit
  split_ifs
  · exact .noCredit _
  · exact .noCredit _

theorem sends_granted (c : Chunk) : (granted c).Sends c := by
  unfold granted
  split_ifs with hd
  · exact .check _ hd
  · exact .pollReserve (by simpa using hd)

theorem Task.Asks.next (ht : t.Asks w) (hw : w.wanted cfg ≠ 0)
    (hn : t.next cfg m = some (a, t')) : Asked cfg w a (t.outcome cfg m) t' := by
  cases ht with
  | reserveOpen fs =>
      obtain ⟨rfl, ⟨b, rfl, ho⟩ | ⟨fs', rfl, ho⟩⟩ := anyOf_next hn
      · rw [ho]
        cases b with
        | true => exact .asks (asks_outOfCredit w)
        | false => exact .asks .loadSent
      · rw [ho]
        exact .asks (.reserveOpen fs')
  | noCredit fs =>
      obtain ⟨rfl, ⟨b, rfl, ho⟩ | ⟨fs', rfl, ho⟩⟩ := anyOf_next hn
      · rw [ho]
        cases b with
        | true => exact .fails
        | false =>
            simp only [Check.resume, Check.outcome]
            split_ifs with hd
            · exact .asks (.waitCredit hd)
            · exact .waits (by simpa using hd)
      · rw [ho]
        exact .asks (.noCredit fs')
  | loadSent =>
      cases hn
      exact .asks (.loadMax _)
  | loadMax sent =>
      simp only [Task.next] at hn
      split_ifs at hn with hle
      · cases hn
        exact .asks (asks_outOfCredit w)
      · cases hn
        exact .asks (.casSent (by omega))
  | casSent hlt =>
      simp only [Task.next] at hn
      split_ifs at hn
      · cases hn
        refine .granted (c := w.chunk cfg _ _) rfl ?_ ?_ (sends_granted _)
        · -- the limit lies above `sent_data`, and at least one byte is wanted
          show 0 < min _ (w.wanted cfg)
          omega
        · exact (Nat.min_le_right _ _).trans w.wanted_le_maxChunk
      · cases hn
        exact .asks .loadSent
  | waitCredit hd =>
      cases hn
      exact .asks (.reserveOpen _)

/-- What a writer with a reservation does next: it goes on, it gives up, or it publishes. -/
inductive Sent (cfg : Config) (c : Chunk) : Access → Option Outcome → Task → Prop where
  | sends {a : Access} {t' : Task} (ha : a.Idle c.id) (ht : t'.Sends c) : Sent cfg c a none t'
  | fails {a : Access} (abort : Option Nat) (ha : a.Idle c.id) :
      Sent cfg c a (some .err) (.release c.id c.grant abort)
  | waits {a : Access} (hd : c.direct = false) (ha : a.Idle c.id) :
      Sent cfg c a (some .pending) (.release c.id c.grant none)
  | published (hd : c.direct = true) :
      Sent cfg c (.chan (.publish c.frame)) (c.rest.outcome cfg) (writeLoop cfg c.rest)
  | polled (hd : c.direct = false) :
      Sent cfg c (.handle (.sendData c.h c.frame)) (some (.wrote c.grant)) (.endOperation c.id)

theorem Task.Sends.next {c : Chunk} (ht : t.Sends c) (hn : t.next cfg m = some (a, t')) :
    Sent cfg c a (t.outcome cfg m) t' := by
  have skip : Access.skip.Idle c.id := .of_sends rfl fun _ => rfl
  cases ht with
  | check fs hd =>
      obtain ⟨rfl, ⟨b, rfl, ho⟩ | ⟨fs', rfl, ho⟩⟩ := anyOf_next hn
      · rw [ho]
        cases b with
        | true => exact .fails none skip
        | false => exact .sends skip (.reserve hd)
      · rw [ho]
        exact .sends skip (.check fs' hd)
  | reserve hd =>
      simp only [Task.next] at hn
      simp only [Task.outcome]
      split_ifs at hn ⊢
      · cases hn
        exact .fails none skip
      · cases hn
        exact .sends (.of_sends rfl fun _ => rfl) (.publish hd)
  | publish hd =>
      simp only [Task.next] at hn
      simp only [Task.outcome]
      split_ifs at hn with hp
      · cases hn
        rw [hp]
        exact .published hd
      · cases hn
        have hf : m.sends.mayPublish ((SendSite.write c).frame cfg) = false := by simpa using hp
        rw [hf]
        exact .fails none (.of_sends rfl fun _ => rfl)
  | pollReserve hd =>
      simp only [Task.next] at hn
      simp only [Task.outcome]
      cases hp : m.pollReserve cfg c.h with
      | ready =>
          rw [hp] at hn
          cases hn
          exact .sends skip (.pollPublish hd)
      | taken =>
          rw [hp] at hn
          cases hn
          exact .sends (.of_sends rfl fun _ => rfl) (.pollPublish hd)
      | pending =>
          rw [hp] at hn
          cases hn
          exact .waits hd (.of_sends rfl fun _ => rfl)
      | closed =>
          rw [hp] at hn
          cases hn
          exact .fails none skip
  | pollPublish hd =>
      simp only [Task.next] at hn
      simp only [Task.outcome]
      split_ifs at hn ⊢
      · cases hn
        exact .polled hd
      · cases hn
        exact .fails (some c.h) skip

/-- The loop of `write_buf`, and the body of `poll_write`, after the bytes `out`. -/
theorem WritePhase.loop {out rest : List UInt8} (hs : out ++ rest = w.data)
    (hf : w.direct = false → out = []) (hr : w.direct = false → rest ≠ []) :
    WritePhase cfg w (writeLoop cfg { w with data := rest }) .holding
      (({ w with data := rest } : Writer).outcome cfg) out 0 := by
  unfold writeLoop Writer.outcome
  split_ifs with hnil hzero
  · -- the data is written; `poll_write` does not come here
    have hd : w.direct = true := by
      by_contra hd
      exact hr (by simpa using hd) hnil
    refine .ending ⟨hd, ?_⟩
    have hnil' : rest = [] := hnil
    rw [hnil', List.append_nil] at hs
    exact hs
  · exact .ending (explains_err hs hnil hf)
  · exact .asks ⟨hs, hzero, hf⟩ (.reserveOpen _)

/-- Behind the guard, `poll_write` of an empty buffer returns at once. -/
theorem WritePhase.body : WritePhase cfg w (SendCall.write w).body .holding
    (SendCall.write w).outcome [] 0 := by
  simp only [SendCall.body, SendCall.outcome]
  cases hd : w.direct with
  | true =>
      simp only [if_true, Bool.true_eq_false, false_and, if_false]
      exact .start _ fun h => by rw [hd] at h; cases h
  | false =>
      simp only [Bool.false_eq_true, if_false, true_and]
      split_ifs with he
      · exact .ending ⟨hd, Nat.zero_le _, rfl⟩
      · exact .start _ fun _ => he

/-- **A step of a write goes from phase to phase**, with the effect that the phases say. -/
theorem WritePhase.next {g : Stage} {r : Option Outcome} {out : List UInt8} {n : Nat}
    (hp : WritePhase cfg w t g r out n) (hn : t.next cfg m = some (a, t')) :
    ∃ g' out' n', WritePhase cfg w t' g' (r <|> t.outcome cfg m) out' n' ∧
      WriteEffect cfg w.id m a g g' out out' n n' := by
  have skip : Access.skip.Idle w.id := .of_sends rfl fun _ => rfl
  cases hp with
  | select =>
      simp only [Task.next] at hn
      simp only [Task.outcome]
      split_ifs at hn ⊢
      · cases hn
        exact ⟨_, _, _, .swap, .idle (Access.idle_selectApi _ _ _)⟩
      · cases hn
        exact ⟨_, _, _, .swap, .idle skip⟩
      · cases hn
        exact ⟨_, _, _, .refused, .idle skip⟩
  | swap =>
      simp only [Task.next] at hn
      simp only [Task.outcome]
      split_ifs at hn ⊢ with hop
      · cases hn
        exact ⟨_, _, _, .refused, .idle skip⟩
      · cases hn
        have htake : WriteEffect cfg w.id m (.send (.setOperation w.id true)) .waiting .holding
            [] [] 0 0 := .take (eq_false_of_ne_true hop)
        exact ⟨_, _, _, .body, htake⟩
  | refused => cases hn
  | start fs hw =>
      obtain ⟨rfl, ⟨b, rfl, ho⟩ | ⟨fs', rfl, ho⟩⟩ := anyOf_next hn
      · rw [ho]
        cases b with
        | true =>
            exact ⟨_, _, _, .ending ⟨⟨_, rfl⟩, fun h h' => h h'.symm, fun _ => rfl⟩, .idle skip⟩
        | false => exact ⟨_, _, _, .loop rfl (fun _ => rfl) hw, .idle skip⟩
      · rw [ho]
        exact ⟨_, _, _, .start fs' hw, .idle skip⟩
  | asks hl ht =>
      have h := ht.next hl.wanted hn
      generalize t.outcome cfg m = r at h ⊢
      cases h with
      | asks ht' => exact ⟨_, _, _, .asks hl ht', .idle skip⟩
      | fails => exact ⟨_, _, _, .ending hl.err, .idle skip⟩
      | waits hd => exact ⟨_, _, _, .ending (hl.pending hd), .idle skip⟩
      | granted hc hpos hle ht' => exact ⟨_, _, _, .sends hl hc hpos hle ht', .reserve _⟩
  | @sends _ _ rest c hl hc hpos hle ht =>
      have h := ht.next hn
      have hid : c.id = w.id := by rw [hc]
      have hdata : c.data = rest := by rw [hc]
      have hdirect : c.direct = w.direct := by rw [hc]
      -- the chunk that is published, and what it leaves
      have htake : c.frame = .stream w.id (rest.take c.grant) false := by
        rw [Chunk.frame, hid, hdata]
      have hlen : (rest.take c.grant).length = c.grant := by
        rw [List.length_take, ← hdata]
        exact Nat.min_eq_left c.grant_le
      have hne : rest.take c.grant ≠ [] := by
        intro h
        rw [h] at hlen
        exact hpos.ne hlen
      have hput : ∀ {b : Access}, b.frame? = some c.frame →
          (∀ m : Memory, (m.apply b).sends = m.sends) →
          WriteEffect cfg w.id m b .holding .holding out (out ++ rest.take c.grant) c.grant 0 := by
        intro b hb hs
        have h : WriteEffect cfg w.id m b .holding .holding out (out ++ rest.take c.grant)
            (rest.take c.grant).length 0 :=
          .put (hb.trans (congrArg some htake)) hs hne (hlen.le.trans hle)
        rwa [hlen] at h
      generalize t.outcome cfg m = r at h ⊢
      cases h with
      | sends ha ht' => exact ⟨_, _, _, .sends hl hc hpos hle ht', .idle (hid ▸ ha)⟩
      | fails abort ha =>
          rw [hid]
          exact ⟨_, _, _, .release _ abort hl.err, .idle (hid ▸ ha)⟩
      | waits hd ha =>
          rw [hid]
          exact ⟨_, _, _, .release _ none (hl.pending (hdirect ▸ hd)), .idle (hid ▸ ha)⟩
      | published hd =>
          have hrest : c.rest = { w with data := rest.drop c.grant } := by
            rw [Chunk.rest, hc]
          have hw : w.direct ≠ false := by
            rw [← hdirect, hd]
            exact Bool.noConfusion
          rw [hrest]
          refine ⟨_, _, _, .loop ?_ (fun h => absurd h hw) (fun h => absurd h hw),
            hput rfl fun _ => rfl⟩
          rw [List.append_assoc, List.take_append_drop]
          exact hl.split
      | polled hd =>
          have hd' : w.direct = false := hdirect ▸ hd
          have hout := hl.first hd'
          subst hout
          have hsplit : rest = w.data := hl.split
          rw [hid]
          refine ⟨_, _, _, .ending ⟨hd', ?_, ?_⟩, hput rfl fun _ => rfl⟩
          · rw [← hsplit, ← hdata]
            exact c.grant_le
          · rw [← hsplit]
            rfl
  | release n abort hv =>
      simp only [Task.next] at hn
      cases abort with
      | none =>
          cases hn
          exact ⟨_, _, _, .ending hv, .release n⟩
      | some h =>
          cases hn
          exact ⟨_, _, _, .abort h hv, .release n⟩
  | abort h hv =>
      cases hn
      exact ⟨_, _, _, .ending hv, .idle (.of_sends rfl fun _ => rfl)⟩
  | ending hv =>
      cases hn
      exact ⟨_, _, _, .returned hv, .give⟩
  | returned hv => cases hn

/-! ## The record of a write -/

section Record

variable {i : Nat} {id : StreamId} {x x' : OpWatch} {s : Session} {g g' : Stage}
  {out out' : List UInt8} {n n' : Nat}

/-- The frames of a write: chunks of the stream `id`, none of them empty, too long or a FIN, that
make up `out`. -/
def Chunks (cfg : Config) (id : StreamId) (fs : List Frame) (out : List UInt8) : Prop :=
  ∃ ds : List (List UInt8), fs = ds.map (fun d => .stream id d false) ∧ ds.flatten = out ∧
    ∀ d ∈ ds, d ≠ [] ∧ d.length ≤ cfg.maxChunk

theorem Chunks.nil : Chunks cfg id [] [] := ⟨[], rfl, rfl, fun _ h => by cases h⟩

theorem Chunks.put {fs : List Frame} {data : List UInt8} (h : Chunks cfg id fs out)
    (hne : data ≠ []) (hle : data.length ≤ cfg.maxChunk) :
    Chunks cfg id (fs ++ [.stream id data false]) (out ++ data) := by
  obtain ⟨ds, rfl, rfl, hds⟩ := h
  refine ⟨ds ++ [data], by simp, by simp, ?_⟩
  intro d hd
  rcases List.mem_append.1 hd with hd | hd
  · exact hds d hd
  · cases List.mem_singleton.1 hd
    exact ⟨hne, hle⟩

/-- **The account of a write** with the bytes `out` in the queue and `n` bytes reserved. -/
def Ledger (id : StreamId) (x : OpWatch) (out : List UInt8) (n : Nat) : Stage → Prop
  | .waiting => x.began = none ∧ x.ended = none ∧ x.grown = 0
  | .holding => ∃ b, x.began = some b ∧ x.ended = none ∧ x.grown = out.length + n ∧
      (x.session.mem.sends.cell id).sentData = b + out.length + n
  | .returned => ∃ b, x.began = some b ∧ x.ended = some (b + out.length) ∧ x.grown = out.length

theorem Chunks.step (h : Chunks cfg id x.enqueued out)
    (he : WriteEffect cfg id m a g g' out out' n n') :
    Chunks cfg id (x.enqueued ++ a.frame?.toList) out' := by
  cases he with
  | idle ha =>
      rw [ha.frame]
      simpa using h
  | put ha _ hne hle =>
      rw [ha]
      exact h.put hne hle
  | take => simpa [Access.frame?] using h
  | give => simpa [Access.frame?] using h
  | reserve => simpa [Access.frame?] using h
  | release => simpa [Access.frame?] using h

/-- A step that keeps the flag `operation` neither begins nor ends the operation. -/
theorem OpWatch.note_of_operation (cfg : Config) (i : Nat)
    (ho : (s.mem.sends.cell id).operation = (x.session.mem.sends.cell id).operation) :
    (x.note cfg i id s).began = x.began ∧ (x.note cfg i id s).ended = x.ended := by
  constructor
  · exact if_neg fun h => Bool.noConfusion (h.1.symm.trans (ho.symm.trans h.2))
  · exact if_neg fun h => Bool.noConfusion (h.1.symm.trans (ho.symm.trans h.2))

/-- **A step of the operation keeps its account.** -/
theorem Ledger.step (h : Ledger id x out n g)
    (he : WriteEffect cfg id x.session.mem a g g' out out' n n')
    (hs : s.mem = x.session.mem.apply a)
    (hop : g = .holding → (x.session.mem.sends.cell id).operation = true) :
    Ledger id (x.note cfg i id s) out' n' g' := by
  have hgrown : (x.note cfg i id s).grown =
      x.grown + (s.mem.sends.cell id).sentData - (x.session.mem.sends.cell id).sentData := rfl
  cases he with
  | idle ha =>
      have hsent : (s.mem.sends.cell id).sentData = (x.session.mem.sends.cell id).sentData := by
        rw [hs, ha.sent]
      have hoper : (s.mem.sends.cell id).operation = (x.session.mem.sends.cell id).operation := by
        rw [hs, ha.operation]
      obtain ⟨hb, he⟩ := OpWatch.note_of_operation cfg i hoper
      have hg : (x.note cfg i id s).grown = x.grown := by
        rw [hgrown, hsent]
        omega
      cases g with
      | waiting =>
          obtain ⟨h₁, h₂, h₃⟩ := h
          exact ⟨hb.trans h₁, he.trans h₂, hg.trans h₃⟩
      | holding =>
          obtain ⟨b, h₁, h₂, h₃, h₄⟩ := h
          exact ⟨b, hb.trans h₁, he.trans h₂, hg.trans h₃, hsent.trans h₄⟩
      | returned =>
          obtain ⟨b, h₁, h₂, h₃⟩ := h
          exact ⟨b, hb.trans h₁, he.trans h₂, hg.trans h₃⟩
  | take hfree =>
      obtain ⟨-, hend, hzero⟩ := h
      have hcell : s.mem.sends.cell id =
          { x.session.mem.sends.cell id with operation := true } := by
        rw [hs]
        simp [Memory.apply, SendTable.apply, SendTable.modify]
      refine ⟨(x.session.mem.sends.cell id).sentData, ?_, ?_, ?_, ?_⟩
      · show (if _ then _ else _) = _
        rw [hcell]
        exact if_pos ⟨hfree, rfl⟩
      · show (if _ then _ else _) = _
        rw [hcell]
        exact (if_neg (by simp)).trans hend
      · rw [hgrown, hcell, hzero]
        simp
      · show (s.mem.sends.cell id).sentData = _
        rw [hcell]
        rfl
  | give =>
      obtain ⟨b, hbeg, -, hg, hsent⟩ := h
      have hcell : s.mem.sends.cell id =
          { x.session.mem.sends.cell id with operation := false } := by
        rw [hs]
        simp [Memory.apply, SendTable.apply, SendTable.modify]
      refine ⟨b, ?_, ?_, ?_⟩
      · show (if _ then _ else _) = _
        rw [hcell]
        exact (if_neg (by simp)).trans hbeg
      · show (if _ then _ else _) = _
        rw [hcell, if_pos ⟨hop rfl, rfl⟩]
        exact congrArg some hsent
      · rw [hgrown, hcell, hg]
        simp
  | reserve =>
      obtain ⟨b, hbeg, hend, hg, hsent⟩ := h
      have hcell : s.mem.sends.cell id = { x.session.mem.sends.cell id with
          sentData := (x.session.mem.sends.cell id).sentData + n' } := by
        rw [hs]
        simp [Memory.apply, SendTable.apply, SendTable.modify]
      have hoper : (s.mem.sends.cell id).operation = (x.session.mem.sends.cell id).operation := by
        rw [hcell]
      obtain ⟨hb, he⟩ := OpWatch.note_of_operation cfg i hoper
      refine ⟨b, hb.trans hbeg, he.trans hend, ?_, ?_⟩
      · rw [hgrown, hcell, hg]
        push_cast
        omega
      · show (s.mem.sends.cell id).sentData = _
        rw [hcell]
        show _ + n' = _
        omega
  | release =>
      obtain ⟨b, hbeg, hend, hg, hsent⟩ := h
      have hcell : s.mem.sends.cell id = { x.session.mem.sends.cell id with
          sentData := (x.session.mem.sends.cell id).sentData - n } := by
        rw [hs]
        simp [Memory.apply, SendTable.apply, SendTable.modify, fetchSub_of_le (n := n)
          (a := (x.session.mem.sends.cell id).sentData) (by omega)]
      have hoper : (s.mem.sends.cell id).operation = (x.session.mem.sends.cell id).operation := by
        rw [hcell]
      obtain ⟨hb, he⟩ := OpWatch.note_of_operation cfg i hoper
      refine ⟨b, hb.trans hbeg, he.trans hend, ?_, ?_⟩
      · rw [hgrown, hcell, hg]
        push_cast [show n ≤ (x.session.mem.sends.cell id).sentData by omega]
        omega
      · show (s.mem.sends.cell id).sentData = _
        rw [hcell]
        show _ - n = _
        omega
  | put ha hkeep =>
      obtain ⟨b, hbeg, hend, hg, hsent⟩ := h
      have hcell : s.mem.sends.cell id = x.session.mem.sends.cell id := by
        rw [hs, hkeep]
      have hoper : (s.mem.sends.cell id).operation = (x.session.mem.sends.cell id).operation := by
        rw [hcell]
      obtain ⟨hb, he⟩ := OpWatch.note_of_operation cfg i hoper
      refine ⟨b, hb.trans hbeg, he.trans hend, ?_, ?_⟩
      · rw [hgrown, hcell, hg, List.length_append]
        push_cast
        omega
      · show (s.mem.sends.cell id).sentData = _
        rw [hcell, hsent, List.length_append]
        omega

end Record

/-! ## Writes in a session -/

section Writes

variable {i : Nat} {x x' : OpWatch} {l : Label} {g : Stage} {r : Option Outcome} {out : List UInt8}
  {n : Nat}

/-- A write has no deadline. -/
theorem WritePhase.timedOut (h : WritePhase cfg w t g r out n) : t.timedOut = none := by
  cases h with
  | asks _ ht => cases ht <;> rfl
  | sends _ _ _ _ ht => cases ht <;> rfl
  | _ => rfl

/-- Behind `begin_operation` a write holds the guard of its stream. -/
theorem WritePhase.guards (h : WritePhase cfg w t .holding r out n) :
    (t.sendRole w.id).guards = 1 ∧ (t.sendRole w.id).uses = true := by
  have hon : ∀ r : SendRole, SendRole.on w.id w.id r = r := fun _ => if_pos rfl
  cases h with
  | start =>
      simp only [Task.sendRole, Check.sendRole, hon]
      exact ⟨rfl, rfl⟩
  | asks _ ht =>
      cases ht <;> simp only [Task.sendRole, Check.sendRole, hon] <;> exact ⟨rfl, rfl⟩
  | @sends _ _ _ c _ hc _ _ ht =>
      have hid : c.id = w.id := by rw [hc]
      cases ht <;> simp only [Task.sendRole, Check.sendRole, SendSite.sendRole, hid, hon] <;>
        exact ⟨rfl, rfl⟩
  | release =>
      simp only [Task.sendRole, hon]
      exact ⟨rfl, rfl⟩
  | abort =>
      simp only [Task.sendRole, hon]
      exact ⟨rfl, rfl⟩
  | ending =>
      simp only [Task.sendRole, hon]
      exact ⟨rfl, rfl⟩

/-- A watched write: its phase, its frames and its account. -/
structure Watched (cfg : Config) (w : Writer) (i : Nat) (x : OpWatch) (t : Task) (g : Stage)
    (out : List UInt8) (n : Nat) : Prop where
  task : x.task? i = some t
  phase : WritePhase cfg w t g x.result out n
  chunks : Chunks cfg w.id x.enqueued out
  ledger : Ledger w.id x out n g

/-- A write in progress behind `begin_operation` has set `operation`. -/
theorem Watched.operation (hr : Reachable (Session.step cfg) anyStep {} x.session)
    (h : Watched cfg w i x t .holding out n) :
    (x.session.mem.sends.cell w.id).operation = true := by
  have hle := le_total (f := SendRole.guards)
    (List.mem_of_getElem? (OpWatch.role_of_task h.task w.id))
  have hguard : total SendRole.guards (sendRoles w.id x.session.tasks) =
      (x.session.mem.sends.cell w.id).operation.toNat :=
    ((sendsInv_of_reachable hr).send w.id).guard
  rw [hguard, h.phase.guards.1] at hle
  cases hop : (x.session.mem.sends.cell w.id).operation with
  | true => rfl
  | false =>
      rw [hop] at hle
      cases hle

/-- **A step of the write itself.** -/
theorem Watched.own (hr : Reachable (Session.step cfg) anyStep {} x.session)
    (h : Watched cfg w i x t g out n) {s : Session} (hs : x.session.step cfg (.op i) = some s) :
    ∃ t' g' out' n', Watched cfg w i (x.note cfg i w.id s) t' g' out' n' := by
  obtain ⟨a, t', hn, hmem, htask, hresult, henq⟩ := OpWatch.own hs h.task w.id
  obtain ⟨g', out', n', hp, he⟩ := h.phase.next hn
  refine ⟨t', g', out', n', htask, hresult ▸ hp, henq ▸ h.chunks.step he, h.ledger.step he hmem ?_⟩
  rintro rfl
  exact h.operation hr

/-- **A step of anything else**: the guard keeps others away from `sent_data`. -/
theorem Watched.other (hr : Reachable (Session.step cfg) anyStep {} x.session)
    (h : Watched cfg w i x t g out n) {s : Session} {d : Bool}
    (hs : x.session.step cfg l = some s) (hop : l ≠ .op i) (hcancel : l ≠ .cancelOp i) :
    Watched cfg w i { x with session := s, dropped := d } t g out n := by
  have htask : ({ x with session := s, dropped := d } : OpWatch).task? i = some t :=
    OpWatch.task?_other hs h.task hop hcancel h.phase.timedOut
  refine ⟨htask, h.phase, h.chunks, ?_⟩
  cases g with
  | waiting => exact h.ledger
  | returned => exact h.ledger
  | holding =>
      obtain ⟨b, hbeg, hend, hgrown, hsent⟩ := h.ledger
      have hkeep : (s.mem.sends.cell w.id).sentData =
          (x.session.mem.sends.cell w.id).sentData :=
        ((sendsInv_of_reachable hr).send w.id).sentData_of_guarded (sendPoolStep_of_step hr hs w.id)
          (OpWatch.role_of_task h.task w.id) h.phase.guards.1 h.phase.guards.2
          (OpWatch.role_of_task htask w.id)
      exact ⟨b, hbeg, hend, hgrown, hkeep.trans hsent⟩

/-- **A watched write stays watched** until its future is dropped. -/
theorem Watched.step (hr : Reachable (Session.step cfg) anyStep {} x.session)
    (h : Watched cfg w i x t g out n) (hs : x.step cfg i w.id l = some x')
    (hd : x'.dropped = false) : ∃ t' g' out' n', Watched cfg w i x' t' g' out' n' := by
  have hsession := OpWatch.session_of_step hs
  rcases OpWatch.step_cases hs with ⟨rfl, hx⟩ | ⟨hl, hx⟩
  · rw [hx]
    exact h.own hr hsession
  · rw [hx] at hd ⊢
    have hcancel : l ≠ .cancelOp i := by
      rintro rfl
      simp at hd
    exact ⟨t, g, out, n, h.other hr hsession hl hcancel⟩

/-- A call of `write_buf` or `poll_write` starts a watched write. -/
theorem watched_call {s₀ s₁ : Session} {h : Nat} {y : SendHandle} {data : List UInt8}
    {direct : Bool} (hy : s₀.mem.handles[h]? = some y)
    (hc : s₀.step cfg (.call (if direct then .write h data else .pollWrite h data)) = some s₁) :
    Watched cfg ⟨h, y.id, direct, data⟩ s₀.ops.length { session := s₁ }
      (.selectApi (.write ⟨h, y.id, direct, data⟩)) .waiting [] 0 := by
  have hstart : (∃ u, (if direct then Call.write h data else Call.pollWrite h data).start s₀.mem =
        some (u, .skip, .selectApi (.write ⟨h, y.id, direct, data⟩))) ∨
      (if direct then Call.write h data else Call.pollWrite h data).start s₀.mem = none := by
    cases direct <;> cases hh : y.held <;> simp [Call.start, Call.onSend, hy, hh]
  obtain ⟨u', a, t, hst, -, htask⟩ := Session.call_cases hc
  obtain ⟨u, hstart⟩ | hstart := hstart
  · cases hstart.symm.trans hst
    exact ⟨htask, .select, .nil, rfl, rfl, rfl⟩
  · cases hstart.symm.trans hst

/-- **Chunking and accounting are exact.** A call of `write_buf` (`direct`) or `poll_write` in any
state of a session, followed through any continuation to its return: it has put chunks into the
queue, each of at least one byte and at most 16 KiB and `max_stream_data_per_frame` bytes; they make
up the data after `Ok(())`, the first `n` bytes after `Ready(Ok(n))`, nothing after `Pending` or an
error of `poll_write`, and after an error of `write_buf` a prefix of the data, which is a proper one
unless there was nothing to write. Its steps have changed `sent_data` by the number of these bytes,
and nobody else has changed it between the guard and its release. -/
theorem write_exact {s₀ s₁ : Session} (hr : Reachable (Session.step cfg) anyStep {} s₀) {h : Nat}
    {y : SendHandle} (hy : s₀.mem.handles[h]? = some y) {data : List UInt8} {direct : Bool}
    (hc : s₀.step cfg (.call (if direct then .write h data else .pollWrite h data)) = some s₁)
    (hx : Reachable (OpWatch.step cfg s₀.ops.length y.id) anyStep { session := s₁ } x)
    (hdone : x.task? s₀.ops.length = some .done) (hdrop : x.dropped = false) :
    ∃ (v : Outcome) (ds : List (List UInt8)), x.result = some v ∧
      x.enqueued = ds.map (fun d => .stream y.id d false) ∧
      (∀ d ∈ ds, d ≠ [] ∧ d.length ≤ min 16384 cfg.limits.maxStreamDataPerFrame) ∧
      (match v with
        | .ok => direct = true ∧ ds.flatten = data
        | .wrote n => direct = false ∧ n ≤ data.length ∧ ds.flatten = data.take n
        | .pending => direct = false ∧ ds.flatten = []
        | .err => ds.flatten <+: data ∧ (data ≠ [] → ds.flatten ≠ data) ∧
            (direct = false → ds.flatten = [])) ∧
      x.grown = ds.flatten.length ∧ x.ended = x.began.map (· + ds.flatten.length) := by
  have hs₁ : Reachable (Session.step cfg) anyStep {} s₁ := hr.step trivial hc
  have hwatched : ∃ t g out n, Watched cfg ⟨h, y.id, direct, data⟩ s₀.ops.length x t g out n := by
    refine hx.invariant_while (C := fun x => x.dropped = false)
      (I := fun x => ∃ t g out n,
        Watched cfg ⟨h, y.id, direct, data⟩ s₀.ops.length x t g out n)
      ?_ ⟨_, _, _, _, watched_call hy hc⟩ ?_ hdrop
    · -- a dropped future stays dropped
      intro z l z' hz hd
      rcases OpWatch.step_cases hz with ⟨rfl, hz'⟩ | ⟨-, hz'⟩
      · rw [hz'] at hd
        exact hd
      · rw [hz'] at hd
        exact (Bool.or_eq_false_iff.1 hd).1
    · rintro z l z' hz hd ⟨t, g, out, n, hw⟩ - hs
      exact hw.step (OpWatch.session_of_reachable hs₁ hz) hs hd
  obtain ⟨t, g, out, n, hw⟩ := hwatched
  obtain ⟨ds, hframes, rfl, hds⟩ := hw.chunks
  have ht : t = .done := Option.some.inj (hw.task.symm.trans hdone)
  subst ht
  obtain ⟨v, hv, hex, hg, hb⟩ : ∃ v, x.result = some v ∧
      v.Explains ⟨h, y.id, direct, data⟩ ds.flatten ∧ x.grown = ds.flatten.length ∧
      x.ended = x.began.map (· + ds.flatten.length) := by
    have hp := hw.phase
    have hl := hw.ledger
    generalize x.result = r at hp
    generalize hout : ds.flatten = out at hp hl
    cases hp with
    | refused =>
        obtain ⟨hbeg, hend, hgrown⟩ := hl
        exact ⟨.err, rfl, ⟨⟨_, rfl⟩, fun h h' => h h'.symm, fun _ => rfl⟩, hgrown,
          by rw [hbeg, hend]; rfl⟩
    | returned hv =>
        obtain ⟨b, hbeg, hend, hgrown⟩ := hl
        exact ⟨_, rfl, hv, hgrown, by rw [hbeg, hend]; rfl⟩
    | asks _ ht => cases ht
    | sends _ _ _ _ ht => cases ht
  refine ⟨v, ds, hv, hframes, hds, ?_, hg, hb⟩
  cases v with
  | _ => exact hex

/-- `write_buf` of three bytes with credit for two: it waits for more credit behind its first chunk,
and returns `Ok` behind its second one. -/
theorem write_exact_two_chunks :
    ∃ (s : Session) (x : OpWatch), Reachable (Session.step ⟨false, {}⟩) anyStep {} s ∧
      s.watchRun ⟨false, {}⟩ ⟨2⟩ (.write 0 [7, 8, 9]) (List.replicate 21 (.op 1) ++
        [.receive (.binary [6, 2, 9])] ++ List.replicate 4 .inbound ++ List.replicate 9 (.op 1)) =
          some x ∧
      x.result = some .ok ∧
      ∃ ds : List (List UInt8), x.enqueued = ds.map (fun d => .stream ⟨2⟩ d false) ∧
        ds.flatten = [7, 8, 9] ∧ x.grown = 3 := by
  obtain ⟨s, hr, hlen, hy, hx⟩ :
      ∃ s, Reachable (Session.step ⟨false, {}⟩) anyStep {} s ∧ s.ops.length = 1 ∧
        (s.mem.handles[0]?).map SendHandle.id = some ⟨2⟩ ∧
        (s.watchRun ⟨false, {}⟩ ⟨2⟩ (.write 0 [7, 8, 9]) (List.replicate 21 (.op 1) ++
          [.receive (.binary [6, 2, 9])] ++ List.replicate 4 .inbound ++
          List.replicate 9 (.op 1))).any (fun x => (x.task? 1).any Task.isDone &&
            !x.dropped && decide (x.result = some .ok)) = true :=
    Reachable.exists_of_run (List.flatten [[.call .openUni], List.replicate 7 (.op 0),
      [.receive (.binary [6, 2, 2])], List.replicate 4 .inbound]) (by decide +kernel)
  obtain ⟨y, hy, hid⟩ := Option.map_eq_some_iff.1 hy
  obtain ⟨x, hrun, hx⟩ := (Option.any_eq_true _ _).1 hx
  simp only [Bool.and_eq_true, Bool.not_eq_true', decide_eq_true_eq] at hx
  obtain ⟨⟨hdone, hdrop⟩, hok⟩ := hx
  obtain ⟨s₁, hc, hreach⟩ := Session.watchRun_eq_some hrun
  rw [← hid] at hreach
  have hcall : s.step ⟨false, {}⟩ (.call (if true then .write 0 [7, 8, 9] else
      .pollWrite 0 [7, 8, 9])) = some s₁ := hc
  obtain ⟨v, ds, hv, hframes, -, hdata, hgrown, -⟩ := write_exact hr hy hcall hreach
    (hlen ▸ OpWatch.task?_done hdone) hdrop
  cases hok.symm.trans hv
  refine ⟨s, x, hr, hrun, hok, ds, hid ▸ hframes, hdata.2, ?_⟩
  rw [hgrown, hdata.2]
  rfl

/-- **Nothing has no proper prefix.** `write_buf` of an empty buffer fails on a stream on which
`AsyncWrite` was used before. -/
theorem write_nothing_refused :
    ∃ (s : Session) (y : SendHandle) (s₁ : Session) (x : OpWatch),
      Reachable (Session.step ⟨false, {}⟩) anyStep {} s ∧ s.mem.handles[0]? = some y ∧
      s.step ⟨false, {}⟩ (.call (.write 0 [])) = some s₁ ∧
      Reachable (OpWatch.step ⟨false, {}⟩ s.ops.length y.id) anyStep { session := s₁ } x ∧
      x.task? s.ops.length = some .done ∧ x.dropped = false ∧ x.result = some .err ∧
      ¬ ∃ ds : List (List UInt8), x.enqueued = ds.map (fun d => .stream y.id d false) ∧
        ds.flatten <+: [] ∧ ds.flatten ≠ [] := by
  obtain ⟨s, hr, hlen, hy, hx⟩ :
      ∃ s, Reachable (Session.step ⟨false, {}⟩) anyStep {} s ∧ s.ops.length = 2 ∧
        (s.mem.handles[0]?).map SendHandle.id = some ⟨2⟩ ∧
        (s.watchRun ⟨false, {}⟩ ⟨2⟩ (.write 0 []) [.op 2]).any
          (fun x => (x.task? 2).any Task.isDone && !x.dropped &&
            decide (x.result = some .err)) = true :=
    Reachable.exists_of_run (List.flatten [[.call .openUni], List.replicate 7 (.op 0),
      [.call (.pollWrite 0 [])], List.replicate 3 (.op 1)]) (by decide +kernel)
  obtain ⟨y, hy, hid⟩ := Option.map_eq_some_iff.1 hy
  obtain ⟨x, hrun, hx⟩ := (Option.any_eq_true _ _).1 hx
  simp only [Bool.and_eq_true, Bool.not_eq_true', decide_eq_true_eq] at hx
  obtain ⟨⟨hdone, hdrop⟩, herr⟩ := hx
  obtain ⟨s₁, hc, hreach⟩ := Session.watchRun_eq_some hrun
  rw [← hid] at hreach
  have hret : x.task? s.ops.length = some .done := by
    rw [hlen]
    exact OpWatch.task?_done hdone
  refine ⟨s, y, s₁, x, hr, hy, hc, hreach, hret, hdrop, herr, ?_⟩
  rintro ⟨ds, -, hpre, hne⟩
  exact hne (List.prefix_nil.1 hpre)

end Writes

end WebsockMux.Native
