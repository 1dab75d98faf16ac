import WebsockMux.Native.RecvTable

/-!
# What a read does

The four read functions of `RecvStream` share one specification (`RecvStream.Reads`): no byte is
lost, duplicated or reordered between the event channel, the pending buffer and the application, and
new credit is due exactly when the distance to the limit reaches the update threshold
(`RecvStream.reads_of_poll`).
-/

set_option autoImplicit false

namespace WebsockMux.Native

open WebsockMux.Proto

/-- The payload of a list of events. -/
def eventBytes (es : List RecvEvent) : List UInt8 := es.flatMap RecvEvent.data

@[simp] theorem eventBytes_nil : eventBytes [] = [] := rfl

@[simp] theorem eventBytes_append (as bs : List RecvEvent) :
    eventBytes (as ++ bs) = eventBytes as ++ eventBytes bs := List.flatMap_append

theorem eventBytes_singleton (e : RecvEvent) : eventBytes [e] = e.data := by
  simp [eventBytes]

namespace RecvStream

/-- The reader has published the credit that is due, or will publish no more. -/
def UpToDate (l : Limits) (r : RecvStream) : Prop :=
  r.finished = true ∨ r.stopSent = true ∨
    min (Limits.saturatingAdd r.consumed l.initialStreamWindow) VarInt.max <
      r.granted + l.streamWindowUpdateThreshold

/-- **What a read does** to the reader and to the events in the channel: `taken` are the events that
it takes, `target` the new limit when one is due. `open_` says that the channel has a sender. -/
structure Reads (l : Limits) (open_ : Bool) (r : RecvStream) (events : List RecvEvent)
    (r' : RecvStream) (events' taken : List RecvEvent) (target : Option Nat) : Prop where
  events_eq : events = taken ++ events'
  bytes : r'.returned ++ r'.pending = r.returned ++ r.pending ++ eventBytes taken
  finRead : r'.finRead = (r.finRead || taken.any RecvEvent.fin)
  finished : r'.finished = true →
    r.finished = true ∨ taken.any RecvEvent.fin = true ∨ open_ = false
  finished_mono : r.finished = true → r'.finished = true
  stopSent : r'.stopSent = r.stopSent
  receiverOpen : r'.receiverOpen = r.receiverOpen
  held : r'.held = r.held
  consumed : r'.consumed + r.returned.length ≤ r.consumed + r'.returned.length
  consumed_mono : r.consumed < 2 ^ 64 → r.consumed ≤ r'.consumed ∧ r'.consumed < 2 ^ 64
  granted : r'.granted = target.getD r.granted
  grows : ∀ t ∈ target, r.granted < t ∧ t ≤ VarInt.max
  target_le : ∀ t ∈ target, t ≤ r'.consumed + l.initialStreamWindow
  unstopped : target.isSome = true → r.stopSent = false
  upToDate : 0 < l.streamWindowUpdateThreshold → r.UpToDate l → r'.UpToDate l

variable {l : Limits} {open_ : Bool} {r r' : RecvStream} {events events' taken : List RecvEvent}
  {target : Option Nat} {n : Nat}

/-- A read that changes nothing. -/
theorem Reads.refl (l : Limits) (open_ : Bool) (r : RecvStream) (events : List RecvEvent) :
    Reads l open_ r events r events [] none where
  events_eq := rfl
  bytes := (List.append_nil _).symm
  finRead := (Bool.or_false _).symm
  finished := .inl
  finished_mono := id
  stopSent := rfl
  receiverOpen := rfl
  held := rfl
  consumed := Nat.le_refl _
  consumed_mono h := ⟨Nat.le_refl _, h⟩
  granted := rfl
  grows := nofun
  target_le := nofun
  unstopped := nofun
  upToDate := fun _ h => h

/-- What `on_bytes_consumed` does, when no limit is due or a new one is. -/
theorem onBytesConsumed_cases (l : Limits) (r : RecvStream) (n : Nat) :
    ∃ c, c ≤ r.consumed + n ∧ (r.consumed < 2 ^ 64 → r.consumed ≤ c ∧ c < 2 ^ 64) ∧
      ((r.onBytesConsumed l n = ({ r with consumed := c }, none) ∧
          (0 < l.streamWindowUpdateThreshold → r.UpToDate l →
            ({ r with consumed := c } : RecvStream).UpToDate l)) ∨
        ∃ t, r.granted < t ∧ t ≤ VarInt.max ∧
          t = min (Limits.saturatingAdd c l.initialStreamWindow) VarInt.max ∧
          r.stopSent = false ∧
          r.onBytesConsumed l n = ({ r with consumed := c, granted := t }, some t)) := by
  unfold onBytesConsumed
  split_ifs with hn
  · exact ⟨r.consumed, Nat.le_add_right _ _, fun h => ⟨Nat.le_refl _, h⟩,
      .inl ⟨rfl, fun _ h => h⟩⟩
  · refine ⟨Limits.saturatingAdd r.consumed n, Limits.saturatingAdd_le _ _,
      Limits.le_saturatingAdd, ?_⟩
    dsimp only
    split_ifs with hle hlt hfin
    · refine .inl ⟨rfl, fun hpos _ => .inr (.inr ?_)⟩
      exact Nat.lt_of_le_of_lt hle (Nat.lt_add_of_pos_right hpos)
    · refine .inl ⟨rfl, fun hpos _ => .inr (.inr ?_)⟩
      exact (Nat.sub_lt_iff_lt_add' (Nat.le_of_not_le hle)).1 hlt
    · refine .inl ⟨rfl, fun _ _ => ?_⟩
      rcases Bool.or_eq_true_iff.1 hfin with h | h
      · exact .inl h
      · exact .inr (.inl h)
    · refine .inr ⟨_, Nat.lt_of_not_le hle, Nat.min_le_right _ _, rfl, ?_, rfl⟩
      exact (Bool.or_eq_false_iff.1 (Bool.eq_false_of_not_eq_true hfin)).2

/-- The reader, the events and the limit that a read leaves behind, unless it waits. -/
def outcome : ReadResult → Option (RecvStream × List RecvEvent × Option Nat)
  | .wait => none
  | .ret r events => some (r, events, none)
  | .again r events => some (r, events, none)
  | .grant r events target => some (r, events, some target)

/-- The bytes of a chunk go to the application and to the pending buffer. `r₀` is the reader before
the chunk was taken. -/
theorem reads_of_give {r₀ : RecvStream} {chunk : List UInt8} {left : List RecvEvent}
    (hchunk : Reads l open_ r₀ events { r with pending := chunk } events' taken none)
    (hout : outcome (r.give l events' chunk n) = some (r', left, target)) :
    Reads l open_ r₀ events r' left taken target := by
  have hbytes : r.returned ++ chunk.take n ++ chunk.drop n =
      r₀.returned ++ r₀.pending ++ eventBytes taken := by
    rw [List.append_assoc, List.take_append_drop]
    exact hchunk.bytes
  have hcons : ∀ c, c ≤ r.consumed + (chunk.take n).length →
      c + r₀.returned.length ≤ r₀.consumed + (r.returned ++ chunk.take n).length := by
    intro c hc
    have := hchunk.consumed
    simp only at this
    rw [List.length_append]
    omega
  have hgrow : ∀ c, (r.consumed < 2 ^ 64 → r.consumed ≤ c ∧ c < 2 ^ 64) →
      r₀.consumed < 2 ^ 64 → r₀.consumed ≤ c ∧ c < 2 ^ 64 := by
    intro c hc h
    have hr := hchunk.consumed_mono h
    exact ⟨hr.1.trans (hc hr.2).1, (hc hr.2).2⟩
  unfold give at hout
  dsimp only at hout
  obtain ⟨c, hc, hmono, ⟨heq, hup⟩ | ⟨t, hlt, hle, ht, hstop, heq⟩⟩ := onBytesConsumed_cases l
    { r with pending := chunk.drop n, returned := r.returned ++ chunk.take n } (chunk.take n).length
  · rw [heq] at hout
    cases hout
    exact { hchunk with
      bytes := hbytes
      consumed := hcons c hc
      consumed_mono := hgrow c hmono
      target_le := nofun
      unstopped := nofun
      upToDate := fun hpos h => hup hpos (hchunk.upToDate hpos h) }
  · rw [heq] at hout
    cases hout
    exact { hchunk with
      bytes := hbytes
      consumed := hcons c hc
      consumed_mono := hgrow c hmono
      target_le := fun t' ht' => by
        cases ht'
        rw [ht]
        exact (Nat.min_le_left _ _).trans (Limits.saturatingAdd_le _ _)
      granted := rfl
      grows := fun t' ht' => by
        cases ht'
        have hg : r.granted = r₀.granted := hchunk.granted
        exact ⟨hg.symm.trans_lt hlt, hle⟩
      unstopped := fun _ => hchunk.stopSent.symm.trans hstop
      upToDate := fun hpos _ => .inr (.inr (by
        show min (Limits.saturatingAdd c l.initialStreamWindow) VarInt.max < t + _
        rw [← ht]
        exact Nat.lt_add_of_pos_right hpos)) }

/-- An event is taken. -/
theorem reads_of_take {e : RecvEvent} {rest left : List RecvEvent} {api : ReadApi}
    (hpend : r.pending = []) (hout : outcome (r.take l api n e rest) = some (r', left, target)) :
    Reads l open_ r (e :: rest) r' left [e] target := by
  -- the reader once the event is taken, with the event's bytes as pending
  have htaken : Reads l open_ r (e :: rest)
      { r with finished := r.finished || e.fin, finRead := r.finRead || e.fin, pending := e.data }
      rest [e] none :=
    { Reads.refl l open_ r (e :: rest) with
      events_eq := rfl
      bytes := by rw [hpend, List.append_nil, eventBytes_singleton]
      finRead := by simp
      finished := fun h => by
        rcases Bool.or_eq_true_iff.1 h with h | h
        · exact .inl h
        · exact .inr (.inl (by simpa using h))
      finished_mono := fun h => by simp [h]
      granted := rfl
      upToDate := fun _ h => by
        rcases h with h | h | h
        · exact .inl (by simp [h])
        · exact .inr (.inl h)
        · exact .inr (.inr h) }
  unfold take at hout
  dsimp only at hout
  split_ifs at hout with hfin hempty
  · cases hout
    have hd : r.pending = e.data := by rw [hpend, hfin.1]
    rwa [← hd] at htaken
  · cases hout
    have hd : r.pending = e.data := by rw [hpend, hempty.1]
    rwa [← hd] at htaken
  · exact reads_of_give htaken hout

/-- **The read functions meet the specification.** -/
theorem reads_of_poll {api : ReadApi} {left : List RecvEvent}
    (hout : outcome (r.poll l open_ api n events) = some (r', left, target)) :
    ∃ taken, Reads l open_ r events r' left taken target := by
  unfold poll at hout
  split at hout
  · cases hout
    exact ⟨[], .refl l open_ r events⟩
  split at hout
  · exact ⟨[], reads_of_give (.refl l open_ r events) hout⟩
  · rename_i hpend
    split at hout
    · cases hout
      exact ⟨[], .refl l open_ r events⟩
    cases events with
    | cons e rest => exact ⟨[e], reads_of_take (of_not_not hpend) hout⟩
    | nil =>
        dsimp only at hout
        split_ifs at hout with hopen hapi
        · cases hout
          exact ⟨[], .refl l open_ r []⟩
        · cases hout
        · cases hout
          -- the channel has no sender, so the stream ends without a FIN
          exact ⟨[], { Reads.refl l open_ r [] with
            finished := fun _ => .inr (.inr (Bool.eq_false_of_not_eq_true hopen))
            finished_mono := fun _ => rfl
            upToDate := fun _ _ => .inl rfl }⟩

/-! ## Waiting -/

theorem give_ne_wait (l : Limits) (r : RecvStream) (events : List RecvEvent)
    (chunk : List UInt8) (n : Nat) : r.give l events chunk n ≠ .wait := by
  simp only [give]
  split <;> nofun

/-- A read does not wait when the event channel has no sender. -/
theorem poll_ne_wait (l : Limits) (api : ReadApi) (n : Nat) (r : RecvStream)
    (events : List RecvEvent) : r.poll l false api n events ≠ .wait := by
  cases events with
  | nil =>
      simp only [poll, Bool.false_eq_true, if_false]
      split_ifs
      · nofun
      · exact r.give_ne_wait _ _ _ _
      · nofun
      · nofun
  | cons e events =>
      simp only [poll, take]
      split_ifs
      all_goals first
        | exact give_ne_wait _ _ _ _ _
        | nofun

end RecvStream

end WebsockMux.Native
