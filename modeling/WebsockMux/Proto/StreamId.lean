import WebsockMux.Proto.Decoded

/-!
# The fields of a stream identifier

`StreamId.new` computes the number that has the counter, the direction bit and the initiator bit as
its digits, exactly for the counters below `2 ^ 60` (`new_eq`). So `counter`, `dir` and
`initiatorIsServer` read its arguments back (`new_ok`), and `new` gives every identifier below
`2 ^ 62` back from its fields (`new_fields`). Those are the identifiers that a decoded frame can
carry (`lt_iff_decoded`), and between the two sides `new` is a bijection that keeps the order of
the counters (`new_bijective`).
-/

set_option autoImplicit false

namespace WebsockMux.Proto.StreamId

open WebsockMux.Lib

/-- The direction bit. -/
def dirBit : StreamDir → Nat
  | .bi => 0
  | .uni => 1

theorem counter_eq (id : StreamId) : id.counter = id.val / 4 := by
  simp [counter, Nat.shiftRight_eq_div_pow]

theorem initiatorIsServer_eq (id : StreamId) : id.initiatorIsServer = decide (id.val % 2 = 1) := by
  simp [initiatorIsServer, Nat.and_one_is_mod]

theorem dirBit_dir (id : StreamId) : dirBit id.dir = id.val / 2 % 2 := by
  have h : (id.val >>> 1) &&& 1 = id.val / 2 % 2 := by
    simp [Nat.shiftRight_eq_div_pow, Nat.and_one_is_mod]
  unfold dir
  rw [h]
  split_ifs with h1
  · exact h1.symm
  · show 0 = _
    omega

theorem dirBit_inj {a b : StreamDir} (h : dirBit a = dirBit b) : a = b := by
  cases a <;> cases b <;> first | rfl | cases h

/-- The packed value. -/
theorem pack_eq {counter b c : Nat} (hb : b < 2) (hc : c < 2) :
    (counter * 4) ||| (b <<< 1) ||| c = counter * 4 + b * 2 + c := by
  have hshift : b <<< 1 = b * 2 := by simp [Nat.shiftLeft_eq]
  have hdir : counter * 4 ||| b * 2 = counter * 4 + b * 2 :=
    or_eq_add (i := 2) (by omega) (by omega)
  rw [hshift, hdir]
  exact or_eq_add (i := 1) (by omega) (by omega)

/-- The number that `new` computes. -/
def packed (counter : Nat) (isServer : Bool) (dir : StreamDir) : Nat :=
  counter * 4 + dirBit dir * 2 + isServer.toNat

theorem packed_bounds (counter : Nat) (isServer : Bool) (dir : StreamDir) :
    counter * 4 ≤ packed counter isServer dir ∧ packed counter isServer dir ≤ counter * 4 + 3 := by
  have hd : dirBit dir < 2 := by cases dir <;> decide
  have hs : isServer.toNat < 2 := Bool.toNat_lt _
  unfold packed
  omega

theorem new_packed (counter : Nat) (isServer : Bool) (dir : StreamDir) :
    new counter isServer dir =
      if counter * 4 < 2 ^ 64 then
        match VarInt.fromU64 (packed counter isServer dir) with
        | .ok _ => .ok ⟨packed counter isServer dir⟩
        | .error e => .error e
      else .error .mk := by
  have hd : dirBit dir < 2 := by cases dir <;> decide
  have hs : isServer.toNat < 2 := Bool.toNat_lt _
  unfold packed
  rw [← pack_eq hd hs]
  cases dir <;> cases isServer <;> rfl

/-- **What `new` computes.** The check of `checked_mul` is implied by the range check of
`VarInt::from_u64`, which is one on the counter. -/
theorem new_eq (counter : Nat) (isServer : Bool) (dir : StreamDir) :
    new counter isServer dir =
      if counter < 2 ^ 60 then .ok ⟨packed counter isServer dir⟩ else .error .mk := by
  have hb := packed_bounds counter isServer dir
  rw [new_packed]
  unfold VarInt.fromU64 VarInt.max
  by_cases hc : counter < 2 ^ 60
  · rw [if_pos (by omega), if_pos (by omega), if_pos hc]
  · rw [if_neg hc]
    by_cases hm : counter * 4 < 2 ^ 64
    · rw [if_pos hm, if_neg (by omega)]
    · rw [if_neg hm]

theorem counter_packed (counter : Nat) (isServer : Bool) (dir : StreamDir) :
    StreamId.counter ⟨packed counter isServer dir⟩ = counter := by
  have hb := packed_bounds counter isServer dir
  rw [counter_eq]
  show packed counter isServer dir / 4 = counter
  omega

theorem initiatorIsServer_packed (counter : Nat) (isServer : Bool) (dir : StreamDir) :
    initiatorIsServer ⟨packed counter isServer dir⟩ = isServer := by
  rw [initiatorIsServer_eq]
  show decide ((counter * 4 + dirBit dir * 2 + isServer.toNat) % 2 = 1) = isServer
  cases isServer with
  | false => simp; omega
  | true => simp; omega

theorem dir_packed (counter : Nat) (isServer : Bool) (dir : StreamDir) :
    StreamId.dir ⟨packed counter isServer dir⟩ = dir := by
  have hd : dirBit dir < 2 := by cases dir <;> decide
  have hs : isServer.toNat < 2 := Bool.toNat_lt _
  apply dirBit_inj
  rw [dirBit_dir]
  show (counter * 4 + dirBit dir * 2 + isServer.toNat) / 2 % 2 = dirBit dir
  omega

/-- **`new` succeeds for the counters below `2 ^ 60`.** -/
theorem new_ok_iff {counter : Nat} {isServer : Bool} {dir : StreamDir} {id : StreamId} :
    new counter isServer dir = .ok id ↔
      counter < 2 ^ 60 ∧ id = ⟨packed counter isServer dir⟩ := by
  rw [new_eq]
  constructor
  · intro h
    split_ifs at h with hc
    cases h
    exact ⟨hc, rfl⟩
  · rintro ⟨hc, rfl⟩
    rw [if_pos hc]

/-- **`new` packs its fields.** -/
theorem new_ok {counter : Nat} {isServer : Bool} {dir : StreamDir} {id : StreamId}
    (h : new counter isServer dir = .ok id) :
    id.counter = counter ∧ id.initiatorIsServer = isServer ∧ id.dir = dir ∧
      id.val ≤ VarInt.max := by
  obtain ⟨hc, rfl⟩ := new_ok_iff.1 h
  refine ⟨counter_packed _ _ _, initiatorIsServer_packed _ _ _, dir_packed _ _ _, ?_⟩
  have hb := packed_bounds counter isServer dir
  show packed counter isServer dir ≤ 2 ^ 62 - 1
  omega

/-- An identifier is determined by its fields. -/
theorem eq_of_fields {a b : StreamId} (hc : a.counter = b.counter) (hd : a.dir = b.dir)
    (hi : a.initiatorIsServer = b.initiatorIsServer) : a = b := by
  have hd' : dirBit a.dir = dirBit b.dir := by rw [hd]
  rw [dirBit_dir, dirBit_dir] at hd'
  rw [counter_eq, counter_eq] at hc
  rw [initiatorIsServer_eq, initiatorIsServer_eq, decide_eq_decide] at hi
  have hv : a.val = b.val := by omega
  cases a
  cases b
  exact congrArg _ hv

/-- **`new` gives an identifier back from its fields.** -/
theorem new_fields {id : StreamId} (h : id.val < 2 ^ 62) :
    new id.counter id.initiatorIsServer id.dir = .ok id := by
  have hc : id.counter < 2 ^ 60 := by
    rw [counter_eq]
    omega
  refine new_ok_iff.2 ⟨hc, ?_⟩
  exact eq_of_fields (counter_packed _ _ _).symm (dir_packed _ _ _).symm
    (initiatorIsServer_packed _ _ _).symm

/-- For one role and one direction, the order of the identifiers is that of the counters. -/
theorem packed_lt_iff (isServer : Bool) (dir : StreamDir) {a b : Nat} :
    packed a isServer dir < packed b isServer dir ↔ a < b := by
  unfold packed
  omega

/-! ## The identifiers of decoded frames -/

/-- The identifier that a frame carries. -/
def ofFrame : Frame → Option StreamId
  | .openUni id => some id
  | .openBi id => some id
  | .stream id _ _ => some id
  | .resetStream id _ => some id
  | .stopSending id _ => some id
  | .maxStreamData id _ => some id
  | .connectionClose _ _ => none

theorem val_mem_varints {f : Frame} {id : StreamId} (h : ofFrame f = some id) :
    id.val ∈ f.varints := by
  cases f with
  | connectionClose code reason => cases h
  | _ =>
      cases h
      exact List.mem_cons_of_mem _ List.mem_cons_self

/-- **The identifiers that `Frame::decode` can produce**, on any platform. -/
theorem lt_iff_decoded (id : StreamId) :
    id.val < 2 ^ 62 ↔
      ∃ usizeBits b f rest, Frame.decode usizeBits b = .ok (f, rest) ∧ ofFrame f = some id := by
  constructor
  · intro h
    have hf : (Frame.openUni id).Encodable := by
      intro x hx
      rcases List.mem_cons.1 hx with rfl | hx
      · exact Nat.two_pow_pos 62
      · exact List.mem_singleton.1 hx ▸ h
    obtain ⟨b, -, -, -, hr⟩ := Frame.exists_encode hf
    exact ⟨64, b ++ [], _, [], hr [], rfl⟩
  · rintro ⟨usizeBits, b, f, rest, hd, hid⟩
    exact Frame.encodable_of_decode hd _ (val_mem_varints hid)

/-- **Stream identifiers are a bijection.** `new` succeeds exactly for the counters below `2 ^ 60`,
and the fields of its result are its arguments. Conversely an identifier below `2 ^ 62`, and those
are the ones that a decoded frame can carry, is `new` of its fields. So `new` is injective,
identifiers of different roles or directions differ, and for one role and one direction the order
of the identifiers is that of the counters. -/
theorem new_bijective :
    (∀ (counter : Nat) (isServer : Bool) (dir : StreamDir),
      ((∃ id, new counter isServer dir = .ok id) ↔ counter < 2 ^ 60) ∧
      ∀ id, new counter isServer dir = .ok id →
        id.counter = counter ∧ id.initiatorIsServer = isServer ∧ id.dir = dir ∧
          id.val < 2 ^ 62) ∧
    (∀ id : StreamId, id.val < 2 ^ 62 →
      new id.counter id.initiatorIsServer id.dir = .ok id) ∧
    (∀ id : StreamId, id.val < 2 ^ 62 ↔
      ∃ usizeBits b f rest, Frame.decode usizeBits b = .ok (f, rest) ∧ ofFrame f = some id) ∧
    (∀ (counter counter' : Nat) (isServer isServer' : Bool) (dir dir' : StreamDir)
        (id id' : StreamId),
      new counter isServer dir = .ok id → new counter' isServer' dir' = .ok id' →
      (id = id' → counter = counter' ∧ isServer = isServer' ∧ dir = dir') ∧
      (isServer ≠ isServer' ∨ dir ≠ dir' → id ≠ id') ∧
      (isServer = isServer' → dir = dir' → (id.val < id'.val ↔ counter < counter'))) := by
  refine ⟨fun counter isServer dir => ⟨?_, fun id h => ?_⟩, fun id h => new_fields h,
    lt_iff_decoded, ?_⟩
  · constructor
    · rintro ⟨id, h⟩
      exact (new_ok_iff.1 h).1
    · intro hc
      exact ⟨_, new_ok_iff.2 ⟨hc, rfl⟩⟩
  · obtain ⟨hc, hi, hd, hv⟩ := new_ok h
    exact ⟨hc, hi, hd, Nat.lt_of_le_of_lt hv (by decide)⟩
  · intro counter counter' isServer isServer' dir dir' id id' h h'
    obtain ⟨hc, hi, hd, -⟩ := new_ok h
    obtain ⟨hc', hi', hd', -⟩ := new_ok h'
    refine ⟨?_, ?_, ?_⟩
    · rintro rfl
      exact ⟨hc.symm.trans hc', hi.symm.trans hi', hd.symm.trans hd'⟩
    · rintro hne rfl
      rcases hne with hne | hne
      · exact hne (hi.symm.trans hi')
      · exact hne (hd.symm.trans hd')
    · rintro rfl rfl
      obtain ⟨-, rfl⟩ := new_ok_iff.1 h
      obtain ⟨-, rfl⟩ := new_ok_iff.1 h'
      exact packed_lt_iff _ _

/-- The last counter that fits and the first that does not, and a product that leaves `u64`. -/
theorem new_bijective_boundary :
    (∃ id, new (2 ^ 60 - 1) true .uni = .ok id) ∧ (¬∃ id, new (2 ^ 60) false .bi = .ok id) ∧
      (¬∃ id, new (2 ^ 64 - 1) false .bi = .ok id) ∧
      new 1 true .uni = .ok ⟨7⟩ ∧ (⟨7⟩ : StreamId).counter = 1 :=
  ⟨(new_bijective.1 _ _ _).1.2 (by decide),
    fun h => absurd ((new_bijective.1 _ _ _).1.1 h) (by decide),
    fun h => absurd ((new_bijective.1 _ _ _).1.1 h) (by decide),
    new_bijective.2.1 ⟨7⟩ (by decide),
    ((new_bijective.1 1 true .uni).2 ⟨7⟩ (new_bijective.2.1 ⟨7⟩ (by decide))).1⟩

end WebsockMux.Proto.StreamId
