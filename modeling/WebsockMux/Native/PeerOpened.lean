import WebsockMux.Native.Announced
import WebsockMux.Native.Tables

/-!
# Streams that the peer has opened

A stream of the peer is in the tables because an open for it was handled (`registered_by_open`), and
a handled open registers its stream or ends the session (`open_registers`).
-/

set_option autoImplicit false

namespace WebsockMux.Native

open WebsockMux.Lib WebsockMux.Proto

variable {cfg : Config} {ok : Session → Label → Prop} {s : Session} {id : StreamId}

/-- The streams of the peer that were registered. -/
structure RegisteredByOpen (cfg : Config) (v : View) : Prop where
  recv : ∀ id ∈ v.mem.recvs.registered, id.initiatorIsServer ≠ cfg.isServer →
    ∃ bi, openFrame bi id ∈ v.handled
  send : ∀ id ∈ v.mem.sends.registered, id.initiatorIsServer ≠ cfg.isServer →
    openFrame true id ∈ v.handled

/-- **A stream of the peer was opened by a frame.** -/
theorem registered_by_open (hr : Reachable (Session.step cfg) ok {} s) :
    RegisteredByOpen cfg s.view := by
  induction hr with
  | init => exact ⟨nofun, nofun⟩
  | @step s s' l hr hok hs ih =>
      have hm := Session.moves_of_step hs
      have hnames := (controlInv_of_reachable hr).names
      have hgrows : ∀ f ∈ s.view.handled, f ∈ s'.view.handled := hm.handled_isPrefix.subset
      refine ⟨fun id hid hpeer => ?_, fun id hid hpeer => ?_⟩
      · rcases hm.recvRegistered hid with hid | ht | ⟨bi, ht⟩
        · obtain ⟨bi, hf⟩ := ih.recv id hid hpeer
          exact ⟨bi, hgrows _ hf⟩
        · exact absurd (hnames _ ht).1 hpeer
        · rcases handling_of_inHandle hr ht rfl with hf | ⟨f, hf, hh⟩
          · cases hf
          · cases hh
            exact ⟨bi, hgrows _ hf⟩
      · rcases hm.sendRegistered hid with hid | ⟨dir, ht⟩ | ht
        · exact hgrows _ (ih.send id hid hpeer)
        · exact absurd (hnames _ ht).1 hpeer
        · rcases handling_of_inHandle hr ht rfl with hf | ⟨f, hf, hh⟩
          · cases hf
          · cases hh
            exact hgrows _ hf

/-- The stream of an open is registered. -/
def OpenRegistered (f : Frame) (m : Memory) : Prop :=
  ∀ bi id, f = openFrame bi id → id ∈ m.recvs.registered

/-- `handle_frame` has an open and has still to register its stream. -/
inductive OpenWaits : Frame → Task → Prop where
  | validate (id : StreamId) (bi : Bool) : OpenWaits (openFrame bi id) (.validatePeer id bi)
  | register (id : StreamId) (bi : Bool) : OpenWaits (openFrame bi id) (.tryRegister id bi)

theorem openFrame_inj {bi bi' : Bool} {id id' : StreamId} (h : openFrame bi id = openFrame bi' id') :
    id = id' := by
  cases bi <;> cases bi' <;> cases h <;> rfl

/-- **An open is registered or refused.** -/
theorem open_registers (cfg : Config) : Settles cfg OpenRegistered OpenWaits where
  busy hw := by cases hw <;> exact ⟨nofun, nofun⟩
  start f m := by
    cases f with
    | openUni id =>
        simp only [handleFrame]
        split_ifs
        · exact .inr (.inl rfl)
        · exact .inr (.inl rfl)
        · exact .inl (.validate id false)
    | openBi id =>
        simp only [handleFrame]
        split_ifs
        · exact .inr (.inl rfl)
        · exact .inr (.inl rfl)
        · exact .inl (.validate id true)
    | _ =>
        refine .inr (.inr ?_)
        intro bi id hf
        cases bi <;> cases hf
  next hw hn := by
    cases hw with
    | validate id bi =>
        simp only [Task.next] at hn
        split_ifs at hn <;> cases hn
        · exact .inl (.register id bi)
        all_goals exact .inr (.inl rfl)
    | register id bi =>
        simp only [Task.next] at hn
        split at hn <;> cases hn
        · exact .inr (.inl rfl)
        · -- the stream is registered
          refine .inr (.inr ?_)
          intro bi' id' hf
          cases openFrame_inj hf
          exact List.mem_append_right _ List.mem_cons_self
  handling hw := by
    cases hw with
    | validate id bi => exact .validate id bi
    | register id bi => exact .register id bi

/-- The handled opens of a run are registered, unless the inbound task ends. -/
theorem opens_settled (hr : Reachable (Session.step cfg) ok {} s) :
    ∀ f ∈ s.inb.handled, Settled OpenRegistered OpenWaits s.view f := by
  induction hr with
  | init => nofun
  | @step s s' l hr hok hs ih =>
      refine (open_registers cfg).step hs (fun f _ hP bi id hf => ?_) ih
      obtain ⟨a, ha⟩ := (Session.moves_of_step hs).mem_eq
      rw [show s'.mem = s.mem.apply a from ha]
      exact Memory.recvRegistered_apply a (hP bi id hf)

/-- **The streams of the opens before the present frame are registered.** -/
theorem registered_of_handling (hr : Reachable (Session.step cfg) ok {} s) {t : Task}
    (ht : t ∈ s.tasks) (hin : t.inHandle = true) (hfail : t.failing = false) {bi : Bool}
    (hopen : ∀ f, ¬ OpenWaits f t) (hf : openFrame bi id ∈ s.inb.handled) :
    id ∈ s.mem.recvs.registered := by
  obtain ⟨cursor, hp⟩ := running_of_inHandle hr ht hin
  have h0 : s.view.tasks[0]? = some t := Session.tasks_inb hp
  rcases opens_settled hr _ hf with hP | (hl | ⟨q, hq, hfq⟩) | ⟨q, hq, hw⟩
  · exact hP bi id rfl
  · rw [Session.listening_view hp rfl] at hl
    cases hl
  · rw [h0] at hq
    cases hq
    rw [hfail] at hfq
    cases hfq
  · rw [h0] at hq
    cases hq
    exact absurd hw (hopen _)

end WebsockMux.Native
