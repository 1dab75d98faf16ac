import WebsockMux.Parity.Calls

/-!
# Native and browser sessions implement the same protocol

Both sessions start as clients with the same limits, and the same things happen to them: frames
arrive, the application opens, accepts, reads, stops and drops streams, and the writer takes frames
and credits (`Event`). A function of the native session runs alone until it returns or waits.

As long as no outbound, accept or event queue is full and the sessions are not shutting down, each
event has the same outcome in both, and leaves both in the same protocol state (`same_protocol`).
-/

set_option autoImplicit false

namespace WebsockMux.Parity

open WebsockMux.Lib WebsockMux.Proto
open WebsockMux.Native (Limits Task ReadApi Call Use Access)
open WebsockMux.Wasm (config)

/-! ## Events and their outcomes -/

/-- What happens to a session: a frame arrives, the application makes a call, or the writer takes a
frame from the queue or a credit of a stream. -/
inductive Event where
  | frame (f : Frame)
  | openUni
  | openBi
  | accept (bi : Bool)
  | read (id : StreamId) (api : ReadApi) (n : Nat)
  | stop (id : StreamId) (code : Nat)
  | dropRecv (id : StreamId)
  | cloneSend (h : Nat)
  | dropSend (h : Nat)
  | takeFrame
  | takeCredit (id : StreamId)
  deriving DecidableEq

/-- The call of the native session. -/
def Event.call : Event → Option Call
  | .openUni => some .openUni
  | .openBi => some .openBi
  | .accept bi => some (.accept bi)
  | .read id api n => some (.read id api n)
  | .stop id code => some (.stop id code)
  | .dropRecv id => some (.dropRecv id)
  | .cloneSend h => some (.cloneSend h)
  | .dropSend h => some (.dropSend h)
  | _ => none

/-- What comes of an event. `handle_frame` succeeds, fails because the session closes, or is a
protocol error with a connection code; a call returns or waits. -/
inductive Outcome where
  | ok
  | closed
  | protocolError (code : Nat) (reason : String)
  | returned
  | waits
  deriving DecidableEq

/-- The connection code and reason of the last frame that was placed on the queue, if it is a
`ConnectionClose`. `before` are the frames placed before. -/
def closeOf (before after : List Frame) : Option (Nat × String) :=
  match (after.drop before.length).getLast? with
  | some (.connectionClose code reason) => some (code, reason)
  | _ => none

/-- The outcome of `handle_frame` in the native session. -/
def nativeOutcome (before after : List Frame) : Bool → Outcome
  | true => .ok
  | false => (closeOf before after).elim .closed fun p => .protocolError p.1 p.2

/-- The outcome of `handle_frame` in the browser. -/
def wasmOutcome (before after : List Frame) : Except Wasm.Error Unit → Outcome
  | .ok () => .ok
  | .error (.protocol reason) =>
      .protocolError ((closeOf before after).elim 0 Prod.fst) reason
  | .error _ => .closed

/-- A call that waits for a stream or for an event. -/
def waiting : Task → Bool
  | .read _ _ _ => true
  | .accept _ => true
  | _ => false

/-- **An event of the native session**, whose function meets no full queue. -/
inductive NativeStep (l : Limits) (m : Native.Memory) :
    Event → Native.Memory → Outcome → Prop where
  | frame {f : Frame} {m' : Native.Memory} {ok : Bool}
      (hu : (Native.handleFrame (config l) f).Unhindered (config l) m)
      (hr : (Native.handleFrame (config l) f).runAlone (config l) m = Part.some (m', .handled ok)) :
      NativeStep l m (.frame f) m' (nativeOutcome m.chan.admitted m'.chan.admitted ok)
  | returned {e : Event} {c : Call} {u : Use} {a : Access} {t : Task} {m' : Native.Memory}
      (hc : e.call = some c) (hs : c.start m = some (u, a, t))
      (hu : t.Unhindered (config l) (m.apply a))
      (hr : t.runAlone (config l) (m.apply a) = Part.some (m', .done)) :
      NativeStep l m e m' .returned
  | waits {e : Event} {c : Call} {u : Use} {a : Access} {t t' : Task} {m' : Native.Memory}
      (hc : e.call = some c) (hs : c.start m = some (u, a, t))
      (hu : t.Unhindered (config l) (m.apply a))
      (hr : t.runAlone (config l) (m.apply a) = Part.some (m', t')) (ht : waiting t' = true) :
      NativeStep l m e m' .waits
  | takeFrame (hq : m.chan.queue ≠ []) :
      NativeStep l m .takeFrame (m.apply (.chan .pop)) .returned
  | takeCredit {id : StreamId} (hid : id ∈ m.recvs.pendingCredit) :
      NativeStep l m (.takeCredit id) (m.apply (.recv (.takeCredit id))) .returned

/-- **An event of the browser session.** -/
inductive WasmStep (l : Limits) (w : Wasm.Memory) : Event → Wasm.Memory → Outcome → Prop where
  | frame {f : Frame} : WasmStep l w (.frame f) (w.handleFrame l f).1
      (wasmOutcome w.chan.admitted (w.handleFrame l f).1.chan.admitted (w.handleFrame l f).2)
  | openUni : WasmStep l w .openUni (w.openUni l).1 .returned
  | openBi : WasmStep l w .openBi (w.openBi l).1 .returned
  | acceptUni {r : Wasm.Memory × Except Wasm.Error StreamId} (h : w.acceptUni = some r) :
      WasmStep l w (.accept false) r.1 .returned
  | acceptUniWaits (h : w.acceptUni = none) : WasmStep l w (.accept false) w .waits
  | acceptBi {r : Wasm.Memory × Except Wasm.Error (Nat × StreamId)} (h : w.acceptBi = some r) :
      WasmStep l w (.accept true) r.1 .returned
  | acceptBiWaits (h : w.acceptBi = none) : WasmStep l w (.accept true) w .waits
  | read {id : StreamId} {api : ReadApi} {n : Nat} {w' : Wasm.Memory}
      (hh : (w.recvs.cell id).reader.held = true) (h : ReadCall l id api n w (some w')) :
      WasmStep l w (.read id api n) w' .returned
  | readWaits {id : StreamId} {api : ReadApi} {n : Nat}
      (hh : (w.recvs.cell id).reader.held = true) (h : ReadCall l id api n w none) :
      WasmStep l w (.read id api n) w .waits
  | stop {id : StreamId} {code : Nat} (hh : (w.recvs.cell id).reader.held = true) :
      WasmStep l w (.stop id code) (w.stop l id code).1 .returned
  | dropRecv {id : StreamId} (hh : (w.recvs.cell id).reader.held = true) :
      WasmStep l w (.dropRecv id) (w.dropRecv l id) .returned
  | cloneSend {h : Nat} {x : Wasm.SendStream} (hx : w.handles[h]? = some x)
      (hh : x.held = true) : WasmStep l w (.cloneSend h) (w.cloneSend x) .returned
  | dropSend {h : Nat} {x : Wasm.SendStream} (hx : w.handles[h]? = some x) (hh : x.held = true) :
      WasmStep l w (.dropSend h) (w.dropSend l h x.id) .returned
  | takeFrame (hq : w.chan.queue ≠ []) :
      WasmStep l w .takeFrame { w with chan := w.chan.pop } .returned
  | takeCredit {id : StreamId} (hid : id ∈ w.recvs.pendingCredit) :
      WasmStep l w (.takeCredit id) { w with recvs := w.recvs.apply (.takeCredit id) } .returned

/-- A run: each event happens to a session that is open. -/
inductive EventRun {σ : Type} (isOpen : σ → Prop) (step : σ → Event → σ → Outcome → Prop) :
    σ → List Event → σ → List Outcome → Prop where
  | nil (s : σ) : EventRun isOpen step s [] s []
  | cons {s s₁ s' : σ} {e : Event} {o : Outcome} {es : List Event} {os : List Outcome}
      (ho : isOpen s) (hs : step s e s₁ o) (hr : EventRun isOpen step s₁ es s' os) :
      EventRun isOpen step s (e :: es) s' (o :: os)

/-- The browser session is open. -/
def WasmOpen (w : Wasm.Memory) : Prop := w.closed = false ∧ w.shutdownStarted = false

/-- A run of a native session that starts as a client. -/
def NativeRun (l : Limits) : List Event → Native.Memory → List Outcome → Prop :=
  EventRun Native.Memory.IsOpen (NativeStep l) {}

/-- A run of a browser session. -/
def WasmRun (l : Limits) : List Event → Wasm.Memory → List Outcome → Prop :=
  EventRun WasmOpen (WasmStep l) {}

/-! ## One event -/

section Step

variable {l : Limits} {m m' : Native.Memory} {w w' : Wasm.Memory} {e : Event}

/-- An event that can happen to a session. -/
def Event.Enabled (m : Native.Memory) : Event → Prop
  | .read id _ _ => (m.recvs.cell id).reader.held = true
  | .stop id _ => (m.recvs.cell id).reader.held = true
  | .dropRecv id => (m.recvs.cell id).reader.held = true
  | .cloneSend h => ∃ x, m.handles[h]? = some x ∧ x.held = true
  | .dropSend h => ∃ x, m.handles[h]? = some x ∧ x.held = true
  | .takeFrame => m.chan.queue ≠ []
  | .takeCredit id => id ∈ m.recvs.pendingCredit
  | _ => True

/-- The function of an event meets no full queue in the native session. -/
def Event.Unhindered (l : Limits) (m : Native.Memory) (e : Event) : Prop :=
  (∀ f, e = .frame f → (Native.handleFrame (config l) f).Unhindered (config l) m) ∧
  ∀ c u a t, e.call = some c → c.start m = some (u, a, t) → t.Unhindered (config l) (m.apply a)

theorem closeOf_self (before : List Frame) : closeOf before before = none := by
  unfold closeOf
  rw [List.drop_length]
  rfl

theorem closeOf_append (before fs : List Frame) (code : Nat) (reason : String) :
    closeOf before (before ++ fs ++ [.connectionClose code reason]) = some (code, reason) := by
  unfold closeOf
  rw [List.append_assoc, List.drop_left, List.getLast?_concat]

/-- `handle_frame` has the same outcome. -/
theorem Ends.outcome_eq {before : List Frame} {ok : Bool} {r : Except Wasm.Error Unit}
    (h : Ends before m ok r) :
    wasmOutcome before m.chan.admitted r = nativeOutcome before m.chan.admitted ok := by
  cases h with
  | ok => rfl
  | closed h =>
      unfold nativeOutcome
      rw [h, closeOf_self]
      rfl
  | protocolError h =>
      unfold wasmOutcome nativeOutcome
      rw [h, closeOf_append]
      rfl

/-- A call that returns is a step of the native session. -/
theorem Returns.step {c : Call} {u : Use} {a : Access} {t : Task} (h : Returns l (m.apply a) t w)
    (hc : e.call = some c) (hs : c.start m = some (u, a, t)) (hu : e.Unhindered l m) :
    ∃ m', NativeStep l m e m' .returned ∧ Linked m' w := by
  obtain ⟨m', hgo, hl⟩ := h
  exact ⟨m', .returned hc hs (hu.2 c u a t hc hs) (hgo.runAlone_end rfl), hl⟩

/-- A call on a receive stream that the application has. -/
theorem onRecv_of_held {id : StreamId} {x : Use × Access × Task}
    (h : (m.recvs.cell id).reader.held = true) : Call.onRecv m id x = some x := if_pos h

theorem held_of_onRecv {id : StreamId} {x y : Use × Access × Task}
    (h : Call.onRecv m id x = some y) : (m.recvs.cell id).reader.held = true := by
  unfold Call.onRecv at h
  split_ifs at h with hheld
  exact hheld

/-- The handles of the two sessions correspond. -/
theorem Linked.handle (h : Linked m w) {i : Nat} {y : Native.SendHandle}
    (hy : m.handles[i]? = some y) :
    ∃ x, w.handles[i]? = some x ∧ x.id = y.id ∧ x.held = y.held := by
  have hget : (w.handles[i]?).map wasmHandle = some (nativeHandle y) := by
    rw [← List.getElem?_map, h.handles, List.getElem?_map, hy]
    rfl
  obtain ⟨x, hx, hxy⟩ := Option.map_eq_some_iff.1 hget
  simp only [wasmHandle, nativeHandle, Prod.mk.injEq] at hxy
  exact ⟨x, hx, hxy.1, hxy.2.1⟩

/-- **An event has the same outcome in both sessions**, and keeps the link. -/
theorem Linked.step (h : Linked m w) (ho : m.IsOpen) (hen : e.Enabled m) (hu : e.Unhindered l m) :
    ∃ m' w' o, NativeStep l m e m' o ∧ WasmStep l w e w' o ∧ Linked m' w' := by
  cases e with
  | frame f =>
      have huf := hu.1 f rfl
      obtain ⟨m', ok, hgo, hl, hends⟩ := h.handleFrame ho huf
      refine ⟨m', _, _, .frame huf (hgo.runAlone_end rfl), ?_, hl⟩
      rw [← hends.outcome_eq, ← hl.admitted, ← h.admitted]
      exact .frame
  | openUni =>
      have hret := h.openUni ho (hu.2 _ _ _ _ rfl rfl)
      obtain ⟨m', hn, hl⟩ := Returns.step (a := .skip) hret rfl rfl hu
      exact ⟨m', _, _, hn, .openUni, hl⟩
  | openBi =>
      have hret := h.openBi ho (hu.2 _ _ _ _ rfl rfl)
      obtain ⟨m', hn, hl⟩ := Returns.step (a := .skip) hret rfl rfl hu
      exact ⟨m', _, _, hn, .openBi, hl⟩
  | accept bi =>
      have hua := hu.2 _ _ _ _ rfl rfl
      cases bi with
      | false =>
          rcases h.acceptUni (l := l) ho with ⟨hw, hn⟩ | ⟨r, hw, hret⟩
          · exact ⟨m, w, .waits, .waits rfl rfl hua (Task.runAlone_end hn) rfl, .acceptUniWaits hw, h⟩
          · obtain ⟨m', hn, hl⟩ := Returns.step (a := .skip) hret rfl rfl hu
            exact ⟨m', _, _, hn, .acceptUni hw, hl⟩
      | true =>
          rcases h.acceptBi (l := l) ho with ⟨hw, hn⟩ | ⟨r, hw, hret⟩
          · exact ⟨m, w, .waits, .waits rfl rfl hua (Task.runAlone_end hn) rfl, .acceptBiWaits hw, h⟩
          · obtain ⟨m', hn, hl⟩ := Returns.step (a := .skip) hret rfl rfl hu
            exact ⟨m', _, _, hn, .acceptBi hw, hl⟩
  | read id api n =>
      have hs : (Call.read id api n).start m = _ := onRecv_of_held hen
      have hheld : (w.recvs.cell id).reader.held = true := by
        rw [h.recvs]
        exact hen
      rcases h.read (l := l) id api n with ⟨hcall, hn⟩ | ⟨w', hcall, hret⟩
      · exact ⟨m, w, .waits, .waits rfl hs (hu.2 _ _ _ _ rfl hs) (Task.runAlone_end hn) rfl,
          .readWaits hheld hcall, h⟩
      · obtain ⟨m', hn, hl⟩ := Returns.step (a := .skip) hret rfl hs hu
        exact ⟨m', _, _, hn, .read hheld hcall, hl⟩
  | stop id code =>
      have hs : (Call.stop id code).start m = _ := onRecv_of_held hen
      have hheld : (w.recvs.cell id).reader.held = true := by
        rw [h.recvs]
        exact hen
      have hret := h.stop ho (hu.2 _ _ _ _ rfl hs)
      obtain ⟨m', hn, hl⟩ := Returns.step (a := .skip) hret rfl hs hu
      exact ⟨m', _, _, hn, .stop hheld, hl⟩
  | dropRecv id =>
      have hs : (Call.dropRecv id).start m = _ := onRecv_of_held hen
      have hheld : (w.recvs.cell id).reader.held = true := by
        rw [h.recvs]
        exact hen
      have hret := h.dropRecvCall ho (hu.2 _ _ _ _ rfl hs)
      obtain ⟨m', hn, hl⟩ := Returns.step hret rfl hs hu
      exact ⟨m', _, _, hn, .dropRecv hheld, hl⟩
  | cloneSend i =>
      obtain ⟨y, hy, hheld⟩ := hen
      obtain ⟨x, hx, hid, hxh⟩ := h.handle hy
      have hs : (Call.cloneSend i).start m =
          some (.send i false, .handle (.new y.id true), .done) := by
        simp only [Call.start, Call.onSend, hy, hheld, if_true]
      have hl : Linked (m.apply (.handle (.new y.id true))) (w.cloneSend x) := by
        have hnew := (h.newSend y.id true).1
        rw [← hid] at hnew ⊢
        exact hnew
      obtain ⟨m', hn, hl⟩ := Returns.step (.done hl) rfl hs hu
      exact ⟨m', _, _, hn, .cloneSend hx (hxh.trans hheld), hl⟩
  | dropSend i =>
      obtain ⟨y, hy, hheld⟩ := hen
      obtain ⟨x, hx, hid, hxh⟩ := h.handle hy
      have hs : (Call.dropSend i).start m =
          some (.send i true, .handle (.hold i false), .dropSend i y.id .done) := by
        simp only [Call.start, Call.onSend, hy, hheld, if_true]
      have hret := h.dropSendCall ho (hu.2 _ _ _ _ rfl hs)
      obtain ⟨m', hn, hl⟩ := Returns.step hret rfl hs hu
      rw [← hid] at hl
      exact ⟨m', _, _, hn, .dropSend hx (hxh.trans hheld), hl⟩
  | takeFrame =>
      have hq : w.chan.queue ≠ [] := by
        intro hnil
        rw [Event.Enabled, h.queue, hnil] at hen
        exact hen rfl
      exact ⟨_, _, _, .takeFrame hen, .takeFrame hq, h.pop⟩
  | takeCredit id =>
      have hid : id ∈ w.recvs.pendingCredit := by
        rw [h.recvs]
        exact hen
      exact ⟨_, _, _, .takeCredit hen, .takeCredit hid, h.recv (by rintro _ _ ⟨⟩)⟩

/-! ## Each session has one outcome -/

/-- A native event can happen, and its function meets no full queue. -/
theorem NativeStep.enabled {o : Outcome} (h : NativeStep l m e m' o) :
    e.Enabled m ∧ e.Unhindered l m := by
  have hcall : ∀ {c : Call} {u : Use} {a : Access} {t : Task}, e.call = some c →
      c.start m = some (u, a, t) → t.Unhindered (config l) (m.apply a) →
      e.Enabled m ∧ e.Unhindered l m := by
    intro c u a t hc hs hu
    refine ⟨?_, ?_, ?_⟩
    · cases e with
      | frame f | takeFrame | takeCredit id => cases hc
      | openUni | openBi | accept bi => trivial
      | read id api n | stop id code | dropRecv id =>
          cases hc
          exact held_of_onRecv hs
      | cloneSend i | dropSend i =>
          cases hc
          simp only [Call.start, Call.onSend] at hs
          split at hs
          · next x hx =>
            split_ifs at hs with hheld
            exact ⟨x, hx, hheld⟩
          · cases hs
    · rintro f rfl
      cases hc
    · intro c' u' a' t' hc' hs'
      rw [hc] at hc'
      cases hc'
      rw [hs] at hs'
      cases hs'
      exact hu
  cases h with
  | frame hu hr =>
      refine ⟨trivial, ?_, by rintro _ _ _ _ ⟨⟩⟩
      rintro _ ⟨⟩
      exact hu
  | returned hc hs hu hr => exact hcall hc hs hu
  | waits hc hs hu hr ht => exact hcall hc hs hu
  | takeFrame hq => exact ⟨hq, by rintro _ ⟨⟩, by rintro _ _ _ _ ⟨⟩⟩
  | takeCredit hid => exact ⟨hid, by rintro _ ⟨⟩, by rintro _ _ _ _ ⟨⟩⟩

/-- An event of the browser can happen to the native session. -/
theorem WasmStep.enabled {o : Outcome} (h : WasmStep l w e w' o) (hl : Linked m w) : e.Enabled m := by
  have hhandle : ∀ {i : Nat} {x : Wasm.SendStream}, w.handles[i]? = some x → x.held = true →
      ∃ y, m.handles[i]? = some y ∧ y.held = true := by
    intro i x hx hh
    have hget : (m.handles[i]?).map nativeHandle = some (wasmHandle x) := by
      rw [← List.getElem?_map, ← hl.handles, List.getElem?_map, hx]
      rfl
    obtain ⟨y, hy, hxy⟩ := Option.map_eq_some_iff.1 hget
    simp only [wasmHandle, nativeHandle, Prod.mk.injEq] at hxy
    exact ⟨y, hy, hxy.2.1.trans hh⟩
  have hrecv : ∀ {id : StreamId}, (w.recvs.cell id).reader.held = true →
      (m.recvs.cell id).reader.held = true := by
    intro id hh
    rw [← hl.recvs]
    exact hh
  cases h with
  | read hh h => exact hrecv hh
  | readWaits hh h => exact hrecv hh
  | stop hh => exact hrecv hh
  | dropRecv hh => exact hrecv hh
  | cloneSend hx hh => exact hhandle hx hh
  | dropSend hx hh => exact hhandle hx hh
  | takeFrame hq =>
      intro hnil
      rw [hl.queue] at hnil
      exact hq (List.map_eq_nil_iff.1 hnil)
  | takeCredit hid =>
      rw [Event.Enabled, ← hl.recvs]
      exact hid
  | _ => trivial

/-- A native event has one outcome. -/
theorem NativeStep.unique {o o' : Outcome} {m'' : Native.Memory} (h : NativeStep l m e m' o)
    (h' : NativeStep l m e m'' o') : m' = m'' ∧ o = o' := by
  cases h with
  | frame hu hr =>
      cases h' with
      | frame hu' hr' =>
          rw [hr] at hr'
          cases Part.some_injective hr'
          exact ⟨rfl, rfl⟩
      | returned hc => cases hc
      | waits hc => cases hc
  | returned hc hs hu hr =>
      cases h' with
      | frame => cases hc
      | returned hc' hs' hu' hr' =>
          rw [hc] at hc'
          cases hc'
          rw [hs] at hs'
          cases hs'
          rw [hr] at hr'
          cases Part.some_injective hr'
          exact ⟨rfl, rfl⟩
      | waits hc' hs' hu' hr' ht =>
          rw [hc] at hc'
          cases hc'
          rw [hs] at hs'
          cases hs'
          rw [hr] at hr'
          cases Part.some_injective hr'
          cases ht
      | takeFrame => cases hc
      | takeCredit => cases hc
  | waits hc hs hu hr ht =>
      cases h' with
      | frame => cases hc
      | returned hc' hs' hu' hr' =>
          rw [hc] at hc'
          cases hc'
          rw [hs] at hs'
          cases hs'
          rw [hr] at hr'
          cases Part.some_injective hr'
          cases ht
      | waits hc' hs' hu' hr' ht' =>
          rw [hc] at hc'
          cases hc'
          rw [hs] at hs'
          cases hs'
          rw [hr] at hr'
          cases Part.some_injective hr'
          exact ⟨rfl, rfl⟩
      | takeFrame => cases hc
      | takeCredit => cases hc
  | takeFrame hq =>
      cases h' with
      | returned hc => cases hc
      | waits hc => cases hc
      | takeFrame => exact ⟨rfl, rfl⟩
  | takeCredit hid =>
      cases h' with
      | returned hc => cases hc
      | waits hc => cases hc
      | takeCredit => exact ⟨rfl, rfl⟩

theorem ReadCall.unique {id : StreamId} {api : ReadApi} {n : Nat} {o o' : Option Wasm.Memory}
    (h : ReadCall l id api n w o) (h' : ReadCall l id api n w o') : o = o' := by
  induction h with
  | last hn =>
      cases h' with
      | last => rfl
      | again hp => exact absurd hp (hn _ _)
  | again hp hw hrest ih =>
      cases h' with
      | last hn => exact absurd hp (hn _ _)
      | again hp' hw' hrest' =>
          rw [hw] at hw'
          cases hw'
          exact ih hrest'

/-- An event of the browser has one outcome. -/
theorem WasmStep.unique {o o' : Outcome} {w'' : Wasm.Memory} (h : WasmStep l w e w' o)
    (h' : WasmStep l w e w'' o') : w' = w'' ∧ o = o' := by
  cases h with
  | acceptUni h =>
      cases h' with
      | acceptUni h' =>
          rw [h] at h'
          cases h'
          exact ⟨rfl, rfl⟩
      | acceptUniWaits h' =>
          rw [h] at h'
          cases h'
  | acceptUniWaits h =>
      cases h' with
      | acceptUni h' =>
          rw [h] at h'
          cases h'
      | acceptUniWaits h' => exact ⟨rfl, rfl⟩
  | acceptBi h =>
      cases h' with
      | acceptBi h' =>
          rw [h] at h'
          cases h'
          exact ⟨rfl, rfl⟩
      | acceptBiWaits h' =>
          rw [h] at h'
          cases h'
  | acceptBiWaits h =>
      cases h' with
      | acceptBi h' =>
          rw [h] at h'
          cases h'
      | acceptBiWaits h' => exact ⟨rfl, rfl⟩
  | read hh h =>
      cases h' with
      | read hh' h' =>
          cases h.unique h'
          exact ⟨rfl, rfl⟩
      | readWaits hh' h' => cases h.unique h'
  | readWaits hh h =>
      cases h' with
      | read hh' h' => cases h.unique h'
      | readWaits hh' h' => exact ⟨rfl, rfl⟩
  | cloneSend hx hh =>
      cases h' with
      | cloneSend hx' hh' =>
          rw [hx] at hx'
          cases hx'
          exact ⟨rfl, rfl⟩
  | dropSend hx hh =>
      cases h' with
      | dropSend hx' hh' =>
          rw [hx] at hx'
          cases hx'
          exact ⟨rfl, rfl⟩
  | _ =>
      cases h'
      exact ⟨rfl, rfl⟩

/-- The browser follows the native session. -/
theorem Linked.native_step {o : Outcome} (h : Linked m w) (ho : m.IsOpen) (hs : NativeStep l m e m' o) :
    ∃ w', WasmStep l w e w' o ∧ Linked m' w' := by
  obtain ⟨hen, hu⟩ := hs.enabled
  obtain ⟨m₁, w₁, o₁, hn, hw, hl⟩ := h.step ho hen hu
  obtain ⟨rfl, rfl⟩ := hn.unique hs
  exact ⟨w₁, hw, hl⟩

/-- The native session follows the browser, unless a queue is full. -/
theorem Linked.wasm_step {o : Outcome} (h : Linked m w) (ho : m.IsOpen) (hs : WasmStep l w e w' o)
    (hu : e.Unhindered l m) : ∃ m', NativeStep l m e m' o ∧ Linked m' w' := by
  obtain ⟨m₁, w₁, o₁, hn, hw, hl⟩ := h.step ho (hs.enabled h) hu
  obtain ⟨rfl, rfl⟩ := hw.unique hs
  exact ⟨m₁, hn, hl⟩

theorem Linked.open_iff (h : Linked m w) : WasmOpen w ↔ m.IsOpen := by
  unfold WasmOpen
  rw [h.closed, h.shutdown]
  constructor
  · rintro ⟨hc, hs⟩
    exact ⟨hc, hs⟩
  · intro ho
    exact ⟨ho.closed, ho.shutdown⟩

end Step

/-! ## Runs -/

variable {l : Limits} {es : List Event} {os : List Outcome} {m m₀ : Native.Memory}
  {w w₀ : Wasm.Memory}

/-- The browser has the same run. -/
theorem Linked.run (hr : EventRun Native.Memory.IsOpen (NativeStep l) m₀ es m os) (h : Linked m₀ w₀) :
    ∃ w, EventRun WasmOpen (WasmStep l) w₀ es w os ∧ Linked m w := by
  induction hr generalizing w₀ with
  | nil m => exact ⟨w₀, .nil w₀, h⟩
  | cons ho hs _ ih =>
      obtain ⟨w₁, hw, hl⟩ := h.native_step ho hs
      obtain ⟨w, hrun, hlw⟩ := ih hl
      exact ⟨w, .cons (h.open_iff.2 ho) hw hrun, hlw⟩

theorem wasmRun_unique {os' : List Outcome} {w' : Wasm.Memory}
    (h : EventRun WasmOpen (WasmStep l) w₀ es w os)
    (h' : EventRun WasmOpen (WasmStep l) w₀ es w' os') : w = w' ∧ os = os' := by
  induction h generalizing os' with
  | nil w =>
      cases h'
      exact ⟨rfl, rfl⟩
  | cons ho hs _ ih =>
      cases h' with
      | cons ho' hs' hr' =>
          obtain ⟨rfl, rfl⟩ := hs.unique hs'
          obtain ⟨rfl, rfl⟩ := ih hr'
          exact ⟨rfl, rfl⟩

/-- **Native and browser sessions implement the same protocol.** Both start as clients with the same
limits. Whatever sequence of events a native session has processed without meeting a full queue and
without shutting down before one of them, the browser session processes it too, with the same
outcome of every event. The frontiers, the send flows, the receive streams with their limits, events
and pending credits, and the sequence of the frames placed on the outbound queue are then equal. The
run of the browser is the only one, and what it processes next the native session processes with the
same outcome, unless it meets a full queue. -/
theorem same_protocol (hr : NativeRun l es m os) :
    ∃ w, WasmRun l es w os ∧ Same m w ∧
      (∀ w' os', WasmRun l es w' os' → w' = w ∧ os' = os) ∧
      ∀ e w' o, WasmOpen w → WasmStep l w e w' o → e.Unhindered l m →
        ∃ m', NativeStep l m e m' o ∧ Same m' w' := by
  obtain ⟨w, hw, hl⟩ := Linked.run hr Linked.init
  refine ⟨w, hw, hl.toSame, ?_, ?_⟩
  · intro w' os' hw'
    exact wasmRun_unique hw' hw
  · intro e w' o ho hs hu
    obtain ⟨m', hn, hl'⟩ := hl.wasm_step (hl.open_iff.1 ho) hs hu
    exact ⟨m', hn, hl'.toSame⟩

/-- The events of a native session, computed: each function ends within `n` steps. -/
def nativeEvents (l : Limits) (n : Nat) :
    Native.Memory → List Event → Option (Native.Memory × List Outcome)
  | m, [] => some (m, [])
  | m, e :: es =>
      if m.flags.closed || m.flags.shutdownStarted then none
      else
        match e with
        | .frame f =>
            match (Native.handleFrame (config l) f).upTo (config l) n m with
            | some (m₁, .handled ok) => (nativeEvents l n m₁ es).map fun r =>
                (r.1, nativeOutcome m.chan.admitted m₁.chan.admitted ok :: r.2)
            | _ => none
        | e =>
            match e.call.bind fun c => c.start m with
            | some (_, a, t) =>
                match t.upTo (config l) n (m.apply a) with
                | some (m₁, .done) => (nativeEvents l n m₁ es).map fun r => (r.1, .returned :: r.2)
                | _ => none
            | none => none

theorem nativeEvents_run {n : Nat} (h : nativeEvents l n m₀ es = some (m, os)) :
    EventRun Native.Memory.IsOpen (NativeStep l) m₀ es m os := by
  induction es generalizing m₀ os with
  | nil =>
      cases h
      exact .nil _
  | cons e es ih =>
      unfold nativeEvents at h
      split_ifs at h with ho
      have hopen : m₀.IsOpen := by
        simp only [Bool.or_eq_true, not_or, Bool.not_eq_true] at ho
        exact ⟨ho.1, ho.2⟩
      split at h
      · split at h
        · next m₁ ok hup =>
          obtain ⟨r, hr, heq⟩ := Option.map_eq_some_iff.1 h
          cases heq
          exact .cons hopen (.frame (Task.upTo_spec hup).1 (Task.upTo_spec hup).2) (ih hr)
        · cases h
      · split at h
        · next u a t hstart =>
          split at h
          · next m₁ hup =>
            obtain ⟨r, hr, heq⟩ := Option.map_eq_some_iff.1 h
            obtain ⟨c, hc, hs⟩ := Option.bind_eq_some_iff.1 hstart
            cases heq
            exact .cons hopen (.returned hc hs (Task.upTo_spec hup).1 (Task.upTo_spec hup).2) (ih hr)
          · cases h
        · cases h

/-- A stream is opened by the server, accepted and read, and opened once more, which is an error. -/
theorem same_protocol_run : ∃ es m w, es = [.openBi, .frame (.openUni ⟨3⟩), .accept false,
      .frame (.stream ⟨3⟩ [7] false), .read ⟨3⟩ .read 1, .frame (.openUni ⟨3⟩)] ∧
    NativeRun {} es m [.returned, .ok, .returned, .ok, .returned,
      .protocolError 1 "OpenUni with non-monotonic StreamId"] ∧
    WasmRun {} es w [.returned, .ok, .returned, .ok, .returned,
      .protocolError 1 "OpenUni with non-monotonic StreamId"] ∧
    Same m w ∧ w.chan.admitted.length = 4 := by
  have hexec : (nativeEvents {} 20 {} [.openBi, .frame (.openUni ⟨3⟩), .accept false,
      .frame (.stream ⟨3⟩ [7] false), .read ⟨3⟩ .read 1, .frame (.openUni ⟨3⟩)]).map
        (fun r => (r.2, r.1.chan.admitted.length)) =
      some ([.returned, .ok, .returned, .ok, .returned,
        .protocolError 1 "OpenUni with non-monotonic StreamId"], 4) := by decide +kernel
  obtain ⟨⟨m, os⟩, hrun, heq⟩ := Option.map_eq_some_iff.1 hexec
  obtain ⟨rfl, hlen⟩ := Prod.mk.inj heq
  obtain ⟨w, hw, hsame, -, -⟩ := same_protocol (nativeEvents_run hrun)
  exact ⟨_, m, w, rfl, nativeEvents_run hrun, hw, hsame, by rw [hsame.admitted, hlen]⟩

end WebsockMux.Parity
