import WebsockMux.Lib.Run
import WebsockMux.Native.Session

/-!
# What a step can do

A step of a session, seen as a change of the shared memory, of the functions in progress and of the
frames handled so far (`View`): one function performs its next access, a suspended one is cancelled
or times out, one of the two session tasks goes on to its next function, the application starts an
operation, or a session task performs an access of its own loop (`Moves`). Invariants that speak of
a view need no other case analysis of `Session.step` (`moves_of_step`), and what is said of the next
access of a function needs none of `Task.next` (`Task.Steps`, `steps_of_next`).
-/

set_option autoImplicit false

namespace WebsockMux.Native

open WebsockMux.Lib WebsockMux.Proto

/-- A frame that the decoder can produce. -/
def Decodable (f : Frame) : Prop := ∃ b rest, Frame.decode 64 b = .ok (f, rest)

/-- What a step of a session is seen to change: the memory, the functions in progress, the frames
given to `handle_frame` (a history), and whether the loop of the inbound task is still running. The
function at index 0 is that of the inbound task, the one at index 1 that of the outbound task. -/
structure View where
  mem : Memory
  tasks : List Task
  handled : List Frame
  listening : Bool

/-- The inbound task goes on to its next function: the frames handled so far and whether its loop is
running, after that. -/
inductive Turn (cfg : Config) (v : View) : Task → Task → List Frame → Bool → Prop where
  | frame {f : Frame} (hl : v.listening = true) (hf : Decodable f) :
      Turn cfg v .done (handleFrame cfg f) (v.handled ++ [f]) true
  | refuse (hl : v.listening = true) (code : Nat) (reason : String) :
      Turn cfg v .done (protocolError code reason (.handled false)) v.handled true
  | returned (hl : v.listening = true) : Turn cfg v (.handled true) .done v.handled true
  | failed : Turn cfg v (.handled false) taskFinished v.handled false
  | leave : Turn cfg v .done taskFinished v.handled false

/-- The accesses of the loops of the session tasks, and of the channel itself. -/
inductive LoopAccess (m : Memory) : Access → Prop where
  | skip : LoopAccess m .skip
  | peerClosed : LoopAccess m (.flag .peerClosed)
  | shutdownStarted : LoopAccess m (.flag .shutdownStarted)
  | notify (on : Bool) : LoopAccess m (.flag (.peerCloseNotify on))
  | tryWs (msg : Message) : LoopAccess m (.chan (.tryWs msg))
  | pop : LoopAccess m (.chan .pop)
  | ack (n : Nat) (a : Ack) : LoopAccess m (.chan (.ack n a))
  | takeCredit {id : StreamId} (h : id ∈ m.recvs.pendingCredit) :
      LoopAccess m (.recv (.takeCredit id))
  | assign (h : Nat) : LoopAccess m (.handle (.reserve h))

/-- **What a step can do.** The index is that of the function that performs its next access, if one
does. -/
inductive Moves (cfg : Config) (v : View) : Option Nat → View → Prop where
  | next {i : Nat} {t t' : Task} {a : Access} (hi : v.tasks[i]? = some t)
      (hn : t.next cfg v.mem = some (a, t')) :
      Moves cfg v (some i) { v with mem := v.mem.apply a, tasks := v.tasks.set i t' }
  | cancel {who : Option Nat} {i : Nat} {t t' : Task} (hi : v.tasks[i]? = some t)
      (hc : t.cancelled = some t') : Moves cfg v who { v with tasks := v.tasks.set i t' }
  | timeout {who : Option Nat} {i : Nat} {t t' : Task} (hi : v.tasks[i]? = some t)
      (hc : t.timedOut = some t') : Moves cfg v who { v with tasks := v.tasks.set i t' }
  | abort {who : Option Nat} {t t' : Task} (hi : v.tasks[0]? = some t)
      (ha : t.aborted = some t') : Moves cfg v who { v with tasks := v.tasks.set 0 t' }
  | turn {who : Option Nat} {t t' : Task} {fs : List Frame} {b : Bool}
      (hi : v.tasks[0]? = some t) (ht : Turn cfg v t t' fs b) :
      Moves cfg v who { mem := v.mem, tasks := v.tasks.set 0 t', handled := fs, listening := b }
  | exit {who : Option Nat} (hi : v.tasks[1]? = some .done) :
      Moves cfg v who
        { v with mem := v.mem.apply (.chan .dropRx), tasks := v.tasks.set 1 taskFinished }
  | spawn {who : Option Nat} {c : Call} {u : Use} {a : Access} {t : Task}
      (hc : c.start v.mem = some (u, a, t)) :
      Moves cfg v who { v with mem := v.mem.apply a, tasks := v.tasks ++ [t] }
  | loop {who : Option Nat} {a : Access} {b : Bool} (ha : LoopAccess v.mem a)
      (hb : b = true → v.listening = true) :
      Moves cfg v who { v with mem := v.mem.apply a, listening := b }

/-- A step that cancels no operation. -/
inductive CalmMoves (cfg : Config) (v : View) : Option Nat → View → Prop where
  | next {i : Nat} {t t' : Task} {a : Access} (hi : v.tasks[i]? = some t)
      (hn : t.next cfg v.mem = some (a, t')) :
      CalmMoves cfg v (some i) { v with mem := v.mem.apply a, tasks := v.tasks.set i t' }
  | timeout {who : Option Nat} {i : Nat} {t t' : Task} (hi : v.tasks[i]? = some t)
      (hc : t.timedOut = some t') : CalmMoves cfg v who { v with tasks := v.tasks.set i t' }
  | abort {who : Option Nat} {t t' : Task} (hi : v.tasks[0]? = some t)
      (ha : t.aborted = some t') : CalmMoves cfg v who { v with tasks := v.tasks.set 0 t' }
  | turn {who : Option Nat} {t t' : Task} {fs : List Frame} {b : Bool}
      (hi : v.tasks[0]? = some t) (ht : Turn cfg v t t' fs b) :
      CalmMoves cfg v who
        { mem := v.mem, tasks := v.tasks.set 0 t', handled := fs, listening := b }
  | exit {who : Option Nat} (hi : v.tasks[1]? = some .done) :
      CalmMoves cfg v who
        { v with mem := v.mem.apply (.chan .dropRx), tasks := v.tasks.set 1 taskFinished }
  | spawn {who : Option Nat} {c : Call} {u : Use} {a : Access} {t : Task}
      (hc : c.start v.mem = some (u, a, t)) :
      CalmMoves cfg v who { v with mem := v.mem.apply a, tasks := v.tasks ++ [t] }
  | loop {who : Option Nat} {a : Access} {b : Bool} (ha : LoopAccess v.mem a)
      (hb : b = true → v.listening = true) :
      CalmMoves cfg v who { v with mem := v.mem.apply a, listening := b }

theorem CalmMoves.moves {cfg : Config} {v v' : View} {who : Option Nat}
    (h : CalmMoves cfg v who v') : Moves cfg v who v' := by
  cases h with
  | next hi hn => exact .next hi hn
  | timeout hi hc => exact .timeout hi hc
  | abort hi ha => exact .abort hi ha
  | turn hi ht => exact .turn hi ht
  | exit hi => exact .exit hi
  | spawn hc => exact .spawn hc
  | loop ha hb => exact .loop ha hb

/-- A move is an access, or leaves the memory as it is. -/
theorem Moves.mem_eq {cfg : Config} {v v' : View} {who : Option Nat}
    (hm : Moves cfg v who v') : ∃ a, v'.mem = v.mem.apply a := by
  cases hm with
  | next hi hn => exact ⟨_, rfl⟩
  | exit hi => exact ⟨.chan .dropRx, rfl⟩
  | spawn hc => exact ⟨_, rfl⟩
  | loop ha hb => exact ⟨_, rfl⟩
  | _ => exact ⟨.skip, rfl⟩

/-- The message that a step receives. -/
def Label.message? : Label → Option Message
  | .receive msg => some msg
  | _ => none

/-- The index, among the functions in progress, of the function that a label lets run. -/
def Label.actor : Label → Option Nat
  | .op i => some (i + 2)
  | .inbound => some 0
  | .outbound _ => some 1
  | _ => none

/-- Whether the loop of the inbound task is running. -/
def InPhase.listening : InPhase → Bool
  | .idle => true
  | .decoding _ => true
  | .running _ _ => true
  | _ => false

/-- What a session shows. -/
def Session.view (s : Session) : View where
  mem := s.mem
  tasks := s.tasks
  handled := s.inb.handled
  listening := s.inb.phase.listening

/-- A write that got no credit looks whether the stream or the session is closed. -/
@[elab_as_elim]
theorem outOfCredit_elim {motive : Task → Prop} (w : Writer)
    (check : ∀ fs, motive (.anyOf fs (.noCredit w))) : motive (outOfCredit w) := by
  unfold outOfCredit
  split_ifs <;> exact check _

/-- A write that got credit sends its frame: a direct write awaits a slot, the others poll for it. -/
@[elab_as_elim]
theorem granted_elim {motive : Task → Prop} (c : Chunk) (send : motive (sendFrame (.write c)))
    (poll : motive (.pollReserve c)) : motive (granted c) := by
  unfold granted
  split_ifs
  · exact send
  · exact poll

section Steps

variable (cfg : Config) (m : Memory)

/-- **What a step of a function can be**: the branches of `Task.next`, each with the conditions that
the invariants rely on. -/
inductive Task.Steps : Task → Access → Task → Prop where
  | anyOfNil (c : Check) : Steps (.anyOf [] c) .skip (c.resume cfg false)
  | anyOfSet (f : Flag) (fs : List Flag) (c : Check) (hf : m.flag f = true) :
      Steps (.anyOf (f :: fs) c) .skip (c.resume cfg true)
  | anyOfLast (f : Flag) (c : Check) (hf : ¬ m.flag f = true) :
      Steps (.anyOf [f] c) .skip (c.resume cfg false)
  | anyOf (f : Flag) (fs : List Flag) (c : Check) (hf : ¬ m.flag f = true) (hfs : fs ≠ []) :
      Steps (.anyOf (f :: fs) c) .skip (.anyOf fs c)
  | reserveClosed (s : SendSite) (hrx : m.chan.rxDropped = true) :
      Steps (.reserve s) .skip (s.resume cfg false)
  | reserve (s : SendSite) (hslot : m.chan.hasSlot cfg = true) :
      Steps (.reserve s) (.chan .takeSlot) (.publish s)
  | publish (s : SendSite) (hp : m.sends.mayPublish (s.frame cfg) = true) :
      Steps (.publish s) (.chan (.publish (s.frame cfg))) (s.resume cfg true)
  | unpublished (s : SendSite) (hp : ¬ m.sends.mayPublish (s.frame cfg) = true) :
      Steps (.publish s) (.chan .freeSlot) (s.resume cfg false)
  | trySend (s : TrySite) (k : Ret) :
      Steps (.trySend s k) (.chan (.trySend s.frame)) (s.resume k true)
  | trySendFull (s : TrySite) (k : Ret) : Steps (.trySend s k) .skip (s.resume k false)
  | storeShutdown (k : Ret) : Steps (.storeShutdown k) (.flag .shutdownStarted) (.cancel k)
  | cancel (k : Ret) : Steps (.cancel k) (.flag .cancelled) k.resume
  | closeAllAgain (k : Ret) (hc : m.flags.closed = true) :
      Steps (.closeAll .swapClosed k) .skip k.resume
  | closeAll (c : CloseStep) (k : Ret) : Steps (.closeAll c k) c.access (c.next k)
  | fetchAdd (dir : StreamDir) (id : StreamId)
      (hnew : StreamId.new (m.ids.next dir) cfg.isServer dir = .ok id) :
      Steps (.fetchAdd dir) (.id (.fetchAdd dir)) (.registerSendFlow dir id)
  | fetchAddFailed (dir : StreamDir) : Steps (.fetchAdd dir) (.id (.fetchAdd dir)) .done
  | registerRefused (dir : StreamDir) (id : StreamId) : Steps (.registerSendFlow dir id) .skip .done
  | registerUni (id : StreamId) (href : m.sends.refuses cfg id = none) :
      Steps (.registerSendFlow .uni id) (.send (.register id)) (sendFrame (.openUni id))
  | registerBi (id : StreamId) (href : m.sends.refuses cfg id = none) :
      Steps (.registerSendFlow .bi id) (.send (.register id)) (.registerRecvStream id)
  | registerRecvStream (id : StreamId) :
      Steps (.registerRecvStream id) (.recv (.register id cfg.limits.initialStreamWindow))
        (sendFrame (.openBi id))
  | openReturnUni (id : StreamId) : Steps (.openReturn .uni id) (.handle (.new id true)) .done
  | openReturnBi (id : StreamId) :
      Steps (.openReturn .bi id) (.handle (.new id true)) (.holdRecv id)
  | holdRecv (id : StreamId) : Steps (.holdRecv id) (.recv (.hold id true)) .done
  | undoRecv (id : StreamId) : Steps (.undoRecv id) (.recv (.remove id)) (.undoFlow id true)
  | undoFlowBi (id : StreamId) : Steps (.undoFlow id true) (.send (.remove id)) (.dropRecv id .done)
  | undoFlowUni (id : StreamId) : Steps (.undoFlow id false) (.send (.remove id)) .done
  | selectApi (c : SendCall) (hmode : (m.sends.cell c.id).apiMode = 0) :
      Steps (.selectApi c) (.send (.selectApi c.id c.mode)) c.selected
  | selectApiSame (c : SendCall) (hmode : (m.sends.cell c.id).apiMode = c.mode) :
      Steps (.selectApi c) .skip c.selected
  | selectApiRefused (c : SendCall) : Steps (.selectApi c) .skip .done
  | operationBusy (c : SendCall) : Steps (.swapOperation c) .skip .done
  | swapOperation (c : SendCall) (hop : ¬ (m.sends.cell c.id).operation = true) :
      Steps (.swapOperation c) (.send (.setOperation c.id true)) c.body
  | endOperation (id : StreamId) : Steps (.endOperation id) (.send (.setOperation id false)) .done
  | loadSent (w : Writer) : Steps (.loadSent w) .skip (.loadMax w (m.sends.cell w.id).sentData)
  | outOfCredit (w : Writer) (sent : Nat) (hmax : (m.sends.cell w.id).maxData ≤ sent) :
      Steps (.loadMax w sent) .skip (outOfCredit w)
  | loadMax (w : Writer) (sent : Nat) (hmax : ¬ (m.sends.cell w.id).maxData ≤ sent) :
      Steps (.loadMax w sent) .skip (.casSent w sent (m.sends.cell w.id).maxData)
  | casSent (w : Writer) (sent max : Nat) (hsent : (m.sends.cell w.id).sentData = sent) :
      Steps (.casSent w sent max) (.send (.reserve w.id (w.chunk cfg sent max).grant))
        (granted (w.chunk cfg sent max))
  | casSentFailed (w : Writer) (sent max : Nat) (hsent : ¬ (m.sends.cell w.id).sentData = sent) :
      Steps (.casSent w sent max) .skip (.loadSent w)
  | waitCredit (w : Writer) : Steps (.waitCredit w) .skip (tryReserve w)
  | release (id : StreamId) (n : Nat) :
      Steps (.release id n none) (.send (.release id n)) (.endOperation id)
  | releaseAbort (id : StreamId) (n h : Nat) :
      Steps (.release id n (some h)) (.send (.release id n)) (.abortSend h id)
  | abortSend (h : Nat) (id : StreamId) :
      Steps (.abortSend h id) (.handle (.abort h)) (.endOperation id)
  | abandon (id : StreamId) (n : Nat) :
      Steps (.abandon id n) (.flag .shutdownStarted) (.abandonCancel id)
  | abandonCancel (id : StreamId) : Steps (.abandonCancel id) (.flag .cancelled) (.endOperation id)
  | alreadyFinished (id : StreamId) : Steps (.casFinished id) .skip (.endOperation id)
  | casFinished (id : StreamId) (hfin : ¬ (m.sends.cell id).finished = true) :
      Steps (.casFinished id) (.send (.finish id)) (sendFrame (.finish id))
  | finishRemove (id : StreamId) : Steps (.finishRemove id) (.send (.remove id)) (.endOperation id)
  | resetStore (id : StreamId) (code : Nat) :
      Steps (.resetStore id code) (.send (.finish id)) (.resetRemove id code)
  | resetRemove (id : StreamId) (code : Nat) :
      Steps (.resetRemove id code) (.send (.remove id)) (sendFrame (.reset id code))
  | pollReserveReady (c : Chunk) (hr : m.pollReserve cfg c.h = .ready) :
      Steps (.pollReserve c) .skip (.pollPublish c)
  | pollReserve (c : Chunk) (hr : m.pollReserve cfg c.h = .taken) :
      Steps (.pollReserve c) (.handle (.reserve c.h)) (.pollPublish c)
  | pollReserveWait (c : Chunk) :
      Steps (.pollReserve c) (.handle (.wait c.h)) (.release c.id c.grant none)
  | pollReserveClosed (c : Chunk) (hr : m.pollReserve cfg c.h = .closed) :
      Steps (.pollReserve c) .skip (.release c.id c.grant none)
  | pollPublish (c : Chunk) (hin : c.id ∈ m.sends.flows) :
      Steps (.pollPublish c) (.handle (.sendData c.h c.frame)) (.endOperation c.id)
  | pollUnpublished (c : Chunk) (hin : c.id ∉ m.sends.flows) :
      Steps (.pollPublish c) .skip (.release c.id c.grant (some c.h))
  | shutdownQueued (h : Nat) (id : StreamId)
      (hq : (m.handles[h]?).elim false SendHandle.finQueued = true) :
      Steps (.shutdownReserve h id) .skip (.flushPoll h)
  | shutdownReady (h : Nat) (id : StreamId)
      (hq : ¬ (m.handles[h]?).elim false SendHandle.finQueued = true)
      (hr : m.pollReserve cfg h = .ready) :
      Steps (.shutdownReserve h id) .skip (.shutdownPublish h id)
  | shutdownReserve (h : Nat) (id : StreamId)
      (hq : ¬ (m.handles[h]?).elim false SendHandle.finQueued = true)
      (hr : m.pollReserve cfg h = .taken) :
      Steps (.shutdownReserve h id) (.handle (.reserve h)) (.shutdownPublish h id)
  | shutdownReserveWait (h : Nat) (id : StreamId) :
      Steps (.shutdownReserve h id) (.handle (.wait h)) .done
  | shutdownReserveClosed (h : Nat) (id : StreamId) : Steps (.shutdownReserve h id) .skip .done
  | shutdownPublish (h : Nat) (id : StreamId) (hin : id ∈ m.sends.flows) :
      Steps (.shutdownPublish h id) (.handle (.sendFin h (.stream id [] true)))
        (.shutdownStore h id)
  | shutdownUnpublished (h : Nat) (id : StreamId) (hin : id ∉ m.sends.flows) :
      Steps (.shutdownPublish h id) (.handle (.abort h)) .done
  | shutdownStore (h : Nat) (id : StreamId) :
      Steps (.shutdownStore h id) (.send (.finish id)) (.shutdownRemove h id)
  | shutdownRemove (h : Nat) (id : StreamId) :
      Steps (.shutdownRemove h id) (.send (.remove id)) (.flushPoll h)
  | flushPollNone (h : Nat) : Steps (.flushPoll h) .skip (.flushReserve h)
  | flushPollWait (h : Nat) : Steps (.flushPoll h) .skip .done
  | flushPoll (h n : Nat) (hw : (m.handles[h]?).bind SendHandle.flushWaiter = some n) :
      Steps (.flushPoll h) (.handle (.takeWaiter h)) .done
  | flushReady (h : Nat) (hr : m.pollReserve cfg h = .ready) :
      Steps (.flushReserve h) (.handle (.sendFlush h)) (.flushPoll h)
  | flushReserve (h : Nat) (hr : m.pollReserve cfg h = .taken) :
      Steps (.flushReserve h) (.handle (.reserve h)) (.flushReserve h)
  | flushReserveWait (h : Nat) : Steps (.flushReserve h) (.handle (.wait h)) .done
  | flushReserveClosed (h : Nat) : Steps (.flushReserve h) .skip .done
  | dropSendLast (h : Nat) (id : StreamId) (k : Ret)
      (hone : SendHandle.strongCount m.handles id = 1) :
      Steps (.dropSend h id k) .skip (.dropSendRemove h id k)
  | dropSend (h : Nat) (id : StreamId) (k : Ret)
      (hone : ¬ SendHandle.strongCount m.handles id = 1) :
      Steps (.dropSend h id k) .skip (.releaseHandle h k)
  | dropSendRemove (h : Nat) (id : StreamId) (k : Ret) :
      Steps (.dropSendRemove h id k) (.send (.remove id))
        (.anyOf [.finished id] (.dropSend h id k))
  | releaseHandle (h : Nat) (k : Ret) : Steps (.releaseHandle h k) (.handle (.release h)) k.resume
  | readReturn (id : StreamId) (api : ReadApi) (n : Nat) (r : RecvStream) (es : List RecvEvent)
      (hp : (m.recvs.cell id).reader.poll cfg.limits (m.recvs.hasSender id) api n
        (m.recvs.cell id).events = .ret r es) :
      Steps (.read id api n) (.recv (.read id r es)) .done
  | readAgain (id : StreamId) (api : ReadApi) (n : Nat) (r : RecvStream) (es : List RecvEvent)
      (hp : (m.recvs.cell id).reader.poll cfg.limits (m.recvs.hasSender id) api n
        (m.recvs.cell id).events = .again r es) :
      Steps (.read id api n) (.recv (.read id r es)) (.read id api n)
  | readGrant (id : StreamId) (api : ReadApi) (n : Nat) (r : RecvStream) (es : List RecvEvent)
      (target : Nat)
      (hp : (m.recvs.cell id).reader.poll cfg.limits (m.recvs.hasSender id) api n
        (m.recvs.cell id).events = .grant r es target) :
      Steps (.read id api n) (.recv (.read id r es)) (.storeMax id target)
  | storeMax (id : StreamId) (target : Nat) :
      Steps (.storeMax id target) (.recv (.storeMax id target)) (.queueCredit id target)
  | creditOverflow (id : StreamId) (target : Nat)
      (hin : id ∈ m.recvs.streams ∧ (m.recvs.cell id).stopped = false)
      (hover : m.recvs.creditOverflows cfg.limits.maxOpenStreams id = true) :
      Steps (.queueCredit id target) (.recv (.prune cfg.limits.maxOpenStreams))
        (.storeShutdown .done)
  | queueCredit (id : StreamId) (target : Nat)
      (hin : id ∈ m.recvs.streams ∧ (m.recvs.cell id).stopped = false)
      (hover : ¬ m.recvs.creditOverflows cfg.limits.maxOpenStreams id = true) :
      Steps (.queueCredit id target) (.recv (.queueCredit cfg.limits.maxOpenStreams id target))
        .done
  | noCredit (id : StreamId) (target : Nat)
      (hno : ¬ (id ∈ m.recvs.streams ∧ (m.recvs.cell id).stopped = false)) :
      Steps (.queueCredit id target) .skip .done
  | stopAgain (id : StreamId) (code : Nat) (hs : (m.recvs.cell id).reader.stopSent = true) :
      Steps (.stopSwap id code) .skip .done
  | stopSwap (id : StreamId) (code : Nat) (hs : ¬ (m.recvs.cell id).reader.stopSent = true) :
      Steps (.stopSwap id code) (.recv (.swapStop id)) (.stopMark id code)
  | stopMark (id : StreamId) (code : Nat) (hin : id ∈ m.recvs.streams) :
      Steps (.stopMark id code) (.recv (.stop id)) (sendFrame (.stop id code))
  | stopGone (id : StreamId) (code : Nat) (hin : id ∉ m.recvs.streams) :
      Steps (.stopMark id code) .skip .done
  | dropRecvFinished (id : StreamId) (k : Ret) (hin : id ∈ m.recvs.streams)
      (hfin : (m.recvs.cell id).reader.finished = true) :
      Steps (.dropRecv id k) (.recv (.stop id)) (.closeReceiver id k)
  | dropRecv (id : StreamId) (k : Ret) (hin : id ∈ m.recvs.streams)
      (hfin : ¬ (m.recvs.cell id).reader.finished = true) :
      Steps (.dropRecv id k) (.recv (.stop id)) (.dropRecvSwap id k)
  | dropRecvGone (id : StreamId) (k : Ret) (hin : id ∉ m.recvs.streams) :
      Steps (.dropRecv id k) .skip (.closeReceiver id k)
  | dropRecvAgain (id : StreamId) (k : Ret) (hs : (m.recvs.cell id).reader.stopSent = true) :
      Steps (.dropRecvSwap id k) .skip (.closeReceiver id k)
  | dropRecvSwap (id : StreamId) (k : Ret) (hs : ¬ (m.recvs.cell id).reader.stopSent = true) :
      Steps (.dropRecvSwap id k) (.recv (.swapStop id))
        (.anyOf isClosed (.trySend (.dropRecv id) k))
  | closeReceiver (id : StreamId) (k : Ret) :
      Steps (.closeReceiver id k) (.recv (.closeReceiver id)) k.resume
  | validatePeer (id : StreamId) (bi : Bool) (hv : m.ids.validatePeerStreamId id = true) :
      Steps (.validatePeer id bi) (.id (.peer id)) (.tryRegister id bi)
  | peerRefused (id : StreamId) (bi : Bool) :
      Steps (.validatePeer id bi) .skip (protocolError 1
        (if bi then "OpenBi with non-monotonic StreamId"
          else "OpenUni with non-monotonic StreamId") (.handled false))
  | tryRefused (id : StreamId) (bi : Bool) (code : Nat) (reason : String)
      (href : m.recvs.refuses cfg id = some (code, reason)) :
      Steps (.tryRegister id bi) .skip (protocolError code reason (.handled false))
  | tryRegister (id : StreamId) (bi : Bool) (href : m.recvs.refuses cfg id = none) :
      Steps (.tryRegister id bi) (.recv (.register id cfg.limits.initialStreamWindow))
        (sendFrame (.inboundCredit id bi))
  | flowRefused (id : StreamId) (reason : String) (href : m.sends.refuses cfg id = some reason) :
      Steps (.registerFlow id) .skip
        (protocolError 3 ("protocol error: " ++ reason) (.dropRecv id (.handled false)))
  | registerFlow (id : StreamId) (href : m.sends.refuses cfg id = none) :
      Steps (.registerFlow id) (.send (.register id)) (.newSend id)
  | newSend (id : StreamId) :
      Steps (.newSend id) (.handle (.new id false)) (.acceptLock id (some m.handles.length))
  | acceptLock (id : StreamId) (h : Option Nat) (htx : m.accept.hasTx h.isSome = true) :
      Steps (.acceptLock id h) .skip (.acceptSend id h)
  | acceptLockGone (id : StreamId) (h : Option Nat) (htx : ¬ m.accept.hasTx h.isSome = true) :
      Steps (.acceptLock id h) .skip (acceptDrop id h).resume
  | acceptClosed (id : StreamId) (h : Option Nat) (hrx : (!m.accept.hasRx h.isSome) = true) :
      Steps (.acceptSend id h) .skip (acceptDrop id h).resume
  | acceptFull (id : StreamId) (h : Option Nat) : Steps (.acceptSend id h) .skip
        (protocolError 3 "accept queue full" (acceptDrop id h))
  | acceptSend (id : StreamId) (h : Option Nat) :
      Steps (.acceptSend id h) (.accept (.push id h)) (.handled true)
  | dataRefused (id : StreamId) (data : List UInt8) (fin : Bool) (reason : String)
      (href : m.recvs.refusesData id data.length = some reason) :
      Steps (.receiveData id data fin) .skip (protocolError 2 reason (.handled false))
  | stoppedFin (id : StreamId) (data : List UInt8)
      (href : m.recvs.refusesData id data.length = none)
      (hst : (m.recvs.cell id).stopped = true) :
      Steps (.receiveData id data true) (.recv (.receive id data.length)) (.removeRecv id)
  | stoppedData (id : StreamId) (data : List UInt8)
      (href : m.recvs.refusesData id data.length = none)
      (hst : (m.recvs.cell id).stopped = true) :
      Steps (.receiveData id data false) (.recv (.receive id data.length))
        (.dropTx id (.handled true))
  | receiveData (id : StreamId) (data : List UInt8) (fin : Bool)
      (href : m.recvs.refusesData id data.length = none)
      (hst : ¬ (m.recvs.cell id).stopped = true) :
      Steps (.receiveData id data fin) (.recv (.receive id data.length))
        (.deliver id data fin)
  | closedFin (id : StreamId) (data : List UInt8)
      (ho : (m.recvs.cell id).reader.receiverOpen = false) :
      Steps (.deliver id data true) .skip (.removeRecv id)
  | closedData (id : StreamId) (data : List UInt8)
      (ho : (m.recvs.cell id).reader.receiverOpen = false) :
      Steps (.deliver id data false) .skip (.dropTx id (.handled true))
  | eventsFull (id : StreamId) (data : List UInt8) (fin : Bool)
      (ho : ¬ (m.recvs.cell id).reader.receiverOpen = false) :
      Steps (.deliver id data fin) .skip
        (protocolError 3 "receive queue full" (.dropTx id (.handled false)))
  | deliverFin (id : StreamId) (data : List UInt8)
      (ho : ¬ (m.recvs.cell id).reader.receiverOpen = false)
      (hlen : ¬ cfg.limits.recvEventQueueLen ≤ (m.recvs.cell id).events.length) :
      Steps (.deliver id data true) (.recv (.deliver id ⟨data, true⟩)) (.removeRecv id)
  | deliver (id : StreamId) (data : List UInt8)
      (ho : ¬ (m.recvs.cell id).reader.receiverOpen = false)
      (hlen : ¬ cfg.limits.recvEventQueueLen ≤ (m.recvs.cell id).events.length) :
      Steps (.deliver id data false) (.recv (.deliver id ⟨data, false⟩))
        (.dropTx id (.handled true))
  | removeRecv (id : StreamId) :
      Steps (.removeRecv id) (.recv (.remove id)) (.dropTx id (.handled true))
  | dropTx (id : StreamId) (k : Ret) : Steps (.dropTx id k) (.recv (.dropTx id)) k.resume
  | recvReset (id : StreamId) (hin : id ∈ m.recvs.streams) :
      Steps (.recvReset id) (.recv (.remove id)) (.handled true)
  | resetRetired (id : StreamId) (hin : id ∉ m.recvs.streams) :
      Steps (.recvReset id) .skip (.retired id true)
  | stopFlow (id : StreamId) (code : Nat) (hin : id ∈ m.sends.flows) :
      Steps (.stopFlow id code) (.send (.remove id)) (sendFrame (.inboundReset id code))
  | stopRetired (id : StreamId) (code : Nat) (hin : id ∉ m.sends.flows) :
      Steps (.stopFlow id code) .skip (.retired id false)
  | retired (id : StreamId) (receiving : Bool)
      (hr : m.ids.isRetiredDirection cfg id receiving = true) :
      Steps (.retired id receiving) .skip (.handled true)
  | unknown (id : StreamId) (receiving : Bool) :
      Steps (.retired id receiving) .skip (protocolError 1
        (if receiving then "reset on unknown stream" else "stop on unknown stream")
        (.handled false))
  | updateMax (id : StreamId) (max : Nat) :
      Steps (.updateMax id max) (.send (.updateMax id max)) (.handled true)
  | acceptUni (id : StreamId) (rest : List StreamId) (hq : m.accept.uni = id :: rest) :
      Steps (.accept false) (.accept (.pop false)) (.holdRecv id)
  | acceptBi (h : Nat) (id : StreamId) (rest : List (Nat × StreamId))
      (hq : m.accept.bi = (h, id) :: rest) :
      Steps (.accept true) (.accept (.pop true)) (.holdSend h id)
  | acceptNone (bi : Bool) : Steps (.accept bi) .skip .done
  | holdSend (h : Nat) (id : StreamId) :
      Steps (.holdSend h id) (.handle (.hold h true)) (.holdRecv id)
  | dropSessionLast (hone : m.sessionHandles = 1) :
      Steps .dropSession (.session false) (.storeShutdown (.closeAccept false))
  | dropSession (hone : ¬ m.sessionHandles = 1) : Steps .dropSession (.session false) .done
  | closeAccept (bi : Bool) : Steps (.closeAccept bi) (.accept (.closeRx bi)) (.drainAccept bi)
  | drainUni (id : StreamId) (rest : List StreamId) (hq : m.accept.uni = id :: rest) :
      Steps (.drainAccept false) (.accept (.pop false)) (.dropRecv id (.drainAccept false))
  | drainedUni (hq : m.accept.uni = []) : Steps (.drainAccept false) .skip (.closeAccept true)
  | drainBi (h : Nat) (id : StreamId) (rest : List (Nat × StreamId))
      (hq : m.accept.bi = (h, id) :: rest) :
      Steps (.drainAccept true) (.accept (.pop true))
        (.dropSend h id (.dropRecv id (.drainAccept true)))
  | drainedBi (hq : m.accept.bi = []) : Steps (.drainAccept true) .skip .done
  | alreadyClosed : Steps .sessionShutdown .skip .waitForTasks
  | sessionShutdown : Steps .sessionShutdown .skip .swapShutdown
  | alreadyStarted : Steps .swapShutdown .skip .waitForTasks
  | swapShutdown : Steps .swapShutdown (.flag .shutdownStarted) .shutdownSlot
  | shutdownSlotClosed : Steps .shutdownSlot .skip .shutdownCancel
  | shutdownSlot (hslot : m.chan.hasSlot cfg = true) :
      Steps .shutdownSlot (.chan .takeSlot) .shutdownSend
  | shutdownSend : Steps .shutdownSend (.chan .shutdown) (.shutdownAck m.chan.acks.length)
  | shutdownAckOk (n : Nat) : Steps (.shutdownAck n) .skip .shutdownWait
  | shutdownAckErr (n : Nat) : Steps (.shutdownAck n) .skip .shutdownCancel
  | shutdownAckDropped (n : Nat) : Steps (.shutdownAck n) .skip .shutdownPeer
  | shutdownPeerClosed : Steps .shutdownPeer .skip .shutdownWait
  | shutdownPeer : Steps .shutdownPeer .skip .shutdownCancel
  | shutdownWait : Steps .shutdownWait .skip .shutdownCancel
  | shutdownCancel : Steps .shutdownCancel (.flag .cancelled) .waitForTasks
  | waitForTasks : Steps .waitForTasks .skip .done
  | taskCancel : Steps .taskCancel (.flag .cancelled) .taskDone
  | taskDone : Steps .taskDone .taskDone .done

end Steps

/-- **The branches of `Task.next`.** -/
theorem Task.steps_of_next {cfg : Config} {m : Memory} {t t' : Task} {a : Access}
    (hn : t.next cfg m = some (a, t')) : Task.Steps cfg m t a t' := by
  cases t with
  | anyOf flags c =>
      cases flags with
      | nil =>
          cases hn
          exact .anyOfNil c
      | cons f fs =>
          simp only [Task.next] at hn
          split_ifs at hn with hf hfs
          · cases hn
            exact .anyOfSet f fs c hf
          · subst hfs
            cases hn
            exact .anyOfLast f c hf
          · cases hn
            exact .anyOf f fs c hf hfs
  | closeAll c k =>
      cases c with
      | swapClosed =>
          simp only [Task.next] at hn
          split_ifs at hn with hc
          · cases hn
            exact .closeAllAgain k hc
          · cases hn
            exact .closeAll .swapClosed k
      | _ =>
          cases hn
          exact .closeAll _ k
  | undoFlow id bi =>
      cases bi <;> cases hn <;> constructor
  | receiveData id data fin | deliver id data fin =>
      -- what follows the data depends on `fin`, so it is split before the conditions
      simp only [Task.next] at hn
      cases fin <;> (repeat' split at hn) <;> cases hn <;>
        first | contradiction | (constructor <;> assumption)
  | validatePeer id bi | retired id receiving =>
      simp only [Task.next] at hn
      split at hn <;> cases hn <;> constructor
      assumption
  | _ =>
      -- each of the other branches has one constructor, whose conditions the split has named
      simp only [Task.next] at hn
      repeat' split at hn
      all_goals cases hn
      all_goals constructor <;> assumption

/-- **What a step of the inbound task can be**: the message is used up, a frame is decoded, or none
can be, `handle_frame` has succeeded or failed, a function performs its next access, or the task goes
on in the close that the peer began. -/
inductive Inbound.Steps (cfg : Config) (m : Memory) (b : Inbound) : Access → Inbound → Prop where
  | drained (hp : b.phase = .decoding []) : Steps cfg m b .skip { b with phase := .idle }
  | frame {c : UInt8} {cs rest : List UInt8} {f : Frame} (hp : b.phase = .decoding (c :: cs))
      (hd : Frame.decode 64 (c :: cs) = .ok (f, rest)) :
      Steps cfg m b .skip
        { phase := .running (handleFrame cfg f) rest, handled := b.handled ++ [f] }
  | malformed {c : UInt8} {cs : List UInt8} {e : FrameDecodeError}
      (hp : b.phase = .decoding (c :: cs)) (hd : Frame.decode 64 (c :: cs) = .error e) :
      Steps cfg m b .skip
        { b with phase := .running (protocolError 1 "invalid frame" (.handled false)) [] }
  | returned {cursor : List UInt8} (hp : b.phase = .running (.handled true) cursor) :
      Steps cfg m b .skip { b with phase := .decoding cursor }
  | failed {cursor : List UInt8} (hp : b.phase = .running (.handled false) cursor) :
      Steps cfg m b .skip { b with phase := .ending taskFinished }
  | next {t t' : Task} {a : Access} {cursor : List UInt8} (hp : b.phase = .running t cursor)
      (hn : t.next cfg m = some (a, t')) : Steps cfg m b a { b with phase := .running t' cursor }
  | peerClosed (hp : b.phase = .closing .peerClosed) :
      Steps cfg m b (.flag .peerClosed) { b with phase := .closing .shutdownStarted }
  | shutdownStarted (hp : b.phase = .closing .shutdownStarted) :
      Steps cfg m b (.flag .shutdownStarted) { b with phase := .closing .notify }
  | notify (hp : b.phase = .closing .notify) :
      Steps cfg m b (.flag (.peerCloseNotify true)) { b with phase := .closing .wait }
  | finishing {t t' : Task} {a : Access} (hp : b.phase = .ending t)
      (hn : t.next cfg m = some (a, t')) : Steps cfg m b a { b with phase := .ending t' }

theorem Inbound.steps_of_step {cfg : Config} {m : Memory} {b b' : Inbound} {a : Access}
    (h : b.step cfg m = some (a, b')) : b.Steps cfg m a b' := by
  unfold Inbound.step at h
  split at h
  · cases h
  · cases h
    exact .drained ‹_›
  · split at h
    · cases h
      exact .frame ‹_› ‹_›
    · cases h
      exact .malformed ‹_› ‹_›
  · cases h
    exact .returned ‹_›
  · cases h
    exact .failed ‹_›
  · split at h
    · cases h
      exact .next ‹_› ‹_›
    · cases h
  · cases h
    exact .peerClosed ‹_›
  · cases h
    exact .shutdownStarted ‹_›
  · cases h
    exact .notify ‹_›
  · cases h
  · split at h
    · cases h
      exact .finishing ‹_› ‹_›
    · cases h

/-- **How a call can start**: what it borrows, its access at the call and where its function starts.
A call on a stream is one on a stream that the application has. -/
inductive Call.Starts (m : Memory) : Use → Access → Task → Prop where
  | openStream (dir : StreamDir) : Starts m .session .skip (.fetchAdd dir)
  | accept (bi : Bool) : Starts m .session .skip (.accept bi)
  | shutdown : Starts m .session .skip .sessionShutdown
  | cloneSession : Starts m .free (.session true) .done
  | dropSession : Starts m .free .skip .dropSession
  | write {h : Nat} {x : SendHandle} (hx : m.handles[h]? = some x) (hh : x.held = true)
      (data : List UInt8) :
      Starts m (.send h false) .skip (.selectApi (.write ⟨h, x.id, true, data⟩))
  | finish {h : Nat} {x : SendHandle} (hx : m.handles[h]? = some x) (hh : x.held = true) :
      Starts m (.send h false) .skip (.selectApi (.finish x.id))
  | reset {h : Nat} {x : SendHandle} (hx : m.handles[h]? = some x) (hh : x.held = true)
      (code : Nat) : Starts m (.send h false) .skip (.swapOperation (.reset x.id code))
  | pollWrite {h : Nat} {x : SendHandle} (hx : m.handles[h]? = some x) (hh : x.held = true)
      (data : List UInt8) :
      Starts m (.send h true) .skip (.selectApi (.write ⟨h, x.id, false, data⟩))
  | pollFlush {h : Nat} {x : SendHandle} (hx : m.handles[h]? = some x) (hh : x.held = true) :
      Starts m (.send h true) .skip (.selectApi (.pollFlush h x.id))
  | pollShutdown {h : Nat} {x : SendHandle} (hx : m.handles[h]? = some x) (hh : x.held = true) :
      Starts m (.send h true) .skip (.selectApi (.pollShutdown h x.id))
  | cloneSend {h : Nat} {x : SendHandle} (hx : m.handles[h]? = some x) (hh : x.held = true) :
      Starts m (.send h false) (.handle (.new x.id true)) .done
  | dropSend {h : Nat} {x : SendHandle} (hx : m.handles[h]? = some x) (hh : x.held = true) :
      Starts m (.send h true) (.handle (.hold h false)) (.dropSend h x.id .done)
  | read {id : StreamId} (hh : (m.recvs.cell id).reader.held = true) (api : ReadApi) (n : Nat) :
      Starts m (.recv id true) .skip (.read id api n)
  | stop {id : StreamId} (hh : (m.recvs.cell id).reader.held = true) {code : Nat}
      (hc : code ≤ VarInt.max) : Starts m (.recv id false) .skip (.stopSwap id code)
  | stopRefused {id : StreamId} (hh : (m.recvs.cell id).reader.held = true) :
      Starts m (.recv id false) .skip .done
  | dropRecv {id : StreamId} (hh : (m.recvs.cell id).reader.held = true) :
      Starts m (.recv id true) (.recv (.hold id false)) (.dropRecv id .done)

theorem Call.starts_of_start {m : Memory} {c : Call} {u : Use} {a : Access} {t : Task}
    (h : c.start m = some (u, a, t)) : Call.Starts m u a t := by
  -- a call on a handle that the application has
  have hsend : ∀ {k : Nat} {start : StreamId → Option (Use × Access × Task)},
      Call.onSend m k start = some (u, a, t) →
      ∃ x, m.handles[k]? = some x ∧ x.held = true ∧ start x.id = some (u, a, t) := by
    intro k start hs
    unfold Call.onSend at hs
    split at hs
    · rename_i x hx
      split_ifs at hs with hh
      exact ⟨x, hx, hh, hs⟩
    · cases hs
  have hrecv : ∀ {id : StreamId} {start : Use × Access × Task},
      Call.onRecv m id start = some (u, a, t) →
      (m.recvs.cell id).reader.held = true ∧ start = (u, a, t) := by
    intro id start hs
    unfold Call.onRecv at hs
    split_ifs at hs with hh
    exact ⟨hh, Option.some.inj hs⟩
  cases c with
  | openUni =>
      cases h
      exact .openStream .uni
  | openBi =>
      cases h
      exact .openStream .bi
  | accept bi =>
      cases h
      exact .accept bi
  | shutdown =>
      cases h
      exact .shutdown
  | cloneSession =>
      cases h
      exact .cloneSession
  | dropSession =>
      cases h
      exact .dropSession
  | write k data =>
      simp only [Call.start] at h
      obtain ⟨x, hx, hh, hs⟩ := hsend h
      cases hs
      exact .write hx hh data
  | finish k =>
      simp only [Call.start] at h
      obtain ⟨x, hx, hh, hs⟩ := hsend h
      cases hs
      exact .finish hx hh
  | reset k code =>
      simp only [Call.start] at h
      obtain ⟨x, hx, hh, hs⟩ := hsend h
      cases hs
      exact .reset hx hh code
  | pollWrite k data =>
      simp only [Call.start] at h
      obtain ⟨x, hx, hh, hs⟩ := hsend h
      cases hs
      exact .pollWrite hx hh data
  | pollFlush k =>
      simp only [Call.start] at h
      obtain ⟨x, hx, hh, hs⟩ := hsend h
      cases hs
      exact .pollFlush hx hh
  | pollShutdown k =>
      simp only [Call.start] at h
      obtain ⟨x, hx, hh, hs⟩ := hsend h
      cases hs
      exact .pollShutdown hx hh
  | cloneSend k =>
      simp only [Call.start] at h
      obtain ⟨x, hx, hh, hs⟩ := hsend h
      cases hs
      exact .cloneSend hx hh
  | dropSend k =>
      simp only [Call.start] at h
      obtain ⟨x, hx, hh, hs⟩ := hsend h
      cases hs
      exact .dropSend hx hh
  | read id api n =>
      simp only [Call.start] at h
      obtain ⟨hh, hs⟩ := hrecv h
      cases hs
      exact .read hh api n
  | stop id code =>
      simp only [Call.start] at h
      obtain ⟨hh, hs⟩ := hrecv h
      split_ifs at hs with hc
      · cases hs
        exact .stop hh hc
      · cases hs
        exact .stopRefused hh
  | dropRecv id =>
      simp only [Call.start] at h
      obtain ⟨hh, hs⟩ := hrecv h
      cases hs
      exact .dropRecv hh

/-- **What a step of a session can be**, label by label. -/
inductive Session.Steps (cfg : Config) (s : Session) : Label → Session → Prop where
  | call {c : Call} {owned : Nat} {u : Use} {a : Access} {t : Task}
      (ho : s.ownedAfter c = some owned) (hst : c.start s.mem = some (u, a, t))
      (hb : s.mayBorrow u = true) :
      Steps cfg s (.call c)
        { s with mem := s.mem.apply a, ops := s.ops ++ [⟨u, t⟩], owned := owned }
  | op {i : Nat} {o : Op} {a : Access} {t : Task} (ho : s.ops[i]? = some o)
      (hn : o.task.next cfg s.mem = some (a, t)) : Steps cfg s (.op i) (s.setOp i o a t)
  | cancelOp {i : Nat} {o : Op} {t : Task} (ho : s.ops[i]? = some o)
      (hc : o.task.cancelled = some t) : Steps cfg s (.cancelOp i) (s.setOp i o .skip t)
  | timeout {i : Nat} {o : Op} {t : Task} (ho : s.ops[i]? = some o)
      (hc : o.task.timedOut = some t) : Steps cfg s (.timeout i) (s.setOp i o .skip t)
  | receive {msg : Message} {a : Access} {b : Inbound} (hp : s.inb.phase = .idle)
      (hb : s.inb.receive cfg s.mem msg = some (a, b)) :
      Steps cfg s (.receive msg) { s with mem := s.mem.apply a, inb := b }
  | receiveEnd {b : Inbound} (hb : s.inb.leave = some b) :
      Steps cfg s .receiveEnd { s with inb := b }
  | inbound {a : Access} {b : Inbound} (hb : s.inb.step cfg s.mem = some (a, b)) :
      Steps cfg s .inbound { s with mem := s.mem.apply a, inb := b }
  | inboundCancel {b : Inbound} (hc : s.mem.flags.cancelled = true)
      (hb : s.inb.cancel = some b) : Steps cfg s .inboundCancel { s with inb := b }
  | outbound {c : OutChoice} {a : Access} {o : Outbound}
      (ho : s.out.step cfg s.mem c = some (a, o)) :
      Steps cfg s (.outbound c) { s with mem := s.mem.apply a, out := o }
  | outboundCancel {a : Access} {o : Outbound} (hc : s.mem.flags.cancelled = true)
      (ho : s.out.cancel = some (a, o)) :
      Steps cfg s .outboundCancel { s with mem := s.mem.apply a, out := o }
  | assign {h : Nat} {x : SendHandle} (hx : s.mem.handles[h]? = some x)
      (hw : (x.waiting && x.alive && !s.mem.chan.rxDropped && s.mem.chan.hasSlot cfg) = true) :
      Steps cfg s (.assign h) { s with mem := s.mem.apply (.handle (.reserve h)) }

theorem Session.steps_of_step {cfg : Config} {s s' : Session} {l : Label}
    (h : s.step cfg l = some s') : s.Steps cfg l s' := by
  cases l with
  | call c =>
      simp only [Session.step, Session.call] at h
      split at h
      · rename_i owned u a t ho hst
        split_ifs at h with hb
        cases h
        exact .call ho hst hb
      · cases h
  | op i =>
      simp only [Session.step] at h
      split at h
      · rename_i o ho
        obtain ⟨⟨a, t⟩, hn, rfl⟩ := Option.map_eq_some_iff.1 h
        exact .op ho hn
      · cases h
  | cancelOp i =>
      simp only [Session.step] at h
      split at h
      · rename_i o ho
        obtain ⟨t, hc, rfl⟩ := Option.map_eq_some_iff.1 h
        exact .cancelOp ho hc
      · cases h
  | timeout i =>
      simp only [Session.step] at h
      split at h
      · rename_i o ho
        obtain ⟨t, hc, rfl⟩ := Option.map_eq_some_iff.1 h
        exact .timeout ho hc
      · cases h
  | receive msg =>
      simp only [Session.step] at h
      split at h
      · rename_i hp
        obtain ⟨⟨a, b⟩, hb, rfl⟩ := Option.map_eq_some_iff.1 h
        exact .receive hp hb
      · cases h
  | receiveEnd =>
      obtain ⟨b, hb, rfl⟩ := Option.map_eq_some_iff.1 h
      exact .receiveEnd hb
  | inbound =>
      obtain ⟨⟨a, b⟩, hb, rfl⟩ := Option.map_eq_some_iff.1 h
      exact .inbound hb
  | inboundCancel =>
      simp only [Session.step] at h
      split_ifs at h with hc
      obtain ⟨b, hb, rfl⟩ := Option.map_eq_some_iff.1 h
      exact .inboundCancel hc hb
  | outbound c =>
      obtain ⟨⟨a, o⟩, ho, rfl⟩ := Option.map_eq_some_iff.1 h
      exact .outbound ho
  | outboundCancel =>
      simp only [Session.step] at h
      split_ifs at h with hc
      obtain ⟨⟨a, o⟩, ho, rfl⟩ := Option.map_eq_some_iff.1 h
      exact .outboundCancel hc ho
  | assign k =>
      simp only [Session.step] at h
      split at h
      · rename_i x hx
        split_ifs at h with hw
        cases h
        exact .assign hx hw
      · cases h

/-- The function that a label lets run. -/
def Session.acting (s : Session) (l : Label) : Option Task := l.actor.bind (s.tasks[·]?)

namespace Session

variable {cfg : Config} {s s' : Session} {who : Option Nat}

theorem acting_eq {l : Label} {i : Nat} {t : Task} (hl : l.actor = some i)
    (hi : s.tasks[i]? = some t) : t ∈ s.acting l := by
  unfold acting
  rw [hl]
  exact hi

theorem tasks_op {i : Nat} {o : Op} (h : s.ops[i]? = some o) :
    s.tasks[i + 2]? = some o.task := by
  simp [tasks, h]

theorem view_setOp (i : Nat) (o : Op) (a : Access) (t : Task) :
    (s.setOp i o a t).view =
      { s.view with mem := s.mem.apply a, tasks := s.tasks.set (i + 2) t } := by
  simp [view, tasks, setOp, List.map_set]

theorem moves_call {c : Call} {owned : Nat} {u : Use} {a : Access} {t : Task}
    (hst : c.start s.mem = some (u, a, t)) :
    CalmMoves cfg s.view who { s with
      mem := s.mem.apply a, ops := s.ops ++ [(⟨u, t⟩ : Op)], owned := owned }.view := by
  have ht : { s with
      mem := s.mem.apply a, ops := s.ops ++ [(⟨u, t⟩ : Op)], owned := owned }.view =
      { s.view with mem := s.mem.apply a, tasks := s.tasks ++ [t] } := by
    simp [view, tasks]
  rw [ht]
  exact .spawn (v := s.view) hst

/-- The inbound task stays in the same function. -/
theorem moves_inb_loop {a : Access} {b : Inbound} {p : InPhase} (ha : LoopAccess s.mem a)
    (hp : s.inb.phase = p) (hb : b.phase.task = p.task) (hh : b.handled = s.inb.handled)
    (hl : b.phase.listening = true → p.listening = true) :
    CalmMoves cfg s.view who { s with mem := s.mem.apply a, inb := b }.view := by
  have ht : { s with mem := s.mem.apply a, inb := b }.view =
      { s.view with mem := s.mem.apply a, listening := b.phase.listening } := by
    simp [view, tasks, hb, hh, hp]
  rw [ht]
  exact .loop (v := s.view) ha fun h => (congrArg InPhase.listening hp).trans (hl h)

/-- The function of the inbound task is at index 0, that of the outbound task at index 1. -/
theorem tasks_inb {p : InPhase} (hp : s.inb.phase = p) : s.view.tasks[0]? = some p.task := by
  rw [← hp]
  rfl

theorem tasks_out {p : OutPc} (hp : s.out.pc = p) : s.view.tasks[1]? = some p.task := by
  rw [← hp]
  rfl

theorem listening_view {p : InPhase} (hp : s.inb.phase = p) (hl : p.listening = true) :
    s.view.listening = true := (congrArg InPhase.listening hp).trans hl

/-- The inbound task goes on to another function. -/
theorem moves_inb_turn {b : Inbound} {p : InPhase} (hp : s.inb.phase = p)
    (h : Turn cfg s.view p.task b.phase.task b.handled b.phase.listening) :
    CalmMoves cfg s.view who { s with inb := b }.view :=
  .turn (v := s.view) (tasks_inb hp) h

/-- The function of the inbound task performs its next access. -/
theorem moves_inb_next {a : Access} {p q : InPhase} (hp : s.inb.phase = p)
    (hn : p.task.next cfg s.mem = some (a, q.task)) (hl : q.listening = p.listening) :
    CalmMoves cfg s.view (some 0)
      { s with mem := s.mem.apply a, inb := { s.inb with phase := q } }.view := by
  have ht : { s with mem := s.mem.apply a, inb := { s.inb with phase := q } }.view =
      { s.view with mem := s.mem.apply a, tasks := s.tasks.set 0 q.task } := by
    simp [view, tasks, hl, hp]
  rw [ht]
  exact .next (v := s.view) (tasks_inb hp) hn

theorem moves_inbound {a : Access} {b : Inbound} (h : s.inb.step cfg s.mem = some (a, b)) :
    CalmMoves cfg s.view (some 0) { s with mem := s.mem.apply a, inb := b }.view := by
  cases Inbound.steps_of_step h with
  | drained hp => exact moves_inb_loop .skip hp rfl rfl fun _ => rfl
  | frame hp hd => exact moves_inb_turn hp (.frame (listening_view hp rfl) ⟨_, _, hd⟩)
  | malformed hp hd => exact moves_inb_turn hp (.refuse (listening_view hp rfl) _ _)
  | returned hp => exact moves_inb_turn hp (.returned (listening_view hp rfl))
  | failed hp => exact moves_inb_turn hp .failed
  | next hp hn => exact moves_inb_next hp hn rfl
  | peerClosed hp => exact moves_inb_loop .peerClosed hp rfl rfl id
  | shutdownStarted hp => exact moves_inb_loop .shutdownStarted hp rfl rfl id
  | notify hp => exact moves_inb_loop (.notify true) hp rfl rfl id
  | finishing hp hn => exact moves_inb_next hp hn rfl

theorem moves_receive {a : Access} {b : Inbound} {msg : Message} (hp : s.inb.phase = .idle)
    (h : s.inb.receive cfg s.mem msg = some (a, b)) :
    CalmMoves cfg s.view who { s with mem := s.mem.apply a, inb := b }.view := by
  unfold Inbound.receive at h
  split at h
  · split_ifs at h
    · cases h
      exact moves_inb_turn hp (.refuse (listening_view hp rfl) _ _)
    · cases h
      exact moves_inb_loop .skip hp rfl rfl fun _ => rfl
  · split_ifs at h
    · cases h
      exact moves_inb_loop (.tryWs _) rfl rfl rfl id
    · cases h
      exact moves_inb_loop .skip rfl rfl rfl id
  · cases h
    exact moves_inb_turn hp (.refuse (listening_view hp rfl) _ _)
  · cases h
    exact moves_inb_loop .skip hp rfl rfl fun _ => rfl
  · cases h
    exact moves_inb_loop .skip rfl rfl rfl id

theorem moves_leave {b : Inbound} (h : s.inb.leave = some b) :
    CalmMoves cfg s.view who { s with inb := b }.view := by
  unfold Inbound.leave at h
  split at h
  · rename_i hp
    cases h
    exact moves_inb_turn hp .leave
  · rename_i hp
    cases h
    exact moves_inb_turn hp .leave
  · cases h

theorem moves_inboundCancel {b : Inbound} (h : s.inb.cancel = some b) :
    CalmMoves cfg s.view who { s with inb := b }.view := by
  unfold Inbound.cancel at h
  split at h
  · rename_i t cursor hp
    split at h
    · rename_i t' hc
      cases h
      have ht : { s with inb := { s.inb with phase := .running t' [] } }.view =
          { s.view with tasks := s.tasks.set 0 t' } := by
        simp [view, tasks, hp, InPhase.listening, InPhase.task]
      rw [ht]
      exact .abort (v := s.view) (tasks_inb hp) hc
    · cases h
  · exact moves_leave h

/-- The outbound task stays in its loop. -/
theorem moves_out_loop {a : Access} {o : Outbound} (ha : LoopAccess s.mem a)
    (ho : s.out.pc.task = .done) (ho' : o.pc.task = .done) :
    CalmMoves cfg s.view who { s with mem := s.mem.apply a, out := o }.view := by
  have ht : { s with mem := s.mem.apply a, out := o }.view =
      { s.view with mem := s.mem.apply a } := by
    simp [view, tasks, ho, ho']
  rw [ht]
  exact .loop (v := s.view) ha id

theorem task_proceed (o : Outbound) (k : OutNext) : (o.proceed k).pc.task = .done := by
  cases k <;> rfl

theorem task_flushBatch (o : Outbound) (k : OutNext) : (o.flushBatch k).pc.task = .done := by
  unfold Outbound.flushBatch
  split_ifs
  · exact task_proceed o k
  · rfl

theorem task_process {o o' : Outbound} {c : OutboundCmd} (h : o.process cfg c = some o') :
    o'.pc.task = .done := by
  unfold Outbound.process at h
  split at h
  · split_ifs at h
    · cases h
      rfl
    · split at h
      · cases h
      · split_ifs at h
        · cases h
          exact task_flushBatch _ _
        · cases h
          rfl
  · split_ifs at h
    · cases h
      rfl
    · cases h
      exact task_flushBatch _ _
  · cases h
    exact task_flushBatch _ _
  · cases h
    exact task_flushBatch _ _

theorem task_settle (o : Outbound) (m : Memory) : (o.settle cfg m).pc.task = .done := by
  unfold Outbound.settle
  split_ifs
  · exact task_flushBatch _ _
  · rfl

theorem loopAccess_ack (m : Memory) (a : Ack) (k : OutNext) :
    LoopAccess m (Outbound.ackAccess a k) := by
  cases k <;> first | exact .skip | exact .ack _ _

theorem loopAccess_drop (m : Memory) (k : OutNext) : LoopAccess m (Outbound.dropAccess k) := by
  cases k <;> first | exact .skip | exact .ack _ _

theorem moves_out_failed {k : OutNext} {a : Access} {o : Outbound} (hp : s.out.pc.task = .done)
    (h : some (s.out.failed k) = some (a, o)) :
    CalmMoves cfg s.view who { s with mem := s.mem.apply a, out := o }.view := by
  cases k <;> cases h <;> exact moves_out_loop (by first | exact .skip | exact .ack _ _) hp rfl

theorem moves_outbound {c : OutChoice} {a : Access} {o : Outbound}
    (h : s.out.step cfg s.mem c = some (a, o)) :
    CalmMoves cfg s.view (some 1) { s with mem := s.mem.apply a, out := o }.view := by
  unfold Outbound.step at h
  split at h
  · rename_i hp
    split_ifs at h
    · cases h
      exact moves_out_loop (.notify false) (by rw [hp]; rfl) rfl
    · cases h
      exact moves_out_loop .skip (by rw [hp]; rfl) rfl
  · rename_i hp
    split_ifs at h
    · cases h
      exact moves_out_loop .skip (by rw [hp]; rfl) (task_flushBatch _ _)
    · cases h
      exact moves_out_loop .skip (by rw [hp]; rfl) rfl
  · rename_i hp
    split at h
    · cases h
    · cases h
      exact moves_out_loop .pop (by rw [hp]; rfl) rfl
  · rename_i id hp
    split_ifs at h with hid
    cases h
    exact moves_out_loop (.takeCredit hid.1) (by rw [hp]; rfl) rfl
  · rename_i hp
    cases h
    exact moves_out_loop .skip (by rw [hp]; rfl) rfl
  · rename_i cmd hp
    obtain ⟨o', ho', heq⟩ := Option.map_eq_some_iff.1 h
    cases heq
    exact moves_out_loop .skip (by rw [hp]; rfl) (task_process ho')
  · rename_i hp
    cases h
    exact moves_out_loop .skip (by rw [hp]; rfl) (task_settle _ _)
  · rename_i hp
    cases h
    exact moves_out_loop .skip (by rw [hp]; rfl) rfl
  · rename_i hp
    cases h
    exact moves_out_loop (loopAccess_ack _ _ _) (by rw [hp]; rfl) (task_proceed _ _)
  · rename_i hp
    cases h
    exact moves_out_loop (loopAccess_ack _ _ _) (by rw [hp]; rfl) (task_proceed _ _)
  · rename_i k hp
    exact moves_out_failed (by rw [hp]; rfl) h
  · rename_i k hp
    exact moves_out_failed (by rw [hp]; rfl) h
  · rename_i k hp
    exact moves_out_failed (by rw [hp]; rfl) h
  · rename_i hp
    cases h
    exact .exit (v := s.view) (tasks_out hp)
  · rename_i t hp
    split at h
    · rename_i a t' hn
      cases h
      exact .next (v := s.view) (tasks_out hp) hn
    · cases h
  · cases h

theorem moves_outboundCancel {a : Access} {o : Outbound} (h : s.out.cancel = some (a, o)) :
    CalmMoves cfg s.view who { s with mem := s.mem.apply a, out := o }.view := by
  unfold Outbound.cancel at h
  split at h
  · rename_i hp
    cases h
    exact moves_out_loop .skip (by rw [hp]; rfl) rfl
  · rename_i hp
    cases h
    exact moves_out_loop (loopAccess_drop _ _) (by rw [hp]; rfl) rfl
  · rename_i hp
    cases h
    exact moves_out_loop (loopAccess_drop _ _) (by rw [hp]; rfl) rfl
  · rename_i hp
    cases h
    exact moves_out_loop (loopAccess_drop _ _) (by rw [hp]; rfl) rfl
  · cases h

/-- **Every step but a cancellation is a move that cancels no operation.** -/
theorem calmMoves_of_step {l : Label} (hl : ∀ i, l ≠ .cancelOp i) (h : s.step cfg l = some s') :
    CalmMoves cfg s.view l.actor s'.view := by
  cases steps_of_step h with
  | call ho hst hb => exact moves_call hst
  | op ho hn =>
      rw [view_setOp]
      exact .next (v := s.view) (tasks_op ho) hn
  | cancelOp ho hc => exact absurd rfl (hl _)
  | timeout ho hc =>
      rw [view_setOp]
      exact .timeout (v := s.view) (tasks_op ho) hc
  | receive hp hb => exact moves_receive hp hb
  | receiveEnd hb => exact moves_leave hb
  | inbound hb => exact moves_inbound hb
  | inboundCancel hc hb => exact moves_inboundCancel hb
  | outbound ho => exact moves_outbound ho
  | outboundCancel hc ho => exact moves_outboundCancel ho
  | assign hx hw => exact .loop (v := s.view) (.assign _) id

/-- **Every step is a move.** -/
theorem moves_of_step {l : Label} (h : s.step cfg l = some s') :
    Moves cfg s.view l.actor s'.view := by
  by_cases hl : ∃ i, l = .cancelOp i
  · obtain ⟨i, rfl⟩ := hl
    cases steps_of_step h with
    | cancelOp ho hc =>
        rw [view_setOp]
        exact .cancel (v := s.view) (tasks_op ho) hc
  · exact (calmMoves_of_step (fun i hi => hl ⟨i, hi⟩) h).moves

/-- Only a step that receives a message takes one. -/
theorem receive_or_inbound {l : Label} (hs : s.step cfg l = some s') :
    (∃ msg a, l = .receive msg ∧ s.inb.phase = .idle ∧
      s.inb.receive cfg s.mem msg = some (a, s'.inb)) ∨
    (l.message? = none ∧ (s'.inb = s.inb ∨ s.inb.leave = some s'.inb ∨
      (∃ a, s.inb.step cfg s.mem = some (a, s'.inb)) ∨ s.inb.cancel = some s'.inb)) := by
  cases steps_of_step hs with
  | receive hp hb => exact .inl ⟨_, _, rfl, hp, hb⟩
  | receiveEnd hb => exact .inr ⟨rfl, .inr (.inl hb)⟩
  | inbound hb => exact .inr ⟨rfl, .inr (.inr (.inl ⟨_, hb⟩))⟩
  | inboundCancel hc hb => exact .inr ⟨rfl, .inr (.inr (.inr hb))⟩
  | _ => exact .inr ⟨rfl, .inl rfl⟩

/-- What becomes of the inbound task in a step. -/
inductive InboundMoves (cfg : Config) (m : Memory) (b : Inbound) : Inbound → Prop where
  | same : InboundMoves cfg m b b
  | receive {msg : Message} {a : Access} {b' : Inbound} (hp : b.phase = .idle)
      (hb : b.receive cfg m msg = some (a, b')) : InboundMoves cfg m b b'
  | leave {b' : Inbound} (hb : b.leave = some b') : InboundMoves cfg m b b'
  | next {a : Access} {b' : Inbound} (hb : b.step cfg m = some (a, b')) : InboundMoves cfg m b b'
  | cancel {b' : Inbound} (hb : b.cancel = some b') : InboundMoves cfg m b b'

theorem inboundMoves_of_step {l : Label} (h : s.step cfg l = some s') :
    InboundMoves cfg s.mem s.inb s'.inb := by
  rcases receive_or_inbound h with ⟨msg, a, -, hp, hb⟩ | ⟨-, hb | hb | ⟨a, hb⟩ | hb⟩
  · exact .receive hp hb
  · rw [hb]
    exact .same
  · exact .leave hb
  · exact .next hb
  · exact .cancel hb

/-- The inbound task lets a function that has a next access perform it. -/
theorem inbound_step_running {b : Inbound} {m : Memory} {t t' : Task} {a : Access}
    {cursor : List UInt8} (hp : b.phase = .running t cursor)
    (hn : t.next cfg m = some (a, t')) :
    b.step cfg m = some (a, { b with phase := .running t' cursor }) := by
  unfold Inbound.step
  split <;> rename_i heq <;> rw [hp] at heq <;> cases heq
  · cases hn
  · cases hn
  · rw [hn]

/-- The function that a label lets run performs its next access. -/
theorem mem_of_acting {l : Label} {t t' : Task} {a : Access} (hact : s.acting l = some t)
    (hn : t.next cfg s.mem = some (a, t')) (h : s.step cfg l = some s') :
    s'.mem = s.mem.apply a := by
  cases l with
  | op i =>
      have hi : s.ops[i]?.map Op.task = some t := by
        simpa [acting, Label.actor, tasks] using hact
      obtain ⟨o, ho, rfl⟩ := Option.map_eq_some_iff.1 hi
      simp only [step, ho, hn] at h
      cases h
      rfl
  | inbound =>
      have ht : s.inb.phase.task = t := by
        simpa [acting, Label.actor, tasks] using hact
      obtain ⟨⟨a', b⟩, hb, rfl⟩ := Option.map_eq_some_iff.1 h
      cases hp : s.inb.phase with
      | running u cursor =>
          rw [hp] at ht
          cases ht
          rw [inbound_step_running hp hn] at hb
          cases hb
          rfl
      | ending u =>
          rw [hp] at ht
          obtain rfl : u = t := ht
          simp only [Inbound.step, hp, hn] at hb
          cases hb
          rfl
      | _ =>
          rw [hp] at ht
          cases ht
          cases hn
  | outbound c =>
      have ht : s.out.pc.task = t := by
        simpa [acting, Label.actor, tasks] using hact
      obtain ⟨⟨a', o⟩, ho, rfl⟩ := Option.map_eq_some_iff.1 h
      cases hp : s.out.pc with
      | ending u =>
          rw [hp] at ht
          obtain rfl : u = t := ht
          cases c with
          | ready =>
              simp only [Outbound.step, hp, hn] at ho
              cases ho
              rfl
          | _ =>
              simp only [Outbound.step, hp] at ho
              cases ho
      | _ =>
          rw [hp] at ht
          cases ht
          cases hn
  | _ => cases hact

end Session

end WebsockMux.Native
