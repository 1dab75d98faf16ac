import WebsockMux.Lib.Pool
import WebsockMux.Native.Reading
import WebsockMux.Native.SendDirection

/-!
# One receive direction

What the functions of a session do to one receive direction, apart from all other streams: an
abstract machine like that of a send direction (`SendDirection`). Its state has the cell of the
stream, the frames about it in the outbound queue and the frames for it that were handled; a
`RecvRole` says what a function in progress holds: the right to register the stream, the duty to
publish its first credit, a frame that was handled and not yet delivered.

Two facts about the whole session enter as propositions: `dead`, the session ends, and `blocked`, no
further frame will be handled. A step may depend on their values after it.
-/

set_option autoImplicit false

namespace WebsockMux.Native

open WebsockMux.Lib

/-- A frame about a receive direction in the outbound queue. -/
inductive RecvItem where
  | openBi
  | credit (max : Nat)
  | stop
  deriving DecidableEq

/-- A receive direction. `own` says that this session has opened the stream, `inTable` and `pending`
that it is a key of `streams` and of `pending_credit`. -/
structure RecvDirection where
  own : Bool
  allocated : Bool
  registered : Nat
  inTable : Bool
  pending : Bool
  cell : RecvCell
  log : List RecvItem
  got : List SendItem
  dead : Prop
  blocked : Prop

/-- What an access means for a receive direction. -/
inductive RecvChange where
  | none
  | advance (below : Bool)
  | register (window : Nat)
  | remove
  | clear
  | clearCredit
  | stop
  | swapStop
  | read (r : RecvStream) (events : List RecvEvent)
  | storeMax (target : Nat)
  /-- `queue_credit` of any stream; `full` says that the table was pruned. -/
  | prune (full : Bool)
  | queueCredit (full : Bool) (target : Nat)
  | takeCredit
  | receive (n : Nat)
  | deliver (e : RecvEvent)
  | dropTx
  | closeReceiver
  | hold (on : Bool)
  | item (x : RecvItem)
  /-- The stream is put into an accept queue. -/
  | share

namespace RecvDirection

/-- The event of a handled frame. -/
def event : SendItem → Option RecvEvent
  | .stream data fin => some ⟨data, fin⟩
  | .reset => none

/-- The events of the handled frames. -/
def gotEvents (d : RecvDirection) : List RecvEvent := d.got.filterMap event

/-- Whether the event channel has a sender. -/
def hasSender (d : RecvDirection) : Bool := d.inTable || d.cell.txHeld

/-- Change the cell. -/
def modify (d : RecvDirection) (g : RecvCell → RecvCell) : RecvDirection :=
  { d with cell := g d.cell }

/-- Whether an entry of `pending_credit` survives the pruning. -/
def kept (d : RecvDirection) (full : Bool) : Bool := d.pending && (d.inTable || !full)

/-- The direction after a change. -/
def apply (d : RecvDirection) : RecvChange → RecvDirection
  | .none => d
  | .advance below => { d with allocated := d.allocated || below }
  | .register window =>
      { d with
        registered := d.registered + 1
        inTable := true
        cell := { maxData := window, reader := { granted := window, receiverOpen := true } } }
  | .remove => { d with inTable := false }
  | .clear => { d with inTable := false }
  | .clearCredit => { d with pending := false }
  | .stop => { d.modify fun c => { c with stopped := true } with pending := false }
  | .swapStop => d.modify fun c => { c with reader := { c.reader with stopSent := true } }
  | .read r events => d.modify fun c => { c with reader := r, events := events }
  | .storeMax target => d.modify fun c => { c with maxData := target }
  | .prune full => { d with pending := d.kept full }
  | .queueCredit full target =>
      { d.modify fun c =>
          { c with credit := if d.kept full then max c.credit target else target } with
        pending := true }
  | .takeCredit =>
      { d.modify fun c => { c with credits := c.credits ++ [c.credit] } with pending := false }
  | .receive n => d.modify fun c => { c with received := c.received + n, txHeld := true }
  | .deliver e => d.modify fun c =>
      { c with events := c.events ++ [e], delivered := c.delivered ++ [e] }
  | .dropTx => d.modify fun c => { c with txHeld := false }
  | .closeReceiver => d.modify fun c => { c with reader := { c.reader with receiverOpen := false } }
  | .hold on => d.modify fun c => { c with reader := { c.reader with held := on } }
  | .item x => { d with log := d.log ++ [x] }
  | .share => d

/-- The direction after a change, with what is then known of the session. -/
def after (d : RecvDirection) (e : RecvChange) (dead blocked : Prop) : RecvDirection :=
  { d.apply e with dead := dead, blocked := blocked }

end RecvDirection

/-- What a function in progress holds of a receive direction. -/
inductive RecvRole where
  | none
  /-- The right to register the stream. -/
  | token
  /-- `open_bi` has registered the stream and has still to publish the open. -/
  | opening
  /-- The first credit has still to be published. -/
  | crediting
  /-- A reference to the stream. -/
  | ref
  /-- A read; a new limit that it has still to store, and to queue. -/
  | reading
  | storing (target : Nat)
  | queueing (target : Nat)
  /-- `stop` has set `stop_sent` and has still to mark the table. -/
  | marking
  /-- The drop of a stream has marked the table and has still to set `stop_sent`. -/
  | dropping
  /-- `StopSending` has still to be published. -/
  | stopping
  /-- `handle_frame` has a `Stream` frame: before its checks, and before the delivery. -/
  | arriving (e : RecvEvent)
  | delivering (e : RecvEvent)
  /-- `handle_frame` has delivered a FIN and has still to remove the stream. -/
  | ending
  /-- `handle_frame` has a `ResetStream` frame. -/
  | resetArrived
  deriving DecidableEq

namespace RecvRole

/-- The right to register. -/
def tokens : RecvRole → Nat
  | token => 1
  | _ => 0

/-- The reader of the stream. -/
def readers : RecvRole → Nat
  | reading => 1
  | storing _ => 1
  | queueing _ => 1
  | _ => 0

/-- The role has the stream, as its owner or by a borrow. -/
def owns : RecvRole → Bool
  | none => false
  | token => false
  | arriving _ => false
  | delivering _ => false
  | ending => false
  | resetArrived => false
  | _ => true

/-- The role has a frame of the stream. -/
def arrives : RecvRole → Bool
  | arriving _ => true
  | delivering _ => true
  | ending => true
  | resetArrived => true
  | _ => false

/-- The role refers to a registered stream. -/
def uses (r : RecvRole) : Bool :=
  match r with
  | delivering _ => true
  | ending => true
  | r => r.owns

/-- A role that ended, or that only keeps a reference. -/
def light : RecvRole → Bool
  | none => true
  | ref => true
  | _ => false

theorem light_cases {r : RecvRole} (h : r.light = true) : r = none ∨ r = ref := by
  cases r with
  | none => exact .inl rfl
  | ref => exact .inr rfl
  | _ => cases h

/-- What follows a `Stream` frame: the removal of the stream after a FIN. -/
def afterEvent (e : RecvEvent) : RecvRole := if e.fin then ending else none

theorem afterEvent_cases (e : RecvEvent) :
    (e.fin = true ∧ afterEvent e = ending) ∨ (e.fin = false ∧ afterEvent e = none) := by
  unfold afterEvent
  cases e.fin with
  | false => exact .inr ⟨rfl, rfl⟩
  | true => exact .inl ⟨rfl, rfl⟩

end RecvRole

open RecvStream (Reads)

/-- **What a role may do to a direction**: the change and the role after it. `dead` and `blocked` are
what holds of the session after the step. -/
inductive RecvDirection.Step (l : Limits) (d : RecvDirection) (dead blocked : Prop) :
    RecvRole → RecvChange → RecvRole → Prop where
  | stay (r) : Step l d dead blocked r .none r
  | lower {r'} (hr' : r'.light) : Step l d dead blocked .ref .none r'
  | refuse : Step l d dead blocked .token .none .none
  | advance (r below) : Step l d dead blocked r (.advance below) r
  | allocate (h : d.allocated = false) : Step l d dead blocked .none (.advance true) .token
  | register (h : d.own = true) :
      Step l d dead blocked .token (.register l.initialStreamWindow) .opening
  | registerPeer : Step l d dead blocked .token (.register l.initialStreamWindow) .crediting
  | acquire (h : 0 < d.registered) (ho : d.own = false) : Step l d dead blocked .none .none .ref
  | share : Step l d dead blocked .ref .share .none
  | hold : Step l d dead blocked .ref (.hold true) .none
  | publishOpen : Step l d dead blocked .opening (.item .openBi) .crediting
  | openFail (h : dead) : Step l d dead blocked .opening .none .ref
  | publishCredit :
      Step l d dead blocked .crediting (.item (.credit l.initialStreamWindow)) .ref
  | creditFail (h : dead) : Step l d dead blocked .crediting .none .ref
  | read {r events taken r'}
      (h : Reads l d.hasSender d.cell.reader d.cell.events r events taken none)
      (hr' : r' = .none ∨ r' = .reading) : Step l d dead blocked .reading (.read r events) r'
  | readGrant {r events taken target}
      (h : Reads l d.hasSender d.cell.reader d.cell.events r events taken (some target)) :
      Step l d dead blocked .reading (.read r events) (.storing target)
  | readEnd : Step l d dead blocked .reading .none .none
  | storeMax {target} :
      Step l d dead blocked (.storing target) (.storeMax target) (.queueing target)
  | queue {target full} (h : d.inTable = true) (hs : d.cell.stopped = false) :
      Step l d dead blocked (.queueing target) (.queueCredit full target) .none
  | queueSkip {target} (h : d.inTable = false ∨ d.cell.stopped = true) :
      Step l d dead blocked (.queueing target) .none .none
  | queueFull {target full} (h : dead) :
      Step l d dead blocked (.queueing target) (.prune full) .none
  | prune (r full) : Step l d dead blocked r (.prune full) r
  | swapStop : Step l d dead blocked .ref .swapStop .marking
  | mark (h : d.inTable = true) : Step l d dead blocked .marking .stop .stopping
  | markSkip (h : d.inTable = false) : Step l d dead blocked .marking .none .none
  | dropMark : Step l d dead blocked .ref .stop .dropping
  | dropFinished {r'} (hf : d.cell.reader.finished = true) (hr' : r'.light) :
      Step l d dead blocked .ref .stop r'
  | dropSwap : Step l d dead blocked .dropping .swapStop .stopping
  | dropSkip {r'} (h : d.cell.reader.stopSent = true) (hr' : r'.light) :
      Step l d dead blocked .dropping .none r'
  | publishStop {r'} (hr' : r'.light) : Step l d dead blocked .stopping (.item .stop) r'
  | stopFail {r'} (h : dead) (hr' : r'.light) : Step l d dead blocked .stopping .none r'
  | closeReceiver (r) : Step l d dead blocked r .closeReceiver r
  | dropTx (r) : Step l d dead blocked r .dropTx r
  | receive {e} (h : d.inTable = true) (hs : d.cell.stopped = false)
      (hm : d.cell.received + e.data.length ≤ d.cell.maxData) :
      Step l d dead blocked (.arriving e) (.receive e.data.length) (.delivering e)
  | receiveStopped {e} (h : d.inTable = true) (hs : d.cell.stopped = true)
      (hm : d.cell.received + e.data.length ≤ d.cell.maxData) :
      Step l d dead blocked (.arriving e) (.receive e.data.length) (.afterEvent e)
  | refuseData {e} (h : dead) (hb : blocked) : Step l d dead blocked (.arriving e) .none .none
  | deliver {e} (h : d.cell.reader.receiverOpen = true) :
      Step l d dead blocked (.delivering e) (.deliver e) (.afterEvent e)
  | deliverClosed {e} (h : d.cell.reader.receiverOpen = false) :
      Step l d dead blocked (.delivering e) .none (.afterEvent e)
  | deliverFull {e} (h : dead) (hb : blocked) : Step l d dead blocked (.delivering e) .none .none
  | removeFin : Step l d dead blocked .ending .remove .none
  | resetRemove : Step l d dead blocked .resetArrived .remove .none
  | resetUnknown (h : d.inTable = false) : Step l d dead blocked .resetArrived .none .none
  | undoRemove (h : dead) : Step l d dead blocked .ref .remove .ref
  | clear (r) (h : dead) : Step l d dead blocked r .clear r
  | clearCredit (r) (h : dead) : Step l d dead blocked r .clearCredit r

/-- The role of `handle_frame` for a frame of the direction. -/
inductive RecvDirection.Arrives (dead blocked : Prop) : SendItem → RecvRole → Prop where
  | stream (data : List UInt8) (fin : Bool) :
      Arrives dead blocked (.stream data fin) (.arriving ⟨data, fin⟩)
  /-- A frame over the limit for one frame is refused. -/
  | refuse (data : List UInt8) (fin : Bool) (h : dead) (hb : blocked) :
      Arrives dead blocked (.stream data fin) .none
  | reset : Arrives dead blocked .reset .resetArrived

/-- **The direction with its pool of roles.** The role at index 0 is that of the inbound task. What
is known of the session, `dead` and `blocked`, stays known. -/
inductive RecvDirection.PoolStep (l : Limits) (d : RecvDirection) (rs : List RecvRole)
    (dead blocked : Prop) : RecvDirection → List RecvRole → Prop where
  | act {i : Nat} {r r' : RecvRole} {e : RecvChange} (hi : rs[i]? = some r)
      (hs : d.Step l dead blocked r e r') :
      PoolStep l d rs dead blocked (d.after e dead blocked) (rs.set i r')
  /-- The inbound task takes a frame. -/
  | arrive {x : SendItem} {r' : RecvRole} (hi : rs[0]? = some .none) (hnb : ¬ d.blocked)
      (hx : Arrives dead blocked x r') :
      PoolStep l d rs dead blocked
        { d with got := d.got ++ [x], dead := dead, blocked := blocked } (rs.set 0 r')
  /-- The application starts an operation that does not concern the stream. -/
  | spawn : PoolStep l d rs dead blocked (d.after .none dead blocked) (rs ++ [.none])
  /-- The application starts an operation on a stream that it holds. -/
  | borrow {r : RecvRole} {e : RecvChange} (hr : r = .ref ∨ r = .reading)
      (he : e = .none ∨ e = .hold false) (hh : d.cell.reader.held = true)
      (hone : total RecvRole.readers (rs ++ [r]) ≤ 1) :
      PoolStep l d rs dead blocked (d.after e dead blocked) (rs ++ [r])
  /-- The outbound task takes a credit. -/
  | takeCredit (h : d.pending = true) :
      PoolStep l d rs dead blocked (d.after .takeCredit dead blocked) rs
  /-- Something else happens to the session. -/
  | idle : PoolStep l d rs dead blocked (d.after .none dead blocked) rs

end WebsockMux.Native
