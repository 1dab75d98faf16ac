import Mathlib.Data.Finset.Card
import WebsockMux.Native.Limits

/-!
# Send directions

The `send_flows` table of `SessionInner` and what the handles of one send direction share: its
`SendFlowState` and the `finished`, `operation` and `api_mode` flags of `SendStream`.

A `HashMap` keyed by stream identifier is the finite set of its keys; the value of a key lies in
the cell of that identifier. Registration makes the cell afresh, so a cell stands for the `Arc`
that the table and the handles of the stream share.
-/

set_option autoImplicit false

namespace WebsockMux.Native

open WebsockMux.Proto

/-- What the handles of one send direction share. -/
structure SendCell where
  maxData : Nat := 0
  sentData : Nat := 0
  flowClosed : Bool := false
  finished : Bool := false
  operation : Bool := false
  apiMode : Nat := 0

/-- The send table and the cells. `registered` is a history: the identifiers that were registered,
in order. -/
structure SendTable where
  flows : Finset StreamId := ∅
  cell : StreamId → SendCell := fun _ => {}
  registered : List StreamId := []

/-- A write access to a send direction: one atomic operation or one critical section. -/
inductive SendAccess where
  /-- The insertion at the end of `register_send_flow`. -/
  | register (id : StreamId)
  /-- `remove_send_flow`. -/
  | remove (id : StreamId)
  /-- `close_all` closes every flow and clears the table. -/
  | clear
  /-- `update_max` on the flow of the table. -/
  | updateMax (id : StreamId) (max : Nat)
  /-- The `compare_exchange` of `select_api` succeeds. -/
  | selectApi (id : StreamId) (mode : Nat)
  /-- `operation` is swapped to `true`, or stored `false` when the guard is dropped. -/
  | setOperation (id : StreamId) (on : Bool)
  /-- The `compare_exchange` of `try_reserve` succeeds. -/
  | reserve (id : StreamId) (n : Nat)
  /-- The `fetch_sub` of `release`. -/
  | release (id : StreamId) (n : Nat)
  /-- `finished` is set. -/
  | finish (id : StreamId)

/-- `AtomicU64::fetch_sub`, which wraps around below zero. -/
def fetchSub (a n : Nat) : Nat := if n ≤ a then a - n else a + 2 ^ 64 - n

theorem fetchSub_of_le {a n : Nat} (h : n ≤ a) : fetchSub a n = a - n := if_pos h

namespace SendTable

/-- Change the cell of a send direction. -/
def modify (s : SendTable) (id : StreamId) (g : SendCell → SendCell) : SendTable :=
  { s with cell := Function.update s.cell id (g (s.cell id)) }

/-- `register_send_flow` after its checks: a fresh flow without credit, and the fresh flags of the
`SendStream` that will hold it. -/
def registerSendFlow (s : SendTable) (id : StreamId) : SendTable where
  flows := insert id s.flows
  cell := Function.update s.cell id {}
  registered := s.registered ++ [id]

/-- `remove_send_flow`: the flow is removed and closed under the lock. -/
def removeSendFlow (s : SendTable) (id : StreamId) : SendTable :=
  { s.modify id fun c => { c with flowClosed := c.flowClosed || decide (id ∈ s.flows) } with
    flows := s.flows.erase id }

/-- The last step of `close_all`. -/
def closeAll (s : SendTable) : SendTable :=
  { s with
    flows := ∅
    cell := fun id =>
      { s.cell id with flowClosed := (s.cell id).flowClosed || decide (id ∈ s.flows) } }

/-- `update_max`. Only the inbound task raises the limit, and it holds the lock under which the
flow is closed, so the loop of the source ends at its first `compare_exchange`. -/
def updateMax (s : SendTable) (id : StreamId) (max : Nat) : SendTable :=
  s.modify id fun c =>
    if id ∈ s.flows ∧ c.flowClosed = false ∧ c.maxData < max then { c with maxData := max } else c

/-- One access. -/
def apply (s : SendTable) : SendAccess → SendTable
  | .register id => s.registerSendFlow id
  | .remove id => s.removeSendFlow id
  | .clear => s.closeAll
  | .updateMax id max => s.updateMax id max
  | .selectApi id mode => s.modify id fun c => { c with apiMode := mode }
  | .setOperation id on => s.modify id fun c => { c with operation := on }
  | .reserve id n => s.modify id fun c => { c with sentData := c.sentData + n }
  | .release id n => s.modify id fun c => { c with sentData := fetchSub c.sentData n }
  | .finish id => s.modify id fun c => { c with finished := true }

end SendTable

end WebsockMux.Native
