import Mathlib.Data.Int.Notation
import Mathlib.Logic.Function.Basic
import Tipcutils.Lib.Lts

/-!
# `Ptts.Sync` — `sendSyncTIPC` and `recvSyncTIPC` over the TIPC name table

A synchronisation signal is a TIPC name: the sender binds a socket to it and waits there for one message, the
receiver watches for the name through the topology server, sends that message to the name, and waits until the name
is gone. The two parties run on two nodes. Each node has its own copy of the name table, kept up to date
by updates that travel in order from the other node; topology events of a subscription arrive in order; a
subscription to a name that exists yields `TIPC_PUBLISHED` at once; a message to a bound name is delivered to
its socket. With `TIPC_SUB_SERVICE` a subscription reports the first name that appears and the last that goes.

The two functions are cut at their socket calls (`Node.act`). The calls that can only fail for want of resources
(`socket`, `bind`, `connect`, `setsockopt`, sending the subscription) succeed here; the four `err()` branches that
depend on what the other party does are kept (`SyncErr`).
-/

namespace Tipcutils
namespace Ptts

open Function

/-! ## Data -/

/-- The two programs of the test suite. -/
inductive Party where
  | client
  | server
deriving DecidableEq

def Party.peer : Party → Party
  | .client => .server
  | .server => .client

@[simp] theorem Party.peer_peer (p : Party) : p.peer.peer = p := by cases p <;> rfl

@[simp] theorem Party.peer_ne (p : Party) : p.peer ≠ p := by cases p <;> decide

theorem Party.eq_or_eq_peer (p q : Party) : q = p ∨ q = p.peer := by cases p <;> cases q <;> decide

/-- `sendSyncTIPC` or `recvSyncTIPC`. -/
inductive Dir where
  | send
  | recv
deriving DecidableEq

def Dir.dual : Dir → Dir
  | .send => .recv
  | .recv => .send

/-- One call of `sendSyncTIPC(sigInstance)` or `recvSyncTIPC(sigInstance)`. -/
structure SyncStep where
  dir : Dir
  sigInstance : ℤ
deriving DecidableEq

/-- The same call on the other side. -/
def SyncStep.dual (s : SyncStep) : SyncStep := ⟨s.dir.dual, s.sigInstance⟩

@[simp] theorem SyncStep.dual_dual (s : SyncStep) : s.dual.dual = s := by
  obtain ⟨dir, id⟩ := s
  cases dir <;> rfl

@[simp] theorem SyncStep.dual_comp_dual : SyncStep.dual ∘ SyncStep.dual = id := funext SyncStep.dual_dual

/-- A port identity: the node and a reference that is unique on that node. -/
structure Port where
  owner : Party
  ref : ℕ
deriving DecidableEq

/-- A name of type `TS_SYNCRO_TYPE` with the port that is bound to it. -/
structure Name where
  sigInstance : ℤ
  port : Port
deriving DecidableEq

/-- A change of one node's names, on its way to the other node. -/
inductive Update where
  | publish (x : Name)
  | withdraw (x : Name)

/-- `struct tipc_event`, as far as it is read: its kind and the port it is about. -/
structure Event where
  published : Bool
  port : Port

/-- An acknowledgement: the port it is addressed to, its length, and (for the record) the step it was sent in. -/
structure Ack where
  port : Port
  size : ℕ
  step : ℕ

/-- The `err()` branches that depend on the other party. -/
inductive SyncErr where
  | notAcknowledged
  | notPublished
  | cantAcknowledge
  | notWithdrawn
deriving DecidableEq

/-- The text that `err` prints. -/
def SyncErr.text : SyncErr → String
  | .notAcknowledged => "synchronization signal not acknowledged"
  | .notPublished => "Signal %d not detected\n"
  | .cantAcknowledge => "can't acknowledge synchronization signal"
  | .notWithdrawn => "Signal %d not detected\n"

/-- Where a party is: between two calls, in `sendSyncTIPC` (`bound`, `acknowledged`), in `recvSyncTIPC`
    (`subscribed`, `detected`, `ackSent`, `ended`), or in `err`. -/
inductive SyncPc where
  | idle
  | bound
  | acknowledged
  | subscribed
  | detected
  | ackSent
  | ended
  | failed (e : SyncErr)
deriving DecidableEq

/-- One party with its node. -/
structure Node where
  /-- the calls still to make, the current one first -/
  todo : List SyncStep
  completed : ℕ
  pc : SyncPc
  /-- the names bound on this node -/
  own : List Name
  /-- the names of the other node, as this node's table has them -/
  remote : List Name
  /-- the subscription on `sockfd_S`, and the events that wait there -/
  sub : Option ℤ
  events : List Event
  /-- the messages that wait on the bound socket -/
  inbox : List Ack
  /-- updates and acknowledgements on their way out -/
  updates : List Update
  acks : List Ack

/-! ## The name table of a node -/

namespace Node

variable (n : Node)

/-- Look a name up; a name on the own node comes first. -/
def find (sigInstance : ℤ) : Option Name := (n.own ++ n.remote).find? (fun x => decide (x.sigInstance = sigInstance))

/-- The subscription reports `x` if it covers it and the table has no other name like it. -/
def report (published : Bool) (x : Name) : Node :=
  if n.sub = some x.sigInstance ∧ n.find x.sigInstance = none then
    { n with events := n.events ++ [⟨published, x.port⟩] }
  else n

/-- `bind`: publish a name of this node. -/
def bind (x : Name) : Node :=
  let n' := n.report true x
  { n' with own := n'.own ++ [x], updates := n'.updates ++ [.publish x] }

/-- Close the socket that is bound to `x`: what waits there is lost, and the name is withdrawn. -/
def unbind (x : Name) : Node :=
  { ({ n with own := n.own.erase x } : Node).report false x with
    inbox := []
    updates := n.updates ++ [.withdraw x] }

/-- An update arrives from the other node. -/
def learn : Update → Node
  | .publish x =>
    let n' := n.report true x
    { n' with remote := n'.remote ++ [x] }
  | .withdraw x => ({ n with remote := n.remote.erase x } : Node).report false x

/-- A message arrives at a port of this node; without a socket there it is lost. -/
def receive (m : Ack) : Node :=
  if n.own.any (fun x => decide (x.port = m.port)) then { n with inbox := n.inbox ++ [m] } else n

/-- The next call is done. -/
def next (rest : List SyncStep) : Node := { n with pc := .idle, completed := n.completed + 1, todo := rest }

/-- The next socket call of `sendSyncTIPC` or `recvSyncTIPC`; `none` when it blocks or nothing is left to do. -/
def act (p : Party) : Option Node :=
  match n.pc, n.todo with
  -- `sendSyncTIPC`
  | .idle, ⟨.send, id⟩ :: _ => some { n.bind ⟨id, p, n.completed⟩ with pc := .bound }
  | .bound, _ =>
    match n.inbox with
    | [] => none
    | m :: rest =>
      some { n with inbox := rest, pc := if m.size = 1 then .acknowledged else .failed .notAcknowledged }
  | .acknowledged, ⟨_, id⟩ :: rest => some ((n.unbind ⟨id, p, n.completed⟩).next rest)
  -- `recvSyncTIPC`
  | .idle, ⟨.recv, id⟩ :: _ =>
    some { n with
      pc := .subscribed
      sub := some id
      events := match n.find id with
        | some x => [⟨true, x.port⟩]
        | none => [] }
  | .subscribed, _ =>
    match n.events with
    | [] => none
    | e :: rest => some { n with events := rest, pc := if e.published then .detected else .failed .notPublished }
  | .detected, ⟨_, id⟩ :: _ =>
    match n.find id with
    | some x => some { n with acks := n.acks ++ [⟨x.port, 1, n.completed⟩], pc := .ackSent }
    | none => some { n with pc := .failed .cantAcknowledge }
  | .ackSent, _ =>
    match n.events with
    | [] => none
    | e :: rest => some { n with events := rest, pc := if e.published then .failed .notWithdrawn else .ended }
  | .ended, _ :: rest => some (({ n with sub := none, events := [] } : Node).next rest)
  | _, _ => none

end Node

/-! ## The two parties together -/

/-- Both parties with their nodes. -/
abbrev State := Party → Node

/-- One move: a socket call of a party, or an update or acknowledgement of its node arrives. -/
inductive Move where
  | act (p : Party)
  | update (p : Party)
  | ack (p : Party)

/-- One move of the pair. -/
def step (s : State) : Move → Option State
  | .act p => ((s p).act p).map (Function.update s p)
  | .update p =>
    match (s p).updates with
    | [] => none
    | u :: rest =>
      let s' : State := Function.update s p { s p with updates := rest }
      some (Function.update s' p.peer ((s' p.peer).learn u))
  | .ack p =>
    match (s p).acks with
    | [] => none
    | m :: rest =>
      let s' : State := Function.update s p { s p with acks := rest }
      some (Function.update s' m.port.owner ((s' m.port.owner).receive m))

/-- A party between two calls, with nothing bound, watched or under way. -/
def Node.idle (k : ℕ) (todo : List SyncStep) : Node where
  todo := todo
  completed := k
  pc := .idle
  own := []
  remote := []
  sub := none
  events := []
  inbox := []
  updates := []
  acks := []

/-- The calls of a party when the client makes `steps`. -/
def script (steps : List SyncStep) : Party → List SyncStep
  | .client => steps
  | .server => steps.map SyncStep.dual

/-- Before the first call. -/
def start (steps : List SyncStep) : State := fun p => .idle 0 (script steps p)

end Ptts
end Tipcutils
