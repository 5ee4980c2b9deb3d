import Tipcutils.Lib.Lts
import Tipcutils.Tipcc.Descriptors

/-!
# `Tipcc.TopSubscr` — the loop of the topology service demo

`tipc_c_api_top_subscr` polls its subscriptions for services, nodes and links, and in the slot `pfd[3]` a subscription at
one neighbour. The slot is free when its descriptor is 0. A step is one round of the loop, and its label is what the
calls of this round yield; a `poll` that fails leaves the flags of the round before, and starts a round all the same.

The `trace` is what happens to the descriptors of the neighbour's subscriptions. Not modelled: what is printed, and how
the first three subscriptions are made.
-/

namespace Tipcutils
namespace Tipcc

open Tipc Decimal Fds

/-- The flags of `revents` that are looked at: `POLLIN` of the four descriptors, and `POLLHUP` of the slot. -/
structure Revents where
  in0 : Bool
  in1 : Bool
  in2 : Bool
  in3 : Bool
  hup3 : Bool
deriving DecidableEq

/-- `tipc_neigh_subscr` has left a socket open; something is received from the slot; the slot is closed. -/
inductive SlotEvent where
  | created (d : ℤ)
  | received (d : ℤ)
  | closed (d : ℤ)
deriving DecidableEq

structure TopSubscr where
  proc : Proc
  exited : Bool
  revents : Revents
  /-- `pfd[3].fd` -/
  slot : ℤ
  /-- `pfd[3].events` has been set -/
  armed : Bool
  neighTopsrvnode : UInt32
  trace : List SlotEvent

/-- What the calls of a round yield: `poll` (`none` is -1), `tipc_srv_evt`, `tipc_neigh_evt` on `pfd[1]`, the system
    calls of `tipc_own_node` and of `tipc_neigh_subscr`, `tipc_link_evt`, the system calls of `tipc_linkname`, and
    `tipc_neigh_evt` on the slot. An event is a node, and whether it is up. -/
structure Round where
  poll : Option Revents
  service : Bool
  neigh : Option (UInt32 × Bool)
  ownNode : Sys
  subscr : Sys
  link : Option (UInt32 × Bool)
  linkname : Sys
  second : Option (UInt32 × Bool)

inductive TopLabel where
  | timeout
  | round (r : Round)

namespace TopSubscr

/-- At the loop, with the descriptors `live` open. -/
def start (live : List ℕ) (ownNode : UInt32) : TopSubscr :=
  ⟨⟨.initial live, ownNode, []⟩, false, ⟨false, false, false, false, false⟩, 0, false, 0, []⟩

/-- `tipc_close(pfd[3].fd)`, and the slot is marked free. -/
def closeSlot (s : TopSubscr) : TopSubscr :=
  { s with proc := tipcClose s.slot s.proc, slot := 0, trace := s.trace ++ [.closed s.slot] }

/-- A subscription at the neighbour. -/
def subscribe (s : TopSubscr) (sys : Sys) (node : UInt32) : TopSubscr :=
  let (sd, proc) := tipcNeighSubscr sys s.proc
  { s with
    proc := proc
    -- -1 too, which `poll` ignores and no later round takes for a free slot
    slot := sd
    armed := true
    neighTopsrvnode := node
    trace := if proc.fds.isOpen s.proc.fds.next then s.trace ++ [.created s.proc.fds.next] else s.trace }

variable (r : Round)

/-- The branch for `pfd[0]`. -/
def onService (s : TopSubscr) : TopSubscr := if s.revents.in0 ∧ !r.service then { s with exited := true } else s

/-- A neighbour comes up: only one subscription is made. -/
def onUp (s : TopSubscr) (node : UInt32) : TopSubscr :=
  if s.slot = 0 then
    let (own, proc) := tipcOwnNode r.ownNode s.proc
    let s := { s with proc := proc }
    if node ≠ own then s.subscribe r.subscr node else s
  else s

/-- A neighbour is lost. -/
def onDown (s : TopSubscr) (node : UInt32) : TopSubscr := if node = s.neighTopsrvnode then s.closeSlot else s

/-- The branch for `pfd[1]`. -/
def onNeigh (s : TopSubscr) : TopSubscr :=
  if s.exited ∨ !s.revents.in1 then s
  else
    match r.neigh with
    | none => { s with exited := true }
    | some (node, true) => s.onUp r node
    | some (node, false) => s.onDown node

/-- The branch for `pfd[2]`. -/
def onLink (s : TopSubscr) : TopSubscr :=
  if s.exited ∨ !s.revents.in2 then s
  else
    match r.link with
    | none => { s with exited := true }
    | some _ => { s with proc := (tipcLinkname r.linkname 40 s.proc).2 }

/-- The branches for the slot. -/
def onSlot (s : TopSubscr) : TopSubscr :=
  if s.exited then s
  -- a hangup hides the data that has come with it
  else if s.revents.hup3 then s.closeSlot
  else if s.revents.in3 then { s with exited := r.second.isNone, trace := s.trace ++ [.received s.slot] }
  else s

/-- `poll` reports nothing for a negative descriptor, and `POLLIN` only where it was asked for. -/
def Reports (s : TopSubscr) (revents : Revents) : Prop :=
  (revents.in3 = true → s.armed = true ∧ 0 ≤ s.slot) ∧ (revents.hup3 = true → 0 ≤ s.slot)

instance (s : TopSubscr) (revents : Revents) : Decidable (s.Reports revents) := inferInstanceAs (Decidable (_ ∧ _))

/-- The flags of the round. -/
def polled (s : TopSubscr) : TopSubscr := { s with revents := r.poll.getD s.revents }

/-- One round of the main loop. -/
def step (s : TopSubscr) : TopLabel → Option TopSubscr
  | .timeout => if s.exited then none else some { s with exited := true }
  | .round r =>
    if s.exited = false ∧ ∀ revents ∈ r.poll, s.Reports revents then
      some (((((s.polled r).onService r).onNeigh r).onLink r).onSlot r)
    else none

end TopSubscr

/-! ## The sockets of a trace -/

/-- The sockets that are open after an event. -/
def SlotEvent.after (open' : List ℤ) : SlotEvent → List ℤ
  | .created d => d :: open'
  | .received _ => open'
  | .closed d => open'.erase d

/-- The subscription sockets that are open after a trace. -/
def openSubs (tr : List SlotEvent) : List ℤ := tr.foldl SlotEvent.after []

/-- What is received from or closed is an open subscription socket. -/
def SlotEvent.Ok (before : List SlotEvent) : SlotEvent → Prop
  | .created _ => True
  | .received d | .closed d => d ∈ openSubs before

/-- The slot is used only while it holds an open subscription socket, each such socket is closed at most once, and at
    most one is open at any time. -/
structure SlotOk (tr : List SlotEvent) : Prop where
  used : ∀ before e, before ++ [e] <+: tr → e.Ok before
  once : ∀ d, tr.count (.closed d) ≤ tr.count (.created d)
  one : ∀ before, before <+: tr → (openSubs before).length ≤ 1

end Tipcc
end Tipcutils
