import Mathlib.Data.Int.Notation
import Mathlib.Logic.Function.Basic
import Tipcutils.Lib.Lts
import Tipcutils.Lib.Wire

/-!
# `GroupCast.Group` — the members of a communication group

Every member of `group_cast.c` has one static buffer. It is the receive buffer, the header of a received message is read
through it, a reply is sent from it, and so is the member's own broadcast, multicast or anycast. A message that is
shorter than the header leaves octets of an earlier message, or of a send, in its place.

The kernel chooses who gets a message, in which order a member reads its messages, when `poll` fails, and whether it
takes what is sent; a member dies at any time. What it prints about the messages that it sends is in `GroupCast.Stats`.
Not modelled: how the sockets are created, and what is printed about received messages.
-/

namespace Tipcutils
namespace GroupCast

/-- `BUF_LEN`. -/
def bufLen : ℕ := 66000

/-- The message types. -/
inductive Mtyp where
  | none
  | bcast
  | mcast
  | ucast
  | acast
deriving DecidableEq

def Mtyp.code : Mtyp → UInt8
  | .none => 0
  | .bcast => 1
  | .mcast => 2
  | .ucast => 3
  | .acast => 4

/-- An Xcast, for which `-r` requests a response. -/
def Mtyp.isXcast : Mtyp → Bool
  | .bcast | .mcast | .acast => true
  | .none | .ucast => false

/-- The options of a member: what it sends, `-r`, and `-l`. -/
structure Opts where
  mtyp : Mtyp
  ucastReply : Bool
  len : ℤ

/-- A message to a member. `kind` and `flag` are how it was sent and the reply flag that its sender set; no step
    depends on them. -/
structure Msg where
  src : ℕ
  payload : Octets
  kind : Mtyp
  flag : Bool
deriving DecidableEq

structure Counters where
  sntBc : UInt32
  sntMc : UInt32
  sntAc : UInt32
  sntUc : UInt32
  rcvBc : UInt32
  rcvMc : UInt32
  rcvAc : UInt32
  rcvUc : UInt32

structure Member where
  alive : Bool
  buf : Octets
  inbox : List Msg
  memberCnt : UInt32
  counters : Counters

/-- A record of a message that a member has received: whether the second octet of its buffer was set before, and whether
    it went on to `tipc_sendto` a reply. -/
structure Delivery where
  msg : Msg
  stale : Bool
  replied : Bool
deriving DecidableEq

/-- The members, and a record of what they have received and of the number of unicasts they have sent. -/
structure State where
  member : ℕ → Member
  deliveries : List Delivery
  unicasts : ℕ

def start : State :=
  ⟨fun _ => ⟨true, List.replicate bufLen 0xff, [], 0, ⟨0, 0, 0, 0, 0, 0, 0, 0⟩⟩, [], 0⟩

/-! ## The header -/

/-- `hdr->type`. -/
def hdrType (buf : Octets) : UInt8 := buf.getD 0 0

/-- `hdr->reply`. -/
def hdrReply (buf : Octets) : Bool := buf.getD 1 0 ≠ 0

/-- Both fields of the header are assigned. -/
def setHdr (buf : Octets) (type : Mtyp) (reply : Bool) : Octets :=
  (buf.set 0 type.code).set 1 (if reply then 1 else 0)

/-- The octets that a send of `len` takes from the buffer; it fails for a length that TIPC does not take. -/
def payloadOf (len : ℤ) (buf : Octets) : Option Octets :=
  if 0 ≤ len ∧ len ≤ bufLen then some (buf.take len.toNat) else none

/-- The receive counters. -/
def Counters.received (c : Counters) (type : UInt8) : Counters :=
  if type = Mtyp.bcast.code then { c with rcvBc := c.rcvBc + 1 }
  else if type = Mtyp.mcast.code then { c with rcvMc := c.rcvMc + 1 }
  else if type = Mtyp.acast.code then { c with rcvAc := c.rcvAc + 1 }
  else if type = Mtyp.ucast.code then { c with rcvUc := c.rcvUc + 1 }
  else c

/-- The send counters. -/
def Counters.sent (c : Counters) : Mtyp → Counters
  | .bcast => { c with sntBc := c.sntBc + 1 }
  | .mcast => { c with sntMc := c.sntMc + 1 }
  | .acast => { c with sntAc := c.sntAc + 1 }
  | .ucast => { c with sntUc := c.sntUc + 1 }
  | .none => c

/-- A member after a send that was taken. A send of nothing returns 0, and the member dies of that as well. -/
def Member.sent (m : Member) (type : Mtyp) (payload : Octets) : Member :=
  if payload = [] then { m with alive := false } else { m with counters := m.counters.sent type }

/-! ## Steps -/

def State.setMember (s : State) (i : ℕ) (m : Member) : State := { s with member := Function.update s.member i m }

/-- A delivery is recorded. -/
def State.deliver (s : State) (d : Delivery) : State := { s with deliveries := s.deliveries ++ [d] }

/-- A message is on its way to some members. -/
def State.post (s : State) (rcvrs : List ℕ) (msg : Msg) : State :=
  { s with member := fun j =>
      if j ∈ rcvrs then { s.member j with inbox := (s.member j).inbox ++ [msg] } else s.member j }

/-- What the kernel lets happen: a membership event, the receipt of the message in place `k` (with whether a reply is
    taken), the end of the loop in `group_transceive` (with whether `poll` failed, who gets the message, and whether it
    is taken), and a death. -/
inductive Label where
  | event (i : ℕ) (up : Bool)
  | recv (i k : ℕ) (ok : Bool)
  | xcast (i : ℕ) (err : Bool) (rcvrs : List ℕ) (ok : Bool)
  | die (i : ℕ)
deriving DecidableEq

variable (opts : ℕ → Opts)

/-- `discover_member`. -/
def State.discover (s : State) (i : ℕ) (up : Bool) : State :=
  let m := s.member i
  s.setMember i { m with memberCnt := if up then m.memberCnt + 1 else m.memberCnt - 1 }

/-- The receipt of a message in `group_transceive`, and the reply. -/
def State.transceive (s : State) (i k : ℕ) (msg : Msg) (ok : Bool) : State :=
  let m := s.member i
  let inbox := m.inbox.eraseIdx k
  if msg.payload = [] then s.setMember i { m with inbox := inbox, alive := false }
  else
    let buf := overlay bufLen m.buf msg.payload
    let counters := m.counters.received (hdrType buf)
    if hdrReply buf then
      let s := s.deliver ⟨msg, hdrReply m.buf, true⟩
      let m := { m with inbox := inbox, buf := setHdr buf .ucast false, counters := counters }
      match payloadOf (opts i).len m.buf, ok with
      | some payload, true =>
        let s := (s.setMember i (m.sent .ucast payload)).post [msg.src] ⟨i, payload, .ucast, false⟩
        { s with unicasts := s.unicasts + 1 }
      | _, _ => s.setMember i { m with alive := false }
    else
      let s := s.deliver ⟨msg, hdrReply m.buf, false⟩
      s.setMember i { m with inbox := inbox, buf := buf, counters := counters }

/-- `group_transceive` after its loop. -/
def State.xcast (s : State) (i : ℕ) (rcvrs : List ℕ) (ok : Bool) : State :=
  let m := s.member i
  let m := { m with buf := setHdr m.buf (opts i).mtyp (opts i).ucastReply }
  if (opts i).mtyp.isXcast then
    match payloadOf (opts i).len m.buf, ok with
    | some payload, true =>
      let s := s.setMember i (m.sent (opts i).mtyp payload)
      s.post rcvrs ⟨i, payload, (opts i).mtyp, (opts i).ucastReply⟩
    | _, _ => s.setMember i { m with alive := false }
  else s.setMember i m

/-- One step of the group. -/
def step (s : State) : Label → Option State
  | .event i up => if (s.member i).alive then some (s.discover i up) else none
  | .recv i k ok =>
    if (s.member i).alive then ((s.member i).inbox[k]?).map fun msg => s.transceive opts i k msg ok else none
  | .xcast i err rcvrs ok =>
    -- `poll` returns 0 only with the timeout 0
    if (s.member i).alive ∧ (err ∨ (opts i).mtyp ≠ .none ∧ 1 < (s.member i).memberCnt) then
      some (s.xcast opts i rcvrs ok)
    else none
  | .die i => some (s.setMember i { s.member i with alive := false })

end GroupCast
end Tipcutils
