import Tipcutils.Lib.Fds
import Tipcutils.Tipc.Addr

/-!
# `Tipcc.Descriptors` — the functions of the C binding that open descriptors

`tipcc.c` is there twice, for the multicast blaster and for the API demo; the functions of this module have the same text
in both (`tipc_srv_evt` of the demo has no argument `id`, which no caller uses). Each of them makes each system call at
most once, `close` apart, so `Sys` is how the calls of one call of such a function end. A call on a descriptor that is
not open fails.

Not modelled: the addresses that are connected to.
-/

namespace Tipcutils
namespace Tipcc

open Tipc Decimal Fds

/-! ## The process and its system calls -/

/-- `struct tipc_subscr`. -/
structure Subscr where
  type : UInt32
  lower : UInt32
  upper : UInt32
  timeout : UInt32
  filter : UInt32
deriving DecidableEq

/-- `struct tipc_event`, as far as it is read. -/
structure Evt where
  event : UInt32
  foundLower : UInt32
  portRef : UInt32
  portNode : UInt32
  seqType : UInt32

/-- The descriptors of the process, the static variable `own_node`, and the subscriptions that have been sent. -/
structure Proc where
  fds : Table
  ownNode : UInt32
  subscrs : List (ℤ × Subscr)

/-- How the system calls end: whether they succeed, and what they yield. -/
structure Sys where
  socket : Bool
  connect : Bool
  send : Bool
  recv : Option Evt
  getsockname : Option TipcAddr
  ioctl : Option Text

variable (sys : Sys)

/-- `tipc_socket`. -/
def tipcSocket (p : Proc) : ℤ × Proc :=
  if sys.socket then (p.fds.next, { p with fds := p.fds.open }) else (-1, p)

/-- `tipc_close`. -/
def tipcClose (sd : ℤ) (p : Proc) : Proc := { p with fds := p.fds.close sd }

/-- `tipc_sockid`. -/
def tipcSockid (sd : ℤ) (p : Proc) : Option TipcAddr :=
  if p.fds.isOpen sd then sys.getsockname.map fun id => { id with type := 0 } else none

/-- `tipc_connect` succeeds. -/
def tipcConnect (sd : ℤ) (p : Proc) : Bool := sys.connect && p.fds.isOpen sd

/-- `TIPC_WAIT_FOREVER`. -/
def tipcWaitForever : UInt32 := 0xffffffff

/-- `TIPC_SUB_PORTS` and `TIPC_SUB_SERVICE`. -/
def tipcSubPorts : UInt32 := 1
def tipcSubService : UInt32 := 2

/-- `TIPC_PUBLISHED` and `TIPC_SUBSCR_TIMEOUT`. -/
def tipcPublished : UInt32 := 1
def tipcSubscrTimeout : UInt32 := 3

/-- `TIPC_CFG_SRV` and `TIPC_LINK_STATE`. -/
def tipcCfgSrv : UInt32 := 0
def tipcLinkState : UInt32 := 2

/-! ## The binding -/

/-- `tipc_own_node`. -/
def tipcOwnNode (p : Proc) : UInt32 × Proc :=
  if p.ownNode ≠ 0 then (p.ownNode, p)
  else
    let (sd, p) := tipcSocket sys p
    let p := match tipcSockid sys sd p with
      | some sockid => { p with ownNode := sockid.domain }
      | none => p
    let p := tipcClose sd p
    (p.ownNode, p)

/-- `tipc_topsrv_conn`. -/
def tipcTopsrvConn (p : Proc) : ℤ × Proc :=
  let (sd, p) := tipcSocket sys p
  if sd ≤ 0 then (sd, p)
  else if tipcConnect sys sd p then (sd, p)
  -- the descriptor is returned all the same
  else (sd, tipcClose sd p)

/-- `tipc_srv_subscr`: `none` is the value -1. -/
def tipcSrvSubscr (sd : ℤ) (type lower upper : UInt32) (all : Bool) (expire : ℤ) (p : Proc) : Option Proc :=
  if sys.send && p.fds.isOpen sd then
    let subscr := ⟨type, lower, upper, if expire < 0 then tipcWaitForever else .ofNat expire.toNat,
      if all then tipcSubPorts else tipcSubService⟩
    some { p with subscrs := p.subscrs ++ [(sd, subscr)] }
  else none

/-- What `tipc_srv_evt` writes through its pointers; `none` is left as it was. -/
structure SrvEvt where
  srv : Option TipcAddr
  id : Option TipcAddr
  available : Option Bool
  expired : Bool

/-- `tipc_srv_evt`: `none` is the value -1. -/
def tipcSrvEvt (sd : ℤ) (p : Proc) : Option SrvEvt :=
  if p.fds.isOpen sd then
    sys.recv.map fun evt =>
      if evt.event = tipcSubscrTimeout then ⟨none, none, none, true⟩
      else ⟨some ⟨evt.seqType, evt.foundLower, evt.portNode⟩, some ⟨0, evt.portRef, evt.portNode⟩,
        some (evt.event = tipcPublished), false⟩
  else none

/-- `tipc_srv_wait`. -/
def tipcSrvWait (srv : TipcAddr) (wait : ℤ) (p : Proc) : Bool × Proc :=
  let (sd, p) := tipcTopsrvConn sys p
  if sd < 0 then (false, p)
  else
    let (subscribed, p) := match tipcSrvSubscr sys sd srv.type srv.inst srv.inst false wait p with
      | some p => (true, p)
      | none => (false, p)
    let evt := tipcSrvEvt sys sd p
    let p := tipcClose sd p
    match evt with
    | none => (false, p)
    | some evt => (!evt.expired && subscribed && evt.available.getD false, p)

/-- A subscription to all instances of `type`. -/
def subscribeAll (type : UInt32) (p : Proc) : ℤ × Proc :=
  let (sd, p) := tipcTopsrvConn sys p
  if sd ≤ 0 then (-1, p)
  else
    match tipcSrvSubscr sys sd type 0 0xffffffff true (-1) p with
    | some p => (sd, p)
    | none => (-1, p)

/-- `tipc_neigh_subscr`. -/
def tipcNeighSubscr (p : Proc) : ℤ × Proc := subscribeAll sys tipcCfgSrv p

/-- `tipc_link_subscr`. -/
def tipcLinkSubscr (p : Proc) : ℤ × Proc := subscribeAll sys tipcLinkState p

/-- `tipc_linkname`: the text in `buf`. -/
def tipcLinkname (len : ℕ) (p : Proc) : Text × Proc :=
  let (sd, p) := tipcSocket sys p
  if sd ≤ 0 then ([], p)
  else
    match sys.ioctl with
    | some linkname => (linkname.take len, p)
    | none => ([], p)

/-! ## What the calls do to the descriptors -/

/-- The process after `socket`. -/
def Proc.opened (p : Proc) : Proc := { p with fds := p.fds.open }

variable {sys} {p : Proc}

@[simp] theorem isOpen_next_opened : p.opened.fds.isOpen p.fds.next = true := by simp [Proc.opened]

theorem tipcSocket_of_fail (h : sys.socket = false) : tipcSocket sys p = (-1, p) := by
  rw [tipcSocket, h]
  rfl

theorem tipcSocket_of_ok (h : sys.socket = true) : tipcSocket sys p = ((p.fds.next : ℤ), p.opened) := by
  rw [tipcSocket, h]
  rfl

variable (sys) in
/-- `close` is called with whatever `socket` has returned. -/
theorem tipcOwnNode_fds (h : p.ownNode = 0) :
    (tipcOwnNode sys p).2.fds = (tipcSocket sys p).2.fds.close (tipcSocket sys p).1 := by
  have hnone : ¬ p.ownNode ≠ 0 := fun hne => hne h
  rw [tipcOwnNode, if_neg hnone]
  cases hid : tipcSockid sys (tipcSocket sys p).1 (tipcSocket sys p).2 <;> simp only [hid] <;> rfl

theorem tipcTopsrvConn_of_fail (h : sys.socket = false) : tipcTopsrvConn sys p = (-1, p) := by
  rw [tipcTopsrvConn, tipcSocket_of_fail h]
  rfl

/-- Descriptor 0 is not connected. -/
theorem tipcTopsrvConn_of_zero (h : sys.socket = true) (h0 : p.fds.next = 0) :
    tipcTopsrvConn sys p = (0, p.opened) := by
  rw [tipcTopsrvConn, tipcSocket_of_ok h, h0]
  rfl

theorem tipcTopsrvConn_of_pos (h : sys.socket = true) (h0 : 0 < p.fds.next) :
    tipcTopsrvConn sys p =
      ((p.fds.next : ℤ), if sys.connect then p.opened else tipcClose p.fds.next p.opened) := by
  have hpos : ¬ (p.fds.next : ℤ) ≤ 0 := by omega
  have hconn : tipcConnect sys p.fds.next p.opened = sys.connect := by
    rw [tipcConnect, isOpen_next_opened, Bool.and_true]
  rw [tipcTopsrvConn, tipcSocket_of_ok h]
  simp only [if_neg hpos, hconn]
  cases sys.connect <;> rfl

/-- A call on a descriptor that has been closed fails. -/
theorem tipcSrvSubscr_closed (sd : ℤ) (type lower upper : UInt32) (all : Bool) (expire : ℤ) (q : Proc) :
    tipcSrvSubscr sys sd type lower upper all expire (tipcClose sd q) = none := by
  simp [tipcSrvSubscr, tipcClose]

theorem tipcSrvSubscr_fds {sd : ℤ} {type lower upper : UInt32} {all : Bool} {expire : ℤ} {q q' : Proc}
    (h : tipcSrvSubscr sys sd type lower upper all expire q = some q') : q'.fds = q.fds := by
  unfold tipcSrvSubscr at h
  split at h
  · obtain rfl := Option.some.inj h
    rfl
  · nomatch h

variable (sys) in
theorem tipcSrvSubscr_isSome (sd : ℤ) (type lower upper : UInt32) (all : Bool) (expire : ℤ) (q : Proc) :
    (tipcSrvSubscr sys sd type lower upper all expire q).isSome = (sys.send && q.fds.isOpen sd) := by
  unfold tipcSrvSubscr
  cases sys.send && q.fds.isOpen sd <;> rfl

/-- A subscription: the descriptor is left open whatever comes of the `send`. -/
theorem subscribeAll_of_pos (h : sys.socket = true) (h0 : 0 < p.fds.next) (type : UInt32) :
    (subscribeAll sys type p).1 = (if sys.connect ∧ sys.send then (p.fds.next : ℤ) else -1) ∧
      (subscribeAll sys type p).2.fds = (if sys.connect then p.opened else tipcClose p.fds.next p.opened).fds := by
  have hpos : ¬ (p.fds.next : ℤ) ≤ 0 := by omega
  unfold subscribeAll
  rw [tipcTopsrvConn_of_pos h h0]
  simp only [if_neg hpos]
  cases hc : sys.connect with
  | false => simp [tipcSrvSubscr_closed]
  | true =>
    have hsome := tipcSrvSubscr_isSome sys p.fds.next type 0 0xffffffff true (-1) p.opened
    rw [isOpen_next_opened, Bool.and_true] at hsome
    simp only [if_true, true_and]
    split
    next q hq =>
      have hsend : sys.send = true := by rw [← hsome, hq]; rfl
      exact ⟨by simp [hsend], tipcSrvSubscr_fds hq⟩
    next hq =>
      have hsend : sys.send = false := by rw [← hsome, hq]; rfl
      exact ⟨by simp [hsend], rfl⟩

variable (sys) in
/-- The descriptor is closed whether it is connected or not. -/
theorem tipcSrvWait_fds (h : 0 ≤ (tipcTopsrvConn sys p).1) (srv : TipcAddr) (wait : ℤ) :
    (tipcSrvWait sys srv wait p).2.fds = (tipcTopsrvConn sys p).2.fds.close (tipcTopsrvConn sys p).1 := by
  unfold tipcSrvWait
  simp only [if_neg (Int.not_lt.mpr h)]
  cases hq : tipcSrvSubscr sys (tipcTopsrvConn sys p).1 srv.type srv.inst srv.inst false wait
      (tipcTopsrvConn sys p).2 with
  | none =>
    simp only
    split <;> rfl
  | some q =>
    have hfds := tipcSrvSubscr_fds hq
    simp only
    split
    all_goals
      show q.fds.close _ = _
      rw [hfds]

variable (sys) in
theorem tipcLinkname_fds (len : ℕ) : (tipcLinkname sys len p).2.fds = (tipcSocket sys p).2.fds := by
  unfold tipcLinkname
  simp only
  split
  · rfl
  · cases sys.ioctl <;> rfl

variable (sys) in
theorem tipcSocket_fds : (tipcSocket sys p).2.fds = p.fds ∨ (tipcSocket sys p).2.fds = p.fds.open := by
  cases hs : sys.socket with
  | false =>
    rw [tipcSocket_of_fail hs]
    exact .inl rfl
  | true =>
    rw [tipcSocket_of_ok hs]
    exact .inr rfl

variable (sys) in
/-- A subscription leaves the table as it was, or with a new socket, or with a new socket closed again. -/
theorem subscribeAll_fds (type : UInt32) :
    (subscribeAll sys type p).2.fds = p.fds ∨ (subscribeAll sys type p).2.fds = p.fds.open ∨
      (subscribeAll sys type p).2.fds = p.fds.open.close p.fds.next := by
  cases hs : sys.socket with
  | false =>
    rw [subscribeAll, tipcTopsrvConn_of_fail hs]
    exact .inl rfl
  | true =>
    by_cases h0 : p.fds.next = 0
    · rw [subscribeAll, tipcTopsrvConn_of_zero hs h0]
      exact .inr (.inl rfl)
    · rw [(subscribeAll_of_pos hs (Nat.pos_of_ne_zero h0) type).2]
      cases sys.connect
      · exact .inr (.inr rfl)
      · exact .inr (.inl rfl)

/-! ## Other descriptors stay open -/

theorem isOpen_tipcOwnNode {d : ℤ} (h : p.fds.isOpen d = true) : (tipcOwnNode sys p).2.fds.isOpen d = true := by
  by_cases hown : p.ownNode = 0
  · rw [tipcOwnNode_fds sys hown]
    cases hs : sys.socket with
    | false =>
      rw [tipcSocket_of_fail hs]
      have := Table.nonneg_of_isOpen h
      exact Table.isOpen_close_of h (by omega)
    | true =>
      rw [tipcSocket_of_ok hs]
      exact Table.isOpen_close_of (Table.isOpen_open_of h) (Table.ne_next_of_isOpen h)
  · rw [tipcOwnNode, if_pos hown]
    exact h

theorem isOpen_subscribeAll {d : ℤ} (h : p.fds.isOpen d = true) (type : UInt32) :
    (subscribeAll sys type p).2.fds.isOpen d = true := by
  rcases subscribeAll_fds sys (p := p) type with hfds | hfds | hfds <;> rw [hfds]
  · exact h
  · exact Table.isOpen_open_of h
  · exact Table.isOpen_close_of (Table.isOpen_open_of h) (Table.ne_next_of_isOpen h)

theorem isOpen_tipcLinkname {d : ℤ} (h : p.fds.isOpen d = true) (len : ℕ) :
    (tipcLinkname sys len p).2.fds.isOpen d = true := by
  rw [tipcLinkname_fds sys]
  rcases tipcSocket_fds sys (p := p) with hfds | hfds <;> rw [hfds]
  · exact h
  · exact Table.isOpen_open_of h

end Tipcc
end Tipcutils
