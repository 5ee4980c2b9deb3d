import Mathlib.Algebra.Group.Int.Defs
import Mathlib.Algebra.Group.Nat.Defs
import Mathlib.Logic.Function.Basic
import Tipcutils.Lib.Lts

/-!
# `Benchmark.Rounds` — master, clients and server children of the benchmark demo

The master of `client_tipc.c` creates clients and drives rounds: it tells the server children what to receive,
counts their acknowledgements, tells the clients to send, and then counts one report of a client and one of a
server child in turn. Client `i` (counted from 0) streams to its own server child over the connection `i`, and both
have a control socket. A process that finds an error or waits too long calls `die`, which any of them may do at any
time.

A control message from a process to the master stays in that process's `outbox` until the master reads it, and the
master may read the boxes in any order.

Not modelled: the first two commands to the server's main process, the measured times and all that is printed, and
`sched_yield`.
-/

namespace Tipcutils
namespace Benchmark

/-! ## Data -/

/-- What the master sends in `RCV_MSG_LEN` and `CLNT_EXEC`. `bounce` is `echo` for the server. -/
structure Round where
  msglen : UInt32
  msgcnt : UInt32
  bounce : UInt32
deriving DecidableEq

/-- A `uint` passed to an `int` parameter. -/
def asInt (x : UInt32) : ℤ := if x.toNat < 2 ^ 31 then x.toNat else x.toNat - 2 ^ 32

/-- An `int` passed as a `size_t`. -/
def asSize (n : ℤ) : ℤ := n % 2 ^ 64

/-- An octet of a test message: how many rounds its client had executed before, and how many messages of the round
    it had sent before. -/
structure Octet where
  round : ℕ
  seq : ℕ
deriving DecidableEq

/-- `struct master_client_cmd`. -/
inductive MasterClientCmd where
  | exec (r : Round)
  | term
deriving DecidableEq

/-- `struct client_master_cmd`. -/
inductive ClientMasterCmd where
  | ready
  | finished
deriving DecidableEq

def ClientMasterCmd.code : ClientMasterCmd → UInt32
  | .ready => 1
  | .finished => 2

/-- `struct srv_to_master_cmd`. -/
inductive SrvToMasterCmd where
  | msglenAck
  | finished
deriving DecidableEq

def SrvToMasterCmd.code : SrvToMasterCmd → UInt32
  | .msglenAck => 1
  | .finished => 2

/-! ## Client and server child -/

/-- Where a client is: in `client_create`, or in `stream_messages` with `sent` messages. -/
inductive ClientPc where
  | unborn
  | ready
  | wait
  | stream (r : Round) (sent : ℕ)
  | bounced (r : Round) (sent : ℕ)
  | report (r : Round)
  | exited
deriving DecidableEq

/-- A client. `executed` holds the commands it has finished, `read` the number of its reports that the master has read;
    no step depends on them. -/
structure Client where
  pc : ClientPc
  alive : Bool
  inbox : List MasterClientCmd
  outbox : List ClientMasterCmd
  executed : List Round
  read : ℕ

/-- Where a server child is in `echo_messages`, with `rcvd` messages. -/
inductive ServerPc where
  | unborn
  | wait
  | ack (r : Round)
  | recv (r : Round) (rcvd : ℕ)
  | echo (r : Round) (rcvd : ℕ)
  | report (r : Round)
deriving DecidableEq

/-- A server child, with the last message in `buf`. `served`, `received` (its messages) and `read` are records that no
    step depends on. -/
structure Server where
  pc : ServerPc
  alive : Bool
  inbox : List Round
  outbox : List SrvToMasterCmd
  buf : List Octet
  served : List Round
  received : List (List Octet)
  read : ℕ

/-- A client, its server child, and the octets on their way between them. `written` is all that the client has put
    into the connection, `born` the number of rounds before the client was created; both are records. -/
structure Conn where
  client : Client
  server : Server
  stream : List Octet
  echoes : List Octet
  written : List Octet
  born : ℕ

/-- Before `client_create`. -/
def Conn.unborn : Conn :=
  { client := ⟨.unborn, false, [], [], [], 0⟩, server := ⟨.unborn, false, [], [], [], [], [], 0⟩,
    stream := [], echoes := [], written := [], born := 0 }

/-- A client about to report that it is ready, connected to its server child. -/
def Conn.create (born : ℕ) : Conn :=
  { client := ⟨.ready, true, [], [], [], 0⟩, server := ⟨.wait, true, [], [], [], [], [], 0⟩,
    stream := [], echoes := [], written := [], born := born }

/-- What happens in a connection. `ret` is what the kernel answers to a `send` or a `recv`. -/
inductive ConnAct where
  | client
  | send (ret : ℤ)
  | clientRecv (ret : ℤ)
  | server
  | serverRecv
  | echo (ret : ℤ)
  | dieClient
  | dieServer
deriving DecidableEq

/-- What `send` of `len` octets may return: an error, or how many it has taken. -/
def SendRet (ret : ℤ) (len : ℤ) : Prop := ret = -1 ∨ 0 ≤ ret ∧ ret ≤ asSize len

instance (ret len : ℤ) : Decidable (SendRet ret len) := inferInstanceAs (Decidable (_ ∨ _))

/-- What `recv` with `MSG_WAITALL` may return where `avail` octets have arrived, if it does not come short. -/
def RecvRet (ret : ℤ) (len : ℤ) (avail : ℕ) : Prop := ret = -1 ∨ ret = asSize len ∧ ret ≤ avail

instance (ret len : ℤ) (avail : ℕ) : Decidable (RecvRet ret len avail) := inferInstanceAs (Decidable (_ ∨ _))

/-- `client_create` after the connection is there, up to `stream_messages` and after it. -/
def Conn.clientStep (c : Conn) : Option Conn :=
  match c.client.pc with
  | .unborn => none
  | .ready => some { c with client := { c.client with pc := .wait, outbox := c.client.outbox ++ [.ready] } }
  | .wait =>
    match c.client.inbox with
    | [] => none
    | .term :: rest => some { c with client := { c.client with pc := .exited, inbox := rest, alive := false } }
    | .exec r :: rest =>
      -- `(1 << 21) / msglen`
      some { c with client := { c.client with pc := .stream r 0, inbox := rest, alive := decide (r.msglen ≠ 0) } }
  | .stream r sent =>
    if (sent : ℤ) < asInt r.msgcnt then none else some { c with client := { c.client with pc := .report r } }
  | .bounced _ _ => none
  | .report r =>
    some { c with client :=
      { c.client with pc := .wait, outbox := c.client.outbox ++ [.finished], executed := c.client.executed ++ [r] } }
  | .exited => none

/-- `send` in `stream_messages`. The octets that the kernel took are on their way, also when the client dies. -/
def Conn.clientSend (c : Conn) (ret : ℤ) : Option Conn :=
  match c.client.pc with
  | .stream r sent =>
    if (sent : ℤ) < asInt r.msgcnt ∧ SendRet ret (asInt r.msglen) then
      let octets := List.replicate ret.toNat ⟨c.client.executed.length, sent⟩
      some { c with
        stream := c.stream ++ octets
        written := c.written ++ octets
        client :=
          if ret = asInt r.msglen then
            { c.client with pc := if r.bounce = 0 then .stream r (sent + 1) else .bounced r (sent + 1) }
          else { c.client with alive := false } }
    else none
  | _ => none

/-- `wait_for_msg` and `recv` in `stream_messages`, where it does not die. -/
def Conn.clientRecv (c : Conn) (ret : ℤ) : Option Conn :=
  match c.client.pc with
  | .bounced r sent =>
    if (c.echoes ≠ [] ∨ c.server.alive = false) ∧ RecvRet ret (asInt r.msglen) c.echoes.length ∧
        ret = asInt r.msglen then
      some { c with echoes := c.echoes.drop ret.toNat, client := { c.client with pc := .stream r sent } }
    else none
  | _ => none

/-- `echo_messages` outside its socket calls on the connection. -/
def Conn.serverStep (c : Conn) : Option Conn :=
  match c.server.pc with
  | .unborn => none
  | .wait =>
    match c.server.inbox with
    | [] => none
    | r :: rest => some { c with server := { c.server with pc := .ack r, inbox := rest } }
  | .ack r => some { c with server := { c.server with pc := .recv r 0, outbox := c.server.outbox ++ [.msglenAck] } }
  | .recv r rcvd =>
    if rcvd < r.msgcnt.toNat then none else some { c with server := { c.server with pc := .report r } }
  | .echo _ _ => none
  | .report r =>
    some { c with server :=
      { c.server with pc := .wait, outbox := c.server.outbox ++ [.finished], served := c.server.served ++ [r] } }

/-- `wait_for_msg` and `recv` in `echo_messages`, where it does not die. -/
def Conn.serverRecv (c : Conn) : Option Conn :=
  match c.server.pc with
  | .recv r rcvd =>
    if rcvd < r.msgcnt.toNat ∧ (c.stream ≠ [] ∨ c.client.alive = false) ∧ r.msglen.toNat ≤ c.stream.length then
      let msg := c.stream.take r.msglen.toNat
      some { c with
        stream := c.stream.drop r.msglen.toNat
        server := { c.server with
          pc := if r.bounce = 0 then .recv r (rcvd + 1) else .echo r (rcvd + 1)
          buf := msg
          received := c.server.received ++ [msg] } }
    else none
  | _ => none

/-- `send` in `echo_messages`. -/
def Conn.serverEcho (c : Conn) (ret : ℤ) : Option Conn :=
  match c.server.pc with
  | .echo r rcvd =>
    if SendRet ret r.msglen.toNat then
      some { c with
        echoes := c.echoes ++ c.server.buf.take ret.toNat
        server :=
          if ret = r.msglen.toNat then { c.server with pc := .recv r rcvd } else { c.server with alive := false } }
    else none
  | _ => none

/-- A step in a connection. -/
def Conn.act (c : Conn) : ConnAct → Option Conn
  | .client => if c.client.alive then c.clientStep else none
  | .send ret => if c.client.alive then c.clientSend ret else none
  | .clientRecv ret => if c.client.alive then c.clientRecv ret else none
  | .server => if c.server.alive then c.serverStep else none
  | .serverRecv => if c.server.alive then c.serverRecv else none
  | .echo ret => if c.server.alive then c.serverEcho ret else none
  | .dieClient => some { c with client := { c.client with alive := false } }
  | .dieServer => some { c with server := { c.server with alive := false } }

/-! ## The master -/

/-- What the master does, one after the other. -/
inductive MasterAct where
  | create
  | round (r : Round)
  | term
deriving DecidableEq

/-- The acts of `main`: with the latency test's rounds, the first client is created before them; with the throughput
    test's rounds, the remaining clients are. -/
def mainActs (latency : Option (List Round)) (reqClients : ℕ) (thruput : Option (List Round)) : List MasterAct :=
  (match latency with
    | some rounds => .create :: rounds.map .round
    | none => []) ++
  (match thruput with
    | some rounds =>
      List.replicate (reqClients - if latency.isSome then 1 else 0) .create ++ rounds.map .round
    | none => []) ++
  [.term]

/-- Where the master is, with the loop variable counted from 0. -/
inductive MasterPc where
  | next
  | ready
  | acks (r : Round) (i : ℕ)
  | fromClient (r : Round) (i : ℕ)
  | fromSrv (r : Round) (i : ℕ)
deriving DecidableEq

/-- The master. `cmd` is the variable that the control messages are read into. `told` and `execd` hold the rounds that
    the servers and the clients have been told; no step depends on them. -/
structure Master where
  todo : List MasterAct
  pc : MasterPc
  alive : Bool
  numClients : ℕ
  cmd : UInt32
  told : List Round
  execd : List Round

structure State where
  master : Master
  conn : ℕ → Conn

def start (acts : List MasterAct) : State := ⟨⟨acts, .next, true, 0, 0, [], []⟩, fun _ => .unborn⟩

inductive Label where
  | master
  | fromClient (i : ℕ)
  | fromSrv (i : ℕ)
  | dieMaster
  | conn (i : ℕ) (a : ConnAct)
deriving DecidableEq

/-- `master_to_srv` with `RCV_MSG_LEN`. -/
def Conn.tellServer (r : Round) (c : Conn) : Conn :=
  { c with server := { c.server with inbox := c.server.inbox ++ [r] } }

/-- `master_to_client`. -/
def Conn.tellClient (m : MasterClientCmd) (c : Conn) : Conn :=
  { c with client := { c.client with inbox := c.client.inbox ++ [m] } }

/-- A command reaches every process that is bound to the control name. -/
def State.multicast (s : State) (f : Conn → Conn) : ℕ → Conn :=
  fun i => if i < s.master.numClients then f (s.conn i) else s.conn i

/-- The master's steps that wait for nobody. -/
def State.masterStep (s : State) : Option State :=
  match s.master.pc with
  | .next =>
    match s.master.todo with
    | [] => none
    | .create :: todo =>
      some {
        master := { s.master with todo := todo, pc := .ready, numClients := s.master.numClients + 1 }
        conn := Function.update s.conn s.master.numClients (.create s.master.told.length) }
    | .round r :: todo =>
      some {
        master := { s.master with todo := todo, pc := .acks r 0, told := s.master.told ++ [r] }
        conn := s.multicast (Conn.tellServer r) }
    | .term :: todo =>
      some { master := { s.master with todo := todo }, conn := s.multicast (Conn.tellClient .term) }
  | .ready => none
  | .acks r i =>
    if i < s.master.numClients then none
    else
      some {
        master := { s.master with pc := .fromClient r 0, execd := s.master.execd ++ [r] }
        conn := s.multicast (Conn.tellClient (.exec r)) }
  | .fromClient _ i =>
    if i < s.master.numClients then none else some { s with master := { s.master with pc := .next } }
  | .fromSrv _ _ => none

/-- Where `master_from_client` returns to. -/
def Master.afterClient (m : Master) : Option MasterPc :=
  match m.pc with
  | .ready => some .next
  | .fromClient r i => if i < m.numClients then some (.fromSrv r i) else none
  | _ => none

/-- `master_from_client`, of client `i`. -/
def State.fromClient (s : State) (i : ℕ) : Option State :=
  match s.master.afterClient, (s.conn i).client.outbox with
  | some pc, m :: rest =>
    some {
      master := { s.master with pc := pc, cmd := m.code }
      conn := Function.update s.conn i
        { s.conn i with client := { (s.conn i).client with outbox := rest, read := (s.conn i).client.read + 1 } } }
  | _, _ => none

/-- Where `master_from_srv` returns to. -/
def Master.afterSrv (m : Master) : Option MasterPc :=
  match m.pc with
  | .acks r i => if i < m.numClients then some (.acks r (i + 1)) else none
  | .fromSrv r i => some (.fromClient r (i + 1))
  | _ => none

/-- `master_from_srv`, of server child `i`. -/
def State.fromSrv (s : State) (i : ℕ) : Option State :=
  match s.master.afterSrv, (s.conn i).server.outbox with
  | some pc, m :: rest =>
    some {
      master := { s.master with pc := pc, cmd := m.code }
      conn := Function.update s.conn i
        { s.conn i with server := { (s.conn i).server with outbox := rest, read := (s.conn i).server.read + 1 } } }
  | _, _ => none

/-- One step of the benchmark. -/
def step (s : State) : Label → Option State
  | .master => if s.master.alive then s.masterStep else none
  | .fromClient i => if s.master.alive then s.fromClient i else none
  | .fromSrv i => if s.master.alive then s.fromSrv i else none
  | .dieMaster => some { s with master := { s.master with alive := false } }
  | .conn i a => ((s.conn i).act a).map fun c => { s with conn := Function.update s.conn i c }

end Benchmark
end Tipcutils
