import Mathlib.Algebra.BigOperators.Group.List.Basic
import Mathlib.Algebra.GroupWithZero.Nat
import Mathlib.Data.List.Induction
import Tipcutils.Benchmark.Rounds

/-!
# `Benchmark.Connection` — what one client and its server child have done

What an act of a connection may do is said once (**`Conn.effect`**). The invariant of one connection (**`Conn.Inv`**),
given the rounds that its server child and its client have been told, is derived from that: both have handled a prefix of
them, their numbers of reports follow from how far they are, and the messages that the server child has received are cut
from the octets that the client has written.

From it come the two facts about data that the rounds rest on: a server child cannot finish a round before its client
has started it (**`Conn.Inv.not_ahead`**), and once both have finished the same rounds the messages are exactly those
of these rounds (**`Conn.Inv.complete`**).
-/

namespace Tipcutils
namespace Benchmark

/-! ## Messages -/

/-- The first `cnt` messages of a round, of `len` octets each. -/
def roundMessages (round cnt len : ℕ) : List (List Octet) :=
  (List.range cnt).map fun seq => List.replicate len ⟨round, seq⟩

theorem roundMessages_succ (round cnt len : ℕ) :
    roundMessages round (cnt + 1) len = roundMessages round cnt len ++ [List.replicate len ⟨round, cnt⟩] := by
  simp [roundMessages, List.range_succ]

theorem roundMessages_lengths (round cnt len : ℕ) :
    (roundMessages round cnt len).map List.length = List.replicate cnt len := by
  simp [roundMessages, Function.comp_def]

/-- The messages of a list of rounds, from counts and lengths. -/
def messagesOf (cnt len : Round → ℕ) (l : List Round) : List (List Octet) :=
  l.zipIdx.flatMap fun p => roundMessages p.2 (cnt p.1) (len p.1)

theorem messagesOf_concat (cnt len : Round → ℕ) (l : List Round) (r : Round) :
    messagesOf cnt len (l ++ [r]) = messagesOf cnt len l ++ roundMessages l.length (cnt r) (len r) := by
  simp [messagesOf, List.zipIdx_append]

theorem messagesOf_lengths (cnt len : Round → ℕ) (l : List Round) :
    (messagesOf cnt len l).map List.length = l.flatMap fun r => List.replicate (cnt r) (len r) := by
  induction l using List.reverseRecOn with
  | nil => rfl
  | append_singleton l r ih =>
    rw [messagesOf_concat, List.map_append, ih, roundMessages_lengths, List.flatMap_append]
    simp

/-- The counts and lengths that `stream_messages` goes by. -/
def Round.clientCnt (r : Round) : ℕ := (asInt r.msgcnt).toNat
def Round.clientLen (r : Round) : ℕ := (asInt r.msglen).toNat

/-- The counts and lengths that `echo_messages` goes by. -/
def Round.cnt (r : Round) : ℕ := r.msgcnt.toNat
def Round.len (r : Round) : ℕ := r.msglen.toNat

theorem asInt_toNat_le (x : UInt32) : (asInt x).toNat ≤ x.toNat := by
  unfold asInt
  split <;> omega

theorem asInt_of_lt {x : UInt32} (h : x.toNat < 2 ^ 31) : asInt x = x.toNat := if_pos h

theorem UInt32.toNat_ne_zero {x : UInt32} (h : x ≠ 0) : x.toNat ≠ 0 := fun h0 =>
  h (UInt32.toNat_inj.mp h0)

/-- The messages of the rounds, as the master asked for them. -/
def messages (l : List Round) : List (List Octet) := messagesOf Round.cnt Round.len l

/-- A reader that cuts a stream into pieces of the right lengths has the pieces that were written. -/
theorem pieces_eq {α : Type*} {read written : List (List α)} {rest : List α}
    (hflow : read.flatten ++ rest = written.flatten) (hlen : read.map List.length = written.map List.length) :
    read = written ∧ rest = [] := by
  have hsum := congrArg List.length hflow
  rw [List.length_append, List.length_flatten, List.length_flatten, hlen] at hsum
  have hrest : rest = [] := List.eq_nil_of_length_eq_zero (by omega)
  rw [hrest, List.append_nil] at hflow
  exact ⟨List.eq_iff_flatten_eq.mpr ⟨hflow, hlen⟩, hrest⟩

/-! ## Where the two processes are -/

def MasterClientCmd.round? : MasterClientCmd → Option Round
  | .exec r => some r
  | .term => none

namespace ClientPc

/-- The command at hand. -/
def current : ClientPc → List Round
  | stream r _ | bounced r _ | report r => [r]
  | _ => []

/-- Whether it has yet to report that it is ready. -/
def starting : ClientPc → Bool
  | unborn | ready => true
  | _ => false

/-- What it has sent of the command at hand, its `round`th. -/
def partialMessages (round : ℕ) : ClientPc → List (List Octet)
  | stream r sent | bounced r sent => roundMessages round sent r.clientLen
  | report r => roundMessages round r.clientCnt r.clientLen
  | _ => []

/-- It has not sent too much. -/
def Bounded : ClientPc → Prop
  | stream r sent | bounced r sent => sent ≤ r.clientCnt
  | _ => True

end ClientPc

/-- The reports that a client has sent. -/
def Client.reports (c : Client) : ℕ := c.executed.length + if c.pc.starting then 0 else 1

namespace ServerPc

def current : ServerPc → List Round
  | ack r | recv r _ | echo r _ | report r => [r]
  | _ => []

/-- Whether it has acknowledged the command at hand. -/
def acked : ServerPc → Bool
  | recv _ _ | echo _ _ | report _ => true
  | _ => false

/-- The lengths of what it has received of the command at hand. -/
def partialLengths : ServerPc → List ℕ
  | recv r rcvd | echo r rcvd => List.replicate rcvd r.len
  | report r => List.replicate r.cnt r.len
  | _ => []

def Bounded : ServerPc → Prop
  | recv r rcvd | echo r rcvd => rcvd ≤ r.cnt
  | _ => True

end ServerPc

/-- The reports that a server child has sent: two for every round. -/
def Server.reports (s : Server) : ℕ := 2 * s.served.length + if s.pc.acked then 1 else 0

/-- The rounds whose `msglen` a server child has accepted. -/
def Server.accepted (s : Server) : List Round := s.served ++ s.pc.current

/-! ## What an act does -/

/-- A `send` of a client has taken `n` octets, the message's number being `sent`. -/
def Conn.put (c : Conn) (n sent : ℕ) (cl : Client) : Conn :=
  { c with
    stream := c.stream ++ List.replicate n ⟨c.client.executed.length, sent⟩
    written := c.written ++ List.replicate n ⟨c.client.executed.length, sent⟩
    client := cl }

/-- A `recv` of a server child has received `n` octets. -/
def Conn.take (c : Conn) (n : ℕ) (pc : ServerPc) : Conn :=
  { c with
    stream := c.stream.drop n
    server := { c.server with
      pc := pc, buf := c.stream.take n, received := c.server.received ++ [c.stream.take n] } }

/-- All that an act of a connection may do. -/
inductive Conn.Effect (c : Conn) : ConnAct → Conn → Prop where
  | ready : c.client.alive = true → c.client.pc = .ready →
      c.Effect .client { c with client := { c.client with pc := .wait, outbox := c.client.outbox ++ [.ready] } }
  | term {rest : List MasterClientCmd} : c.client.alive = true → c.client.pc = .wait → c.client.inbox = .term :: rest →
      c.Effect .client { c with client := { c.client with pc := .exited, inbox := rest, alive := false } }
  | exec {r : Round} {rest : List MasterClientCmd} :
      c.client.alive = true → c.client.pc = .wait → c.client.inbox = .exec r :: rest →
      c.Effect .client
        { c with client := { c.client with pc := .stream r 0, inbox := rest, alive := decide (r.msglen ≠ 0) } }
  | leave {r : Round} {sent : ℕ} :
      c.client.alive = true → c.client.pc = .stream r sent → ¬ (sent : ℤ) < asInt r.msgcnt →
      c.Effect .client { c with client := { c.client with pc := .report r } }
  | finish {r : Round} : c.client.alive = true → c.client.pc = .report r →
      c.Effect .client { c with client := { c.client with
        pc := .wait, outbox := c.client.outbox ++ [.finished], executed := c.client.executed ++ [r] } }
  | send {r : Round} {sent : ℕ} :
      c.client.alive = true → c.client.pc = .stream r sent → (sent : ℤ) < asInt r.msgcnt →
      SendRet (asInt r.msglen) (asInt r.msglen) → c.Effect (.send (asInt r.msglen)) (c.put (asInt r.msglen).toNat sent
        { c.client with pc := if r.bounce = 0 then .stream r (sent + 1) else .bounced r (sent + 1) })
  | cut {r : Round} {sent : ℕ} {ret : ℤ} :
      c.client.alive = true → c.client.pc = .stream r sent → (sent : ℤ) < asInt r.msgcnt → SendRet ret (asInt r.msglen) →
      ret ≠ asInt r.msglen → c.Effect (.send ret) (c.put ret.toNat sent { c.client with alive := false })
  | await {r : Round} {sent : ℕ} :
      c.client.alive = true → c.client.pc = .bounced r sent → c.echoes ≠ [] ∨ c.server.alive = false →
      RecvRet (asInt r.msglen) (asInt r.msglen) c.echoes.length → c.Effect (.clientRecv (asInt r.msglen)) { c with
        echoes := c.echoes.drop (asInt r.msglen).toNat, client := { c.client with pc := .stream r sent } }
  | accept {r : Round} {rest : List Round} : c.server.alive = true → c.server.pc = .wait → c.server.inbox = r :: rest →
      c.Effect .server { c with server := { c.server with pc := .ack r, inbox := rest } }
  | ack {r : Round} : c.server.alive = true → c.server.pc = .ack r →
      c.Effect .server { c with server := { c.server with pc := .recv r 0, outbox := c.server.outbox ++ [.msglenAck] } }
  | serverLeave {r : Round} {rcvd : ℕ} :
      c.server.alive = true → c.server.pc = .recv r rcvd → ¬ rcvd < r.msgcnt.toNat →
      c.Effect .server { c with server := { c.server with pc := .report r } }
  | serverFinish {r : Round} : c.server.alive = true → c.server.pc = .report r →
      c.Effect .server { c with server := { c.server with
        pc := .wait, outbox := c.server.outbox ++ [.finished], served := c.server.served ++ [r] } }
  | recv {r : Round} {rcvd : ℕ} :
      c.server.alive = true → c.server.pc = .recv r rcvd → rcvd < r.msgcnt.toNat →
      c.stream ≠ [] ∨ c.client.alive = false → r.msglen.toNat ≤ c.stream.length →
      c.Effect .serverRecv
        (c.take r.msglen.toNat (if r.bounce = 0 then .recv r (rcvd + 1) else .echo r (rcvd + 1)))
  | echo {r : Round} {rcvd : ℕ} :
      c.server.alive = true → c.server.pc = .echo r rcvd → SendRet r.msglen.toNat r.msglen.toNat →
      c.Effect (.echo r.msglen.toNat) { c with
        echoes := c.echoes ++ c.server.buf.take r.msglen.toNat, server := { c.server with pc := .recv r rcvd } }
  | echoCut {r : Round} {rcvd : ℕ} {ret : ℤ} :
      c.server.alive = true → c.server.pc = .echo r rcvd → SendRet ret r.msglen.toNat → ret ≠ r.msglen.toNat →
      c.Effect (.echo ret) { c with
        echoes := c.echoes ++ c.server.buf.take ret.toNat, server := { c.server with alive := false } }
  | dieClient : c.Effect .dieClient { c with client := { c.client with alive := false } }
  | dieServer : c.Effect .dieServer { c with server := { c.server with alive := false } }

theorem Conn.effect_client {c c' : Conn} (ha : c.client.alive = true) (hs : c.clientStep = some c') :
    c.Effect .client c' := by
  unfold Conn.clientStep at hs
  split at hs
  next => nomatch hs
  next hpc =>
    obtain rfl := Option.some.inj hs
    exact .ready ha hpc
  next hpc =>
    split at hs
    next => nomatch hs
    next hin =>
      obtain rfl := Option.some.inj hs
      exact .term ha hpc hin
    next hin =>
      obtain rfl := Option.some.inj hs
      exact .exec ha hpc hin
  next hpc =>
    obtain ⟨hdone, hs⟩ := Option.ite_none_left_eq_some.mp hs
    obtain rfl := Option.some.inj hs
    exact .leave ha hpc hdone
  next => nomatch hs
  next hpc =>
    obtain rfl := Option.some.inj hs
    exact .finish ha hpc
  next => nomatch hs

theorem Conn.effect_send {c c' : Conn} {ret : ℤ} (ha : c.client.alive = true) (hs : c.clientSend ret = some c') :
    c.Effect (.send ret) c' := by
  unfold Conn.clientSend at hs
  split at hs
  next hpc =>
    obtain ⟨⟨hlt, hret⟩, hs⟩ := Option.ite_none_right_eq_some.mp hs
    obtain rfl := Option.some.inj hs
    split
    next heq =>
      rw [heq] at hret ⊢
      exact .send ha hpc hlt hret
    next hne => exact .cut ha hpc hlt hret hne
  next => nomatch hs

theorem Conn.effect_clientRecv {c c' : Conn} {ret : ℤ} (ha : c.client.alive = true) (hs : c.clientRecv ret = some c') :
    c.Effect (.clientRecv ret) c' := by
  unfold Conn.clientRecv at hs
  split at hs
  next hpc =>
    obtain ⟨⟨hready, hret, rfl⟩, hs⟩ := Option.ite_none_right_eq_some.mp hs
    obtain rfl := Option.some.inj hs
    exact .await ha hpc hready hret
  next => nomatch hs

theorem Conn.effect_server {c c' : Conn} (ha : c.server.alive = true) (hs : c.serverStep = some c') :
    c.Effect .server c' := by
  unfold Conn.serverStep at hs
  split at hs
  next => nomatch hs
  next hpc =>
    split at hs
    next => nomatch hs
    next hin =>
      obtain rfl := Option.some.inj hs
      exact .accept ha hpc hin
  next hpc =>
    obtain rfl := Option.some.inj hs
    exact .ack ha hpc
  next hpc =>
    obtain ⟨hdone, hs⟩ := Option.ite_none_left_eq_some.mp hs
    obtain rfl := Option.some.inj hs
    exact .serverLeave ha hpc hdone
  next => nomatch hs
  next hpc =>
    obtain rfl := Option.some.inj hs
    exact .serverFinish ha hpc

theorem Conn.effect_serverRecv {c c' : Conn} (ha : c.server.alive = true) (hs : c.serverRecv = some c') :
    c.Effect .serverRecv c' := by
  unfold Conn.serverRecv at hs
  split at hs
  next hpc =>
    obtain ⟨⟨hlt, hready, hle⟩, hs⟩ := Option.ite_none_right_eq_some.mp hs
    obtain rfl := Option.some.inj hs
    exact .recv ha hpc hlt hready hle
  next => nomatch hs

theorem Conn.effect_echo {c c' : Conn} {ret : ℤ} (ha : c.server.alive = true) (hs : c.serverEcho ret = some c') :
    c.Effect (.echo ret) c' := by
  unfold Conn.serverEcho at hs
  split at hs
  next hpc =>
    obtain ⟨hret, hs⟩ := Option.ite_none_right_eq_some.mp hs
    obtain rfl := Option.some.inj hs
    split
    next heq =>
      rw [heq] at hret ⊢
      exact .echo ha hpc hret
    next hne => exact .echoCut ha hpc hret hne
  next => nomatch hs

/-- **What an act does** is one of these. -/
theorem Conn.effect {c c' : Conn} {a : ConnAct} (hs : c.act a = some c') : c.Effect a c' := by
  cases a with
  | client =>
    obtain ⟨ha, hs⟩ := Option.ite_none_right_eq_some.mp hs
    exact Conn.effect_client ha hs
  | send ret =>
    obtain ⟨ha, hs⟩ := Option.ite_none_right_eq_some.mp hs
    exact Conn.effect_send ha hs
  | clientRecv ret =>
    obtain ⟨ha, hs⟩ := Option.ite_none_right_eq_some.mp hs
    exact Conn.effect_clientRecv ha hs
  | server =>
    obtain ⟨ha, hs⟩ := Option.ite_none_right_eq_some.mp hs
    exact Conn.effect_server ha hs
  | serverRecv =>
    obtain ⟨ha, hs⟩ := Option.ite_none_right_eq_some.mp hs
    exact Conn.effect_serverRecv ha hs
  | echo ret =>
    obtain ⟨ha, hs⟩ := Option.ite_none_right_eq_some.mp hs
    exact Conn.effect_echo ha hs
  | dieClient =>
    obtain rfl := Option.some.inj hs
    exact .dieClient
  | dieServer =>
    obtain rfl := Option.some.inj hs
    exact .dieServer

/-! ## The invariant -/

/-- A client that has been told the rounds `execd`, and has written the octets `written`. What a dying client has
    written of a message is `cut` short. -/
structure ClientInv (c : Client) (written : List Octet) (execd : List Round) : Prop where
  log : c.executed ++ c.pc.current ++ c.inbox.filterMap MasterClientCmd.round? = execd
  reports : c.read + c.outbox.length = c.reports
  starting : c.pc.starting = true → c.executed = []
  written : ∃ cut, written =
    (messagesOf Round.clientCnt Round.clientLen c.executed ++ c.pc.partialMessages c.executed.length).flatten ++ cut ∧
      (cut ≠ [] → c.alive = false ∧ c.pc.current ≠ [])
  bounded : c.pc.Bounded
  nonzero : ∀ r ∈ c.executed, r.msglen ≠ 0
  live : c.alive = true → ∀ r ∈ c.pc.current, r.msglen ≠ 0

/-- A server child that has been told the rounds `told`. -/
structure ServerInv (s : Server) (told : List Round) : Prop where
  log : s.served ++ s.pc.current ++ s.inbox = told
  reports : s.read + s.outbox.length = s.reports
  lengths : s.received.map List.length =
    (s.served.flatMap fun r => List.replicate r.cnt r.len) ++ s.pc.partialLengths
  bounded : s.pc.Bounded

/-- A connection of the rounds `told` and `execd`. -/
structure Conn.Inv (c : Conn) (told execd : List Round) : Prop where
  client : ClientInv c.client c.written (execd.drop c.born)
  server : ServerInv c.server (told.drop c.born)
  flow : c.server.received.flatten ++ c.stream = c.written
  born : c.born ≤ execd.length

variable {c c' : Conn} {told execd : List Round}

/-- As long as the client is alive it has written whole messages. -/
theorem ClientInv.written_of_alive {c : Client} {written : List Octet} {execd : List Round}
    (h : ClientInv c written execd) (ha : c.alive = true) :
    written =
      (messagesOf Round.clientCnt Round.clientLen c.executed ++ c.pc.partialMessages c.executed.length).flatten := by
  obtain ⟨cut, hw, hcut⟩ := h.written
  have hnil : cut = [] := by
    by_contra hne
    exact absurd ha (by simp [(hcut hne).1])
  rw [hw, hnil, List.append_nil]

/-- Between two commands it has, too. -/
theorem ClientInv.written_of_current {c : Client} {written : List Octet} {execd : List Round}
    (h : ClientInv c written execd) (hc : c.pc.current = []) :
    written = (messagesOf Round.clientCnt Round.clientLen c.executed).flatten := by
  obtain ⟨cut, hw, hcut⟩ := h.written
  have hnil : cut = [] := by
    by_contra hne
    exact (hcut hne).2 hc
  have hpart : c.pc.partialMessages c.executed.length = [] := by
    cases hpc : c.pc with
    | unborn | ready | wait | exited => rfl
    | stream r sent | bounced r sent | report r => simp [hpc, ClientPc.current] at hc
  rw [hw, hnil, hpart, List.append_nil, List.append_nil]

/-! ## The steps of a connection keep it -/

theorem conn_inv_create (h : told = execd) : (Conn.create told.length).Inv told execd := by
  subst h
  constructor
  · constructor <;> simp [Conn.create, ClientPc.current, Client.reports, ClientPc.starting, messagesOf,
      ClientPc.partialMessages, ClientPc.Bounded]
  · constructor <;> simp [Conn.create, ServerPc.current, Server.reports, ServerPc.acked, ServerPc.partialLengths,
      ServerPc.Bounded]
  · rfl
  · exact Nat.le_refl _

/-- A step of the client that writes nothing. -/
theorem Conn.Inv.setClient (h : c.Inv told execd) {cl : Client} (hcl : ClientInv cl c.written (execd.drop c.born)) :
    ({ c with client := cl } : Conn).Inv told execd :=
  ⟨hcl, h.server, h.flow, h.born⟩

/-- A step of the server child that reads nothing. -/
theorem Conn.Inv.setServer (h : c.Inv told execd) {sv : Server} (hsv : ServerInv sv (told.drop c.born))
    (hrecv : sv.received = c.server.received) : ({ c with server := sv } : Conn).Inv told execd :=
  ⟨h.client, hsv, by rw [← h.flow, ← hrecv], h.born⟩

/-- A client that goes on in its program without a report or a message. -/
theorem ClientInv.move {cl : Client} {written : List Octet} (h : ClientInv cl written execd) (ha : cl.alive = true)
    {pc : ClientPc} {inbox : List MasterClientCmd} {alive : Bool}
    (hlog : pc.current ++ inbox.filterMap MasterClientCmd.round? =
      cl.pc.current ++ cl.inbox.filterMap MasterClientCmd.round?)
    (hst : pc.starting = cl.pc.starting)
    (hpart : pc.partialMessages cl.executed.length = cl.pc.partialMessages cl.executed.length)
    (hbound : pc.Bounded) (hlive : alive = true → ∀ r ∈ pc.current, r.msglen ≠ 0) :
    ClientInv { cl with pc := pc, inbox := inbox, alive := alive } written execd := by
  constructor
  · show cl.executed ++ pc.current ++ inbox.filterMap MasterClientCmd.round? = execd
    rw [List.append_assoc, hlog, ← List.append_assoc]
    exact h.log
  · show cl.read + cl.outbox.length = cl.executed.length + if pc.starting then 0 else 1
    rw [hst]
    exact h.reports
  · intro hs
    exact h.starting (hst ▸ hs)
  · refine ⟨[], ?_, by simp⟩
    show written = (_ ++ pc.partialMessages cl.executed.length).flatten ++ []
    rw [hpart, List.append_nil]
    exact h.written_of_alive ha
  · exact hbound
  · exact h.nonzero
  · exact hlive

theorem Conn.Inv.ready (h : c.Inv told execd) (ha : c.client.alive = true) (hpc : c.client.pc = .ready) :
    ({ c with client := { c.client with pc := .wait, outbox := c.client.outbox ++ [.ready] } } : Conn).Inv told execd := by
  have hlog := h.client.log
  have hrep := h.client.reports
  have hw := h.client.written_of_alive ha
  have hexec := h.client.starting (by rw [hpc]; rfl)
  simp [hpc, hexec, Client.reports, ClientPc.starting, ClientPc.current, ClientPc.partialMessages] at hlog hrep hw
  apply h.setClient
  constructor
  · simpa [ClientPc.current, hexec] using hlog
  · simp [Client.reports, ClientPc.starting, hexec, hrep]
  · nofun
  · exact ⟨[], by simpa [ClientPc.partialMessages, hexec] using hw, by simp⟩
  · trivial
  · exact h.client.nonzero
  · simp [ClientPc.current]

theorem Conn.Inv.term (h : c.Inv told execd) {rest : List MasterClientCmd} (ha : c.client.alive = true)
    (hpc : c.client.pc = .wait) (hin : c.client.inbox = .term :: rest) :
    ({ c with client := { c.client with pc := .exited, inbox := rest, alive := false } } : Conn).Inv told execd := by
  apply h.setClient
  apply h.client.move ha
  · rw [hpc, hin]
    rfl
  · rw [hpc]
    rfl
  · rw [hpc]
    rfl
  · trivial
  · nofun

theorem Conn.Inv.exec (h : c.Inv told execd) {r : Round} {rest : List MasterClientCmd} (ha : c.client.alive = true)
    (hpc : c.client.pc = .wait) (hin : c.client.inbox = .exec r :: rest) :
    ({ c with client := { c.client with pc := .stream r 0, inbox := rest, alive := decide (r.msglen ≠ 0) } } : Conn).Inv
      told execd := by
  apply h.setClient
  apply h.client.move ha
  · rw [hpc, hin]
    rfl
  · rw [hpc]
    rfl
  · rw [hpc]
    rfl
  · exact Nat.zero_le _
  · simp [ClientPc.current]

theorem Conn.Inv.leave (h : c.Inv told execd) {r : Round} {sent : ℕ} (ha : c.client.alive = true)
    (hpc : c.client.pc = .stream r sent) (hdone : ¬ (sent : ℤ) < asInt r.msgcnt) :
    ({ c with client := { c.client with pc := .report r } } : Conn).Inv told execd := by
  have hbound := h.client.bounded
  have hlive := h.client.live ha
  rw [hpc] at hbound hlive
  have hall : sent = r.clientCnt := by
    have hle : sent ≤ r.clientCnt := hbound
    simp only [Round.clientCnt] at hle ⊢
    omega
  apply h.setClient
  apply h.client.move ha
  · rw [hpc]
    rfl
  · rw [hpc]
    rfl
  · rw [hpc, hall]
    rfl
  · trivial
  · intro _
    exact hlive

theorem Conn.Inv.finish (h : c.Inv told execd) {r : Round} (ha : c.client.alive = true) (hpc : c.client.pc = .report r) :
    ({ c with client := { c.client with
      pc := .wait, outbox := c.client.outbox ++ [.finished], executed := c.client.executed ++ [r] } } : Conn).Inv
      told execd := by
  have hlog := h.client.log
  have hrep := h.client.reports
  have hw := h.client.written_of_alive ha
  have hlive := h.client.live ha
  simp only [hpc, Client.reports, ClientPc.starting, ClientPc.current, ClientPc.partialMessages] at hlog hrep hw hlive
  apply h.setClient
  constructor
  · simpa [ClientPc.current] using hlog
  · simp [Client.reports, ClientPc.starting] at hrep ⊢
    omega
  · nofun
  · refine ⟨[], ?_, by simp⟩
    rw [messagesOf_concat]
    simpa [ClientPc.partialMessages] using hw
  · trivial
  · intro r' hr'
    rcases List.mem_append.mp hr' with hold | hnew
    · exact h.client.nonzero r' hold
    · exact hlive r' hnew
  · simp [ClientPc.current]

theorem Conn.Inv.await (h : c.Inv told execd) {r : Round} {sent n : ℕ} (ha : c.client.alive = true)
    (hpc : c.client.pc = .bounced r sent) :
    ({ c with echoes := c.echoes.drop n, client := { c.client with pc := .stream r sent } } : Conn).Inv told execd := by
  have hbound := h.client.bounded
  have hlive := h.client.live ha
  rw [hpc] at hbound hlive
  refine ⟨?_, h.server, h.flow, h.born⟩
  apply h.client.move ha
  · rw [hpc]
    rfl
  · rw [hpc]
    rfl
  · rw [hpc]
    rfl
  · exact hbound
  · intro _
    exact hlive

/-- A `send` puts its octets into the connection. -/
theorem Conn.Inv.put (h : c.Inv told execd) {n sent : ℕ} {cl : Client}
    (hcl : ClientInv cl (c.written ++ List.replicate n ⟨c.client.executed.length, sent⟩) (execd.drop c.born)) :
    (c.put n sent cl).Inv told execd := by
  refine ⟨hcl, h.server, ?_, h.born⟩
  show c.server.received.flatten ++ (c.stream ++ _) = c.written ++ _
  rw [← List.append_assoc, h.flow]

/-- The client writes a whole message. -/
theorem Conn.Inv.send (h : c.Inv told execd) {r : Round} {sent : ℕ} (ha : c.client.alive = true)
    (hpc : c.client.pc = .stream r sent) (hlt : (sent : ℤ) < asInt r.msgcnt) :
    (c.put (asInt r.msglen).toNat sent
      { c.client with pc := if r.bounce = 0 then .stream r (sent + 1) else .bounced r (sent + 1) }).Inv told execd := by
  have hlog := h.client.log
  have hrep := h.client.reports
  have hw := h.client.written_of_alive ha
  have hlive := h.client.live ha
  simp only [hpc, Client.reports, ClientPc.starting, ClientPc.current, ClientPc.partialMessages] at hlog hrep hw hlive
  have hnext (pc : ClientPc) (hcur : pc.current = [r]) (hst : pc.starting = false)
      (hpart : pc.partialMessages c.client.executed.length =
        roundMessages c.client.executed.length (sent + 1) r.clientLen)
      (hb : pc.Bounded) : ClientInv { c.client with pc := pc }
        (c.written ++ List.replicate (asInt r.msglen).toNat ⟨c.client.executed.length, sent⟩) (execd.drop c.born) := by
    constructor
    · simpa [hcur] using hlog
    · simpa [Client.reports, hst] using hrep
    · intro hst'
      simp [hst] at hst'
    · refine ⟨[], ?_, by simp⟩
      simp only [hpart]
      rw [roundMessages_succ, hw, Round.clientLen]
      simp
    · exact hb
    · exact h.client.nonzero
    · intro _
      simpa [hcur] using hlive
  have hle : sent + 1 ≤ r.clientCnt := by
    simp only [Round.clientCnt]
    omega
  apply h.put
  by_cases hb : r.bounce = 0
  · rw [if_pos hb]
    exact hnext _ rfl rfl rfl hle
  · rw [if_neg hb]
    exact hnext _ rfl rfl rfl hle

/-- The client writes a part of a message, and dies. -/
theorem Conn.Inv.cut (h : c.Inv told execd) {r : Round} {sent n : ℕ} (ha : c.client.alive = true)
    (hpc : c.client.pc = .stream r sent) : (c.put n sent { c.client with alive := false }).Inv told execd := by
  have hlog := h.client.log
  have hrep := h.client.reports
  have hw := h.client.written_of_alive ha
  have hbound := h.client.bounded
  simp only [hpc, Client.reports, ClientPc.starting, ClientPc.current, ClientPc.partialMessages] at hlog hrep hw
  apply h.put
  constructor
  · simpa [hpc, ClientPc.current] using hlog
  · simpa [hpc, Client.reports, ClientPc.starting] using hrep
  · exact h.client.starting
  · refine ⟨List.replicate n ⟨c.client.executed.length, sent⟩, ?_, ?_⟩
    · rw [hw]
      simp only [hpc, ClientPc.partialMessages]
    · intro _
      simp [hpc, ClientPc.current]
  · exact hbound
  · exact h.client.nonzero
  · nofun

/-- A server child that goes on in its program without a report or a message. -/
theorem ServerInv.move {sv : Server} (h : ServerInv sv told) {pc : ServerPc} {inbox : List Round}
    (hlog : pc.current ++ inbox = sv.pc.current ++ sv.inbox) (hack : pc.acked = sv.pc.acked)
    (hpart : pc.partialLengths = sv.pc.partialLengths) (hbound : pc.Bounded) :
    ServerInv { sv with pc := pc, inbox := inbox } told := by
  constructor
  · show sv.served ++ pc.current ++ inbox = told
    rw [List.append_assoc, hlog, ← List.append_assoc]
    exact h.log
  · show sv.read + sv.outbox.length = 2 * sv.served.length + if pc.acked then 1 else 0
    rw [hack]
    exact h.reports
  · show sv.received.map List.length = _ ++ pc.partialLengths
    rw [hpart]
    exact h.lengths
  · exact hbound

theorem Conn.Inv.accept (h : c.Inv told execd) {r : Round} {rest : List Round} (hpc : c.server.pc = .wait)
    (hin : c.server.inbox = r :: rest) :
    ({ c with server := { c.server with pc := .ack r, inbox := rest } } : Conn).Inv told execd := by
  refine h.setServer ?_ rfl
  apply h.server.move
  · rw [hpc, hin]
    rfl
  · rw [hpc]
    rfl
  · rw [hpc]
    rfl
  · trivial

theorem Conn.Inv.ack (h : c.Inv told execd) {r : Round} (hpc : c.server.pc = .ack r) :
    ({ c with server := { c.server with pc := .recv r 0, outbox := c.server.outbox ++ [.msglenAck] } } : Conn).Inv
      told execd := by
  have hlog := h.server.log
  have hrep := h.server.reports
  have hlen := h.server.lengths
  simp only [hpc, Server.reports, ServerPc.acked, ServerPc.current, ServerPc.partialLengths] at hlog hrep hlen
  refine h.setServer ?_ rfl
  constructor
  · simpa [ServerPc.current] using hlog
  · simp [Server.reports, ServerPc.acked] at hrep ⊢
    omega
  · simpa [ServerPc.partialLengths] using hlen
  · exact Nat.zero_le _

theorem Conn.Inv.serverLeave (h : c.Inv told execd) {r : Round} {rcvd : ℕ} (hpc : c.server.pc = .recv r rcvd)
    (hdone : ¬ rcvd < r.msgcnt.toNat) :
    ({ c with server := { c.server with pc := .report r } } : Conn).Inv told execd := by
  have hbound := h.server.bounded
  rw [hpc] at hbound
  have hall : rcvd = r.cnt := Nat.le_antisymm hbound (Nat.not_lt.mp hdone)
  refine h.setServer ?_ rfl
  apply h.server.move
  · rw [hpc]
    rfl
  · rw [hpc]
    rfl
  · rw [hpc, hall]
    rfl
  · trivial

theorem Conn.Inv.serverFinish (h : c.Inv told execd) {r : Round} (hpc : c.server.pc = .report r) :
    ({ c with server := { c.server with
      pc := .wait, outbox := c.server.outbox ++ [.finished], served := c.server.served ++ [r] } } : Conn).Inv
      told execd := by
  have hlog := h.server.log
  have hrep := h.server.reports
  have hlen := h.server.lengths
  simp only [hpc, Server.reports, ServerPc.acked, ServerPc.current, ServerPc.partialLengths] at hlog hrep hlen
  refine h.setServer ?_ rfl
  constructor
  · simpa [ServerPc.current] using hlog
  · simp [Server.reports, ServerPc.acked] at hrep ⊢
    omega
  · simpa [ServerPc.partialLengths] using hlen
  · trivial

/-- A `recv` takes a whole message off the stream. -/
theorem Conn.Inv.recv (h : c.Inv told execd) {r : Round} {rcvd : ℕ} (hpc : c.server.pc = .recv r rcvd)
    (hlt : rcvd < r.msgcnt.toNat) (hle : r.msglen.toNat ≤ c.stream.length) :
    (c.take r.msglen.toNat (if r.bounce = 0 then .recv r (rcvd + 1) else .echo r (rcvd + 1))).Inv told execd := by
  have hlog := h.server.log
  have hrep := h.server.reports
  have hlen := h.server.lengths
  simp only [hpc, Server.reports, ServerPc.acked, ServerPc.current, ServerPc.partialLengths] at hlog hrep hlen
  have hmsg : (c.stream.take r.msglen.toNat).length = r.len := List.length_take_of_le hle
  have hnext (pc : ServerPc) (hcur : pc.current = [r]) (hack : pc.acked = true)
      (hpart : pc.partialLengths = List.replicate (rcvd + 1) r.len) (hb : pc.Bounded) :
      ServerInv { c.server with
        pc := pc, buf := c.stream.take r.msglen.toNat,
        received := c.server.received ++ [c.stream.take r.msglen.toNat] } (told.drop c.born) := by
    constructor
    · simpa [hcur] using hlog
    · simpa [Server.reports, hack] using hrep
    · simp only [hpart, List.map_append, hlen, List.append_assoc, List.map_cons, List.map_nil, hmsg,
        List.replicate_succ']
    · exact hb
  refine ⟨h.client, ?_, ?_, h.born⟩
  · by_cases hb : r.bounce = 0
    · rw [if_pos hb]
      exact hnext _ rfl rfl rfl hlt
    · rw [if_neg hb]
      exact hnext _ rfl rfl rfl hlt
  · show (c.server.received ++ [c.stream.take r.msglen.toNat]).flatten ++ c.stream.drop r.msglen.toNat = c.written
    rw [List.flatten_append, List.flatten_singleton, List.append_assoc, List.take_append_drop]
    exact h.flow

/-- What is echoed is not looked at here. -/
theorem Conn.Inv.setEchoes (h : c.Inv told execd) (echoes : List Octet) :
    ({ c with echoes := echoes } : Conn).Inv told execd :=
  ⟨h.client, h.server, h.flow, h.born⟩

theorem Conn.Inv.echo (h : c.Inv told execd) {r : Round} {rcvd : ℕ} (hpc : c.server.pc = .echo r rcvd) :
    ({ c with server := { c.server with pc := .recv r rcvd } } : Conn).Inv told execd := by
  have hbound := h.server.bounded
  rw [hpc] at hbound
  refine h.setServer ?_ rfl
  apply h.server.move
  · rw [hpc]
    rfl
  · rw [hpc]
    rfl
  · rw [hpc]
    rfl
  · exact hbound

theorem Conn.Inv.dieClient (h : c.Inv told execd) :
    ({ c with client := { c.client with alive := false } } : Conn).Inv told execd := by
  have hcl := h.client
  obtain ⟨cut, hw, hcut⟩ := hcl.written
  apply h.setClient
  exact ⟨hcl.log, hcl.reports, hcl.starting, ⟨cut, hw, fun hne => ⟨rfl, (hcut hne).2⟩⟩, hcl.bounded, hcl.nonzero, nofun⟩

theorem Conn.Inv.dieServer (h : c.Inv told execd) :
    ({ c with server := { c.server with alive := false } } : Conn).Inv told execd := by
  have hsv := h.server
  exact h.setServer ⟨hsv.log, hsv.reports, hsv.lengths, hsv.bounded⟩ rfl

/-- **Every step of a connection keeps its invariant.** -/
theorem Conn.Inv.act {a : ConnAct} (h : c.Inv told execd) (hs : c.act a = some c') : c'.Inv told execd := by
  cases Conn.effect hs with
  | ready ha hpc => exact h.ready ha hpc
  | term ha hpc hin => exact h.term ha hpc hin
  | exec ha hpc hin => exact h.exec ha hpc hin
  | leave ha hpc hdone => exact h.leave ha hpc hdone
  | finish ha hpc => exact h.finish ha hpc
  | send ha hpc hlt _ => exact h.send ha hpc hlt
  | cut ha hpc _ _ _ => exact h.cut ha hpc
  | await ha hpc _ _ => exact h.await ha hpc
  | accept _ hpc hin => exact h.accept hpc hin
  | ack _ hpc => exact h.ack hpc
  | serverLeave _ hpc hdone => exact h.serverLeave hpc hdone
  | serverFinish _ hpc => exact h.serverFinish hpc
  | recv _ hpc hlt _ hle => exact h.recv hpc hlt hle
  | echo _ hpc _ => exact (h.echo hpc).setEchoes _
  | echoCut _ _ _ _ => exact h.dieServer.setEchoes _
  | dieClient => exact h.dieClient
  | dieServer => exact h.dieServer

/-! ## What the others see of it -/

/-- `c'` is `c` some steps later: nothing of it is read by the master in between. -/
structure Conn.Later (c c' : Conn) : Prop where
  born : c'.born = c.born
  clientRead : c'.client.read = c.client.read
  serverRead : c'.server.read = c.server.read
  executed : c.client.executed.length ≤ c'.client.executed.length
  reports : c.server.reports ≤ c'.server.reports

theorem Conn.Later.of_client {c c' : Conn} (hs : c'.server = c.server) (hb : c'.born = c.born)
    (hr : c'.client.read = c.client.read) (he : c.client.executed.length ≤ c'.client.executed.length) : c.Later c' :=
  ⟨hb, hr, by rw [hs], he, by simp [hs]⟩

theorem Conn.Later.of_server {c c' : Conn} (hc : c'.client = c.client) (hb : c'.born = c.born)
    (hr : c'.server.read = c.server.read) (he : c.server.reports ≤ c'.server.reports) : c.Later c' :=
  ⟨hb, by rw [hc], hr, by simp [hc], he⟩

theorem Conn.later_act {a : ConnAct} (hs : c.act a = some c') : c.Later c' := by
  cases Conn.effect hs with
  | ready _ _ | term _ _ _ | exec _ _ _ | leave _ _ _ | send _ _ _ _ | cut _ _ _ _ _ | await _ _ _ _ | dieClient =>
    exact .of_client rfl rfl rfl (Nat.le_refl _)
  | finish _ _ =>
    refine .of_client rfl rfl rfl ?_
    rw [List.length_append]
    exact Nat.le_add_right _ _
  | accept _ hpc _ | ack _ hpc | serverLeave _ hpc _ | echo _ hpc _ =>
    refine .of_server rfl rfl rfl ?_
    simp [Server.reports, hpc, ServerPc.acked]
  | serverFinish _ hpc =>
    refine .of_server rfl rfl rfl ?_
    show 2 * _ + (if c.server.pc.acked then 1 else 0) ≤ 2 * (c.server.served ++ _).length + 0
    rw [hpc, List.length_append]
    simp only [ServerPc.acked, if_true, List.length_singleton]
    omega
  | @recv r _ _ hpc _ _ _ =>
    refine .of_server rfl rfl rfl ?_
    by_cases hb : r.bounce = 0 <;> simp [Server.reports, Conn.take, hpc, hb, ServerPc.acked]
  | echoCut _ _ _ _ | dieServer => exact .of_server rfl rfl rfl (Nat.le_refl _)

theorem Conn.unborn_act {a : ConnAct} (hs : Conn.unborn.act a = some c') : c' = .unborn := by
  cases a with
  | client | send _ | clientRecv _ | server | serverRecv | echo _ => simp [Conn.act, Conn.unborn] at hs
  | dieClient | dieServer => exact (Option.some.inj hs).symm

/-- The servers are told of a round. -/
theorem Conn.Inv.tellServer (h : c.Inv told execd) (hb : c.born ≤ told.length) (r : Round) :
    (c.tellServer r).Inv (told ++ [r]) execd := by
  refine ⟨h.client, ⟨?_, h.server.reports, h.server.lengths, h.server.bounded⟩, h.flow, h.born⟩
  show c.server.served ++ c.server.pc.current ++ (c.server.inbox ++ [r]) = (told ++ [r]).drop c.born
  rw [List.drop_append_of_le_length hb, ← h.server.log, List.append_assoc _ _ [r]]

/-- The clients are told of a round. -/
theorem Conn.Inv.tellExec (h : c.Inv told execd) (r : Round) : (c.tellClient (.exec r)).Inv told (execd ++ [r]) := by
  have hcl := h.client
  refine ⟨⟨?_, hcl.reports, hcl.starting, hcl.written, hcl.bounded, hcl.nonzero, hcl.live⟩, h.server, h.flow, ?_⟩
  · show c.client.executed ++ c.client.pc.current ++ (c.client.inbox ++ [MasterClientCmd.exec r]).filterMap MasterClientCmd.round? =
      (execd ++ [r]).drop c.born
    rw [List.drop_append_of_le_length h.born, ← hcl.log, List.filterMap_append, List.append_assoc _ _ [r]]
    rfl
  · show c.born ≤ (execd ++ [r]).length
    rw [List.length_append]
    exact Nat.le_add_right_of_le h.born

/-- The clients are told to terminate. -/
theorem Conn.Inv.tellTerm (h : c.Inv told execd) : (c.tellClient .term).Inv told execd := by
  have hcl := h.client
  refine ⟨⟨?_, hcl.reports, hcl.starting, hcl.written, hcl.bounded, hcl.nonzero, hcl.live⟩, h.server, h.flow, h.born⟩
  show c.client.executed ++ c.client.pc.current ++ (c.client.inbox ++ [MasterClientCmd.term]).filterMap MasterClientCmd.round? =
    execd.drop c.born
  rw [← hcl.log, List.filterMap_append]
  simp [MasterClientCmd.round?]

/-! ## How far both are -/

theorem ClientInv.reports_le {cl : Client} {written : List Octet} (h : ClientInv cl written execd) :
    cl.reports ≤ execd.length + 1 := by
  have hlog := congrArg List.length h.log
  simp only [List.length_append, Client.reports] at hlog ⊢
  split <;> omega

/-- A client whose reports are all read is between two commands, after the last one. -/
theorem ClientInv.done {cl : Client} {written : List Octet} (h : ClientInv cl written execd)
    (hread : execd.length + 1 ≤ cl.read) :
    cl.executed = execd ∧ cl.pc.current = [] ∧ cl.outbox = [] ∧ cl.read = execd.length + 1 := by
  have hrep := h.reports
  have hlog := congrArg List.length h.log
  have hlen : cl.reports ≤ cl.executed.length + 1 := by
    simp only [Client.reports]
    split <;> omega
  simp only [List.length_append] at hlog
  have hcur : cl.pc.current = [] := List.eq_nil_of_length_eq_zero (by omega)
  have hin : cl.inbox.filterMap MasterClientCmd.round? = [] := List.eq_nil_of_length_eq_zero (by omega)
  refine ⟨?_, hcur, List.eq_nil_of_length_eq_zero (by omega), by omega⟩
  have hexec := h.log
  rw [hcur, hin, List.append_nil, List.append_nil] at hexec
  exact hexec

theorem ServerPc.length_current_of_acked {pc : ServerPc} (h : pc.acked = true) : pc.current.length = 1 := by
  cases pc with
  | unborn | wait | ack r => nomatch h
  | recv r rcvd | echo r rcvd | report r => rfl

theorem ServerInv.reports_le {sv : Server} (h : ServerInv sv told) : sv.reports ≤ 2 * told.length := by
  have hlog := congrArg List.length h.log
  simp only [List.length_append] at hlog
  simp only [Server.reports]
  split
  next hack =>
    have := ServerPc.length_current_of_acked hack
    omega
  · omega

/-- A server child that has sent all its reports has served all its rounds. -/
theorem ServerInv.done {sv : Server} (h : ServerInv sv told) (hrep : 2 * told.length ≤ sv.reports) :
    sv.served = told ∧ sv.pc.current = [] := by
  have hlog := congrArg List.length h.log
  simp only [List.length_append] at hlog
  have hlen : 2 * told.length ≤ 2 * sv.served.length := by
    simp only [Server.reports] at hrep
    split at hrep
    next hack =>
      have := ServerPc.length_current_of_acked hack
      omega
    · omega
  have hcur : sv.pc.current = [] := List.eq_nil_of_length_eq_zero (by omega)
  have hin : sv.inbox = [] := List.eq_nil_of_length_eq_zero (by omega)
  refine ⟨?_, hcur⟩
  have hserved := h.log
  rw [hcur, hin, List.append_nil, List.append_nil] at hserved
  exact hserved

/-- A server child that has acknowledged the last round has accepted them all. -/
theorem ServerInv.accepted {sv : Server} (h : ServerInv sv told) (hrep : 2 * told.length ≤ sv.reports + 1) :
    sv.accepted = told := by
  have hlog := congrArg List.length h.log
  simp only [List.length_append] at hlog
  have hlen : told.length ≤ sv.served.length + sv.pc.current.length := by
    simp only [Server.reports] at hrep
    split at hrep
    next hack =>
      have := ServerPc.length_current_of_acked hack
      omega
    · omega
  have hin : sv.inbox = [] := List.eq_nil_of_length_eq_zero (by omega)
  have haccepted := h.log
  rw [hin, List.append_nil] at haccepted
  exact haccepted

/-! ## Octets -/

/-- The octets that a client writes for a list of rounds, and those that a server child asks for. -/
def clientOctets (l : List Round) : ℕ := (l.map fun r => r.clientCnt * r.clientLen).sum
def serverOctets (l : List Round) : ℕ := (l.map fun r => r.cnt * r.len).sum

theorem sum_flatMap_replicate (cnt len : Round → ℕ) (l : List Round) :
    (l.flatMap fun r => List.replicate (cnt r) (len r)).sum = (l.map fun r => cnt r * len r).sum := by
  induction l with
  | nil => rfl
  | cons r l ih => simp [ih]

theorem length_flatten_messagesOf (cnt len : Round → ℕ) (l : List Round) :
    (messagesOf cnt len l).flatten.length = (l.map fun r => cnt r * len r).sum := by
  rw [List.length_flatten, messagesOf_lengths, sum_flatMap_replicate]

theorem clientOctets_round_le (r : Round) : r.clientCnt * r.clientLen ≤ r.cnt * r.len :=
  Nat.mul_le_mul (asInt_toNat_le _) (asInt_toNat_le _)

theorem clientOctets_le (l : List Round) : clientOctets l ≤ serverOctets l := by
  induction l with
  | nil => exact Nat.le_refl _
  | cons r l ih =>
    have := clientOctets_round_le r
    simp only [clientOctets, serverOctets, List.map_cons, List.sum_cons] at ih ⊢
    omega

/-- Where the totals agree, each round does. -/
theorem clientOctets_eq {l : List Round} (h : serverOctets l ≤ clientOctets l) :
    ∀ r ∈ l, r.clientCnt * r.clientLen = r.cnt * r.len := by
  induction l with
  | nil => nofun
  | cons r l ih =>
    have hr := clientOctets_round_le r
    have hl := clientOctets_le l
    simp only [clientOctets, serverOctets, List.map_cons, List.sum_cons] at h hl ih
    intro r' hr'
    rcases List.mem_cons.mp hr' with rfl | hmem
    · omega
    · exact ih (by omega) r' hmem

/-- What a server child has received and what is on its way is what its client has written. -/
theorem Conn.Inv.octets (h : c.Inv told execd) :
    serverOctets c.server.served + c.server.pc.partialLengths.sum + c.stream.length = c.written.length := by
  have hflow := congrArg List.length h.flow
  rw [List.length_append, List.length_flatten, h.server.lengths, List.sum_append, sum_flatMap_replicate] at hflow
  exact hflow

/-- A client that has executed all its rounds has written their octets. -/
theorem Conn.Inv.written_length (h : c.Inv told execd) (hcur : c.client.pc.current = []) :
    c.written.length = clientOctets c.client.executed := by
  rw [h.client.written_of_current hcur, length_flatten_messagesOf]
  rfl

/-- **No server child is ahead of its client.** While the clients have not been told of the round `r`, a server child
    cannot finish it, as `r` has messages and none of them is written. -/
theorem Conn.Inv.not_ahead {r : Round} (h : c.Inv (execd ++ [r]) execd)
    (hread : c.client.read + c.born = execd.length + 1) (hcnt : 1 ≤ r.cnt) (hlen : r.msglen ≠ 0) :
    c.server.reports + 2 * c.born ≤ 2 * execd.length + 1 := by
  have hborn := h.born
  by_contra hlt
  obtain ⟨hexec, hcur, -, -⟩ := h.client.done (by rw [List.length_drop]; omega)
  obtain ⟨hserved, -⟩ := h.server.done (by
    rw [List.length_drop, List.length_append, List.length_singleton]
    omega)
  have hoct := h.octets
  rw [h.written_length hcur, hserved, hexec, List.drop_append_of_le_length hborn] at hoct
  have hle := clientOctets_le (execd.drop c.born)
  have hpos : 0 < r.cnt * r.len := Nat.mul_pos hcnt (Nat.pos_of_ne_zero (UInt32.toNat_ne_zero hlen))
  simp only [serverOctets, clientOctets, List.map_append, List.sum_append, List.map_cons, List.map_nil, List.sum_cons,
    List.sum_nil] at hoct hle
  omega

/-- A round that the master may ask for. -/
def Round.Valid (r : Round) : Prop := 1 ≤ r.msgcnt.toNat ∧ r.msgcnt.toNat < 2 ^ 31

instance (r : Round) : Decidable r.Valid := inferInstanceAs (Decidable (_ ∧ _))

theorem Round.Valid.clientCnt {r : Round} (h : r.Valid) : r.clientCnt = r.cnt := by
  rw [Round.clientCnt, asInt_of_lt h.2]
  rfl

/-- **Both are done.** Where the master has read all reports of both, the client has executed the rounds, and its
    server child has received their messages and nothing else. -/
theorem Conn.Inv.complete (h : c.Inv told told) (hvalid : ∀ r ∈ told, r.Valid)
    (hclient : c.client.read + c.born = told.length + 1) (hserver : c.server.read + 2 * c.born = 2 * told.length) :
    c.client.executed = told.drop c.born ∧ c.server.accepted = told.drop c.born ∧
      c.server.received = messages (told.drop c.born) ∧ c.stream = [] ∧
      c.client.outbox = [] ∧ c.server.outbox = [] := by
  have hborn := h.born
  have hsrep := h.server.reports
  have hsle := h.server.reports_le
  have hdrop := List.length_drop (l := told) (i := c.born)
  obtain ⟨hexec, hcur, hcout, -⟩ := h.client.done (by omega)
  obtain ⟨hserved, hscur⟩ := h.server.done (by omega)
  have hpart : c.server.pc.partialLengths = [] := by
    cases hpc : c.server.pc with
    | unborn | wait => rfl
    | ack r | recv r rcvd | echo r rcvd | report r => simp [hpc, ServerPc.current] at hscur
  -- the octets are the same in all, hence in each round
  have hoct := h.octets
  rw [h.written_length hcur, hexec, hserved, hpart] at hoct
  have hlen : ∀ r ∈ told.drop c.born, r.clientLen = r.len := by
    intro r hr
    have hv := hvalid r (List.mem_of_mem_drop hr)
    have heq := clientOctets_eq (by omega) r hr
    rw [hv.clientCnt] at heq
    exact Nat.eq_of_mul_eq_mul_left hv.1 heq
  have hmsgs : messagesOf Round.clientCnt Round.clientLen (told.drop c.born) = messages (told.drop c.born) := by
    apply List.flatMap_congr
    intro p hp
    have hmem := List.fst_mem_of_mem_zipIdx hp
    rw [(hvalid _ (List.mem_of_mem_drop hmem)).clientCnt, hlen _ hmem]
  have hflow := h.flow
  rw [h.client.written_of_current hcur, hexec, hmsgs] at hflow
  obtain ⟨hrecv, hstream⟩ := pieces_eq hflow (by
    rw [h.server.lengths, hserved, hpart, List.append_nil]
    exact (messagesOf_lengths _ _ _).symm)
  refine ⟨hexec, ?_, hrecv, hstream, hcout, List.eq_nil_of_length_eq_zero (by omega)⟩
  rw [Server.accepted, hserved, hscur, List.append_nil]

end Benchmark
end Tipcutils
