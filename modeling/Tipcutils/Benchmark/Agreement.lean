import Tipcutils.Benchmark.Connection
import Tipcutils.Benchmark.Options

/-!
# `Benchmark.Agreement` — client and server child agree on the data of a round

The two loops of a round, `stream_messages` and `echo_messages`, over a connection that loses nothing and with
processes that never wait too long (`Conn.loopStep`). The master sends both of them the same numbers, but the client takes
them for `int`s and the server child for `uint`s.

`Round.Agree` says what the demo relies on: all interleavings of the two loops are finite, nobody dies, and both loops
end with as many messages sent as received, echoed and awaited, and with nothing left in the connection.
**`loops_agree_iff`** says for which rounds it holds.
-/

namespace Tipcutils
namespace Benchmark

open Lts

/-! ## The two loops -/

/-- The acts of the two loops. A connection that loses nothing takes what it is given, as far as a length can say how much
    that is: a length that is negative for the client is more than 2⁶³ octets for `send`, whose answer is left open. -/
def Conn.inLoop (r : Round) (c : Conn) : ConnAct → Bool
  | .client => match c.client.pc with
    | .stream _ _ => true
    | _ => false
  | .send ret => decide (0 ≤ asInt r.msglen → ret = asInt r.msglen)
  | .clientRecv _ => true
  | .server => match c.server.pc with
    | .recv _ _ => true
    | _ => false
  | .serverRecv => true
  | .echo ret => decide (ret = r.msglen.toNat)
  | .dieClient | .dieServer => false

/-- A step of one of the two loops. -/
def Conn.loopStep (r : Round) (c : Conn) (a : ConnAct) : Option Conn := if c.inLoop r a then c.act a else none

/-- Both are at the beginning of their loops, and nothing is in the connection. -/
structure Conn.Entered (r : Round) (c : Conn) : Prop where
  client : c.client.pc = .stream r 0
  server : c.server.pc = .recv r 0
  clientAlive : c.client.alive = true
  serverAlive : c.server.alive = true
  stream : c.stream = []
  echoes : c.echoes = []

/-- Both wait for the same command, with nothing in the connection. -/
structure Conn.Told (r : Round) (c : Conn) : Prop where
  client : c.client.pc = .wait
  server : c.server.pc = .wait
  clientInbox : c.client.inbox = [.exec r]
  serverInbox : c.server.inbox = [r]
  clientAlive : c.client.alive = true
  serverAlive : c.server.alive = true
  stream : c.stream = []
  echoes : c.echoes = []

/-- From there they enter their loops. -/
theorem Conn.Told.enter {r : Round} {c : Conn} (h : c.Told r) (hlen : r.msglen ≠ 0) :
    ∃ c', exec Conn.act c [.server, .server, .client] = some c' ∧ c'.Entered r := by
  refine ⟨{ c with
    client := { c.client with pc := .stream r 0, inbox := [] }
    server := { c.server with pc := .recv r 0, inbox := [], outbox := c.server.outbox ++ [.msglenAck] } }, ?_, ?_⟩
  · simp [exec, Conn.act, Conn.serverStep, Conn.clientStep, h.client, h.server, h.clientInbox, h.serverInbox,
      h.clientAlive, h.serverAlive, hlen]
  · exact ⟨rfl, rfl, h.clientAlive, h.serverAlive, h.stream, h.echoes⟩

/-- What the two have done in their loops: messages sent, received, echoed and awaited, and how often they have left
    the loops. -/
@[ext] structure Progress where
  sent : ℕ
  rcvd : ℕ
  echoed : ℕ
  awaited : ℕ
  clientLeft : ℕ
  serverLeft : ℕ
deriving DecidableEq

def Progress.start : Progress := ⟨0, 0, 0, 0, 0, 0⟩

def Progress.after (p : Progress) : ConnAct → Progress
  | .client => { p with clientLeft := p.clientLeft + 1 }
  | .send _ => { p with sent := p.sent + 1 }
  | .clientRecv _ => { p with awaited := p.awaited + 1 }
  | .server => { p with serverLeft := p.serverLeft + 1 }
  | .serverRecv => { p with rcvd := p.rcvd + 1 }
  | .echo _ => { p with echoed := p.echoed + 1 }
  | .dieClient | .dieServer => p

/-- How many of `n` messages are echoed. -/
def Round.bounces (r : Round) (n : ℕ) : ℕ := if r.bounce = 0 then 0 else n

/-- Both loops have ended together: as many messages of the same length are sent and received, each is echoed and awaited
    once if they bounce, and no octet is left. -/
structure Round.Completed (r : Round) (c₀ : Conn) (acts : List ConnAct) (c : Conn) : Prop where
  client : c.client.pc = .report r
  server : c.server.pc = .report r
  progress : acts.foldl Progress.after .start = ⟨r.cnt, r.cnt, r.bounces r.cnt, r.bounces r.cnt, 1, 1⟩
  written : c.written = c₀.written ++ (roundMessages c₀.client.executed.length r.cnt r.len).flatten
  received : c.server.received = c₀.server.received ++ roundMessages c₀.client.executed.length r.cnt r.len
  stream : c.stream = []
  echoes : c.echoes = []

/-- The two loops agree on the data: however they interleave, they end, nobody dies, and where no step is left, both have
    ended together. -/
structure Round.Agree (r : Round) (c₀ : Conn) : Prop where
  ends : ∃ n, ∀ acts c, exec (Conn.loopStep r) c₀ acts = some c → acts.length ≤ n
  alive : ∀ acts c, exec (Conn.loopStep r) c₀ acts = some c → c.client.alive = true ∧ c.server.alive = true
  together : ∀ acts c, exec (Conn.loopStep r) c₀ acts = some c → (∀ a, c.loopStep r a = none) → r.Completed c₀ acts c

/-! ## The rounds that the master sends -/

/-- The lengths that a measurement loop comes to, with the numbers of their rounds. -/
inductive Params.Reaches (p : Params) : UInt64 → UInt64 → Prop where
  | first : p.Reaches p.firstMsglen.toUInt64 1
  | next {msglen iter : UInt64} :
      p.Reaches msglen iter → msglen ≤ p.lastMsglen.toUInt64 → p.Reaches (msglen * 4) (iter + 1)

/-- What the master sends in `RCV_MSG_LEN` and `CLNT_EXEC`, in one of its two tests. -/
inductive Params.Sends (p : Params) : Round → Prop where
  | latency {msglen iter msgcnt : UInt64} :
      p.latencyTransf ≠ 0 → p.Reaches msglen iter → msglen ≤ p.lastMsglen.toUInt64 →
      divUll p.latencyTransf.toUInt64 iter = some msgcnt → p.Sends (roundOf msglen msgcnt 1)
  | thruput {msglen iter divisor msgcnt : UInt64} :
      p.thruputTransf ≠ 0 → p.Reaches msglen iter → msglen ≤ p.lastMsglen.toUInt64 →
      shlOne (iter - 1) = some divisor → divUll p.thruputTransf.toUInt64 divisor = some msgcnt →
      p.Sends (roundOf msglen msgcnt 0)

/-! ## Messages on their way -/

/-- The octets of the messages `i`, …, `j - 1` of a round. -/
def octetsFrom (round len i j : ℕ) : List Octet :=
  (List.range' i (j - i)).flatMap fun seq => List.replicate len ⟨round, seq⟩

section
variable {round len i j : ℕ}

@[simp] theorem octetsFrom_self : octetsFrom round len i i = [] := by
  rw [octetsFrom, Nat.sub_self]
  rfl

/-- One more message is sent. -/
theorem octetsFrom_concat (h : i ≤ j) :
    octetsFrom round len i (j + 1) = octetsFrom round len i j ++ List.replicate len ⟨round, j⟩ := by
  rw [octetsFrom, Nat.sub_add_comm h, List.range'_concat, List.flatMap_append, Nat.one_mul, Nat.add_sub_cancel' h]
  simp [octetsFrom]

/-- The first message is received. -/
theorem octetsFrom_cons (h : i < j) :
    octetsFrom round len i j = List.replicate len ⟨round, i⟩ ++ octetsFrom round len (i + 1) j := by
  obtain ⟨n, rfl⟩ : ∃ n, j = i + 1 + n := ⟨j - (i + 1), by omega⟩
  rw [octetsFrom, octetsFrom, show i + 1 + n - i = n + 1 by omega, Nat.add_sub_cancel_left, List.range'_succ,
    List.flatMap_cons]

theorem drop_octetsFrom (h : i < j) : (octetsFrom round len i j).drop len = octetsFrom round len (i + 1) j := by
  rw [octetsFrom_cons h]
  exact List.drop_left' List.length_replicate

theorem take_octetsFrom (h : i < j) : (octetsFrom round len i j).take len = List.replicate len ⟨round, i⟩ := by
  rw [octetsFrom_cons h]
  exact List.take_left' List.length_replicate

theorem lt_of_octetsFrom_ne_nil (h : i ≤ j) (hne : octetsFrom round len i j ≠ []) : i < j := by
  apply Nat.lt_of_le_of_ne h
  rintro rfl
  exact hne octetsFrom_self

theorem octetsFrom_zero (cnt : ℕ) : octetsFrom round len 0 cnt = (roundMessages round cnt len).flatten := by
  rw [octetsFrom, roundMessages, Nat.sub_zero, ← List.range_eq_range', List.flatMap_def]

/-- There is a whole message. -/
theorem length_octetsFrom_of_lt (h : i < j) : len ≤ (octetsFrom round len i j).length := by
  rw [octetsFrom_cons h, List.length_append, List.length_replicate]
  exact Nat.le_add_right _ _

theorem octetsFrom_ne_nil (h : i < j) (hlen : 0 < len) : octetsFrom round len i j ≠ [] := by
  intro hnil
  have hle := @length_octetsFrom_of_lt round len i j h
  rw [hnil] at hle
  exact absurd hle (Nat.not_le_of_lt hlen)

end

/-! ## Where the two are -/

/-- Where a client is after the progress `p`. -/
def ClientAt (r : Round) (p : Progress) : ClientPc → Prop
  | .stream r' sent => r' = r ∧ p.sent = sent ∧ p.awaited = r.bounces sent ∧ p.clientLeft = 0 ∧ sent ≤ r.cnt
  | .bounced r' sent => r' = r ∧ p.sent = sent ∧ p.awaited + 1 = sent ∧ p.clientLeft = 0 ∧ sent ≤ r.cnt ∧ r.bounce ≠ 0
  | .report r' => r' = r ∧ p.sent = r.cnt ∧ p.awaited = r.bounces r.cnt ∧ p.clientLeft = 1
  | _ => False

/-- Where a server child is after the progress `p`. -/
def ServerAt (r : Round) (p : Progress) : ServerPc → Prop
  | .recv r' rcvd => r' = r ∧ p.rcvd = rcvd ∧ p.echoed = r.bounces rcvd ∧ p.serverLeft = 0 ∧ rcvd ≤ r.cnt
  | .echo r' rcvd => r' = r ∧ p.rcvd = rcvd ∧ p.echoed + 1 = rcvd ∧ p.serverLeft = 0 ∧ rcvd ≤ r.cnt ∧ r.bounce ≠ 0
  | .report r' => r' = r ∧ p.rcvd = r.cnt ∧ p.echoed = r.bounces r.cnt ∧ p.serverLeft = 1
  | _ => False

/-- The connection after the progress `p`, from `c₀`. -/
structure Conn.At (r : Round) (c₀ c : Conn) (p : Progress) : Prop where
  client : ClientAt r p c.client.pc
  server : ServerAt r p c.server.pc
  clientAlive : c.client.alive = true
  serverAlive : c.server.alive = true
  executed : c.client.executed = c₀.client.executed
  sent : p.rcvd ≤ p.sent
  echoed : p.awaited ≤ p.echoed
  stream : c.stream = octetsFrom c₀.client.executed.length r.len p.rcvd p.sent
  echoes : c.echoes = octetsFrom c₀.client.executed.length r.len p.awaited p.echoed
  buf : ∀ rcvd, c.server.pc = .echo r rcvd → c.server.buf = List.replicate r.len ⟨c₀.client.executed.length, p.echoed⟩
  written : c.written = c₀.written ++ octetsFrom c₀.client.executed.length r.len 0 p.sent
  received : c.server.received = c₀.server.received ++ roundMessages c₀.client.executed.length p.rcvd r.len

/-- A round whose numbers the client and the server child read alike. -/
structure Round.Alike (r : Round) : Prop where
  cnt : asInt r.msgcnt = r.cnt
  len : r.cnt = 0 ∨ asInt r.msglen = r.len
  pos : 0 < r.len

section
variable {r : Round} {c₀ c c' : Conn} {p : Progress}

theorem Round.bounces_of_eq {r : Round} (h : r.bounce = 0) (n : ℕ) : r.bounces n = 0 := if_pos h

theorem Round.bounces_of_ne {r : Round} (h : r.bounce ≠ 0) (n : ℕ) : r.bounces n = n := if_neg h

theorem Round.bounces_le (r : Round) (n : ℕ) : r.bounces n ≤ n := by
  rw [Round.bounces]
  split
  · exact Nat.zero_le n
  · exact Nat.le_refl n

theorem Conn.Entered.at (h : c.Entered r) : c.At r c .start := by
  have hb0 : r.bounces 0 = 0 := Nat.le_zero.mp (r.bounces_le 0)
  constructor
  · rw [h.client]
    exact ⟨rfl, rfl, hb0.symm, rfl, Nat.zero_le _⟩
  · rw [h.server]
    exact ⟨rfl, rfl, hb0.symm, rfl, Nat.zero_le _⟩
  · exact h.clientAlive
  · exact h.serverAlive
  · rfl
  · exact Nat.le_refl _
  · exact Nat.le_refl _
  · rw [h.stream]
    exact octetsFrom_self.symm
  · rw [h.echoes]
    exact octetsFrom_self.symm
  · rw [h.server]
    nofun
  · rw [show octetsFrom _ _ 0 Progress.start.sent = [] from octetsFrom_self, List.append_nil]
  · exact (List.append_nil _).symm

/-! ## A step keeps it -/

theorem Conn.loopStep_eq_some {a : ConnAct} (hs : c.loopStep r a = some c') : c.inLoop r a = true ∧ c.act a = some c' :=
  Option.ite_none_right_eq_some.mp hs

/-- The client leaves its loop with all messages sent. -/
theorem Conn.At.leave {r' : Round} {sent : ℕ} (h : c₀.At r c p) (hr : r.Alike) (hpc : c.client.pc = .stream r' sent)
    (hdone : ¬ (sent : ℤ) < asInt r'.msgcnt) :
    c₀.At r { c with client := { c.client with pc := .report r' } } (p.after .client) := by
  have hcl := h.client
  rw [hpc] at hcl
  obtain ⟨rfl, hsent, hawaited, hleft, hle⟩ := hcl
  rw [hr.cnt] at hdone
  obtain rfl : sent = r'.cnt := by omega
  exact ⟨⟨rfl, hsent, hawaited, congrArg (· + 1) hleft⟩, h.server, h.clientAlive, h.serverAlive, h.executed, h.sent,
    h.echoed, h.stream, h.echoes, h.buf, h.written, h.received⟩

/-- The client sends a whole message. -/
theorem Conn.At.send {r' : Round} {sent : ℕ} (h : c₀.At r c p) (hr : r.Alike) (hpc : c.client.pc = .stream r' sent)
    (hlt : (sent : ℤ) < asInt r'.msgcnt) :
    c₀.At r (c.put (asInt r'.msglen).toNat sent
      { c.client with pc := if r'.bounce = 0 then .stream r' (sent + 1) else .bounced r' (sent + 1) })
      (p.after (.send (asInt r'.msglen))) := by
  have hcl := h.client
  rw [hpc] at hcl
  obtain ⟨rfl, hsent, hawaited, hleft, hle⟩ := hcl
  rw [hr.cnt] at hlt
  have hlen : asInt r'.msglen = r'.len := hr.len.resolve_left (by omega)
  rw [hlen, Int.toNat_natCast, ← hsent, Conn.put, h.executed, Progress.after]
  refine ⟨?_, h.server, h.clientAlive, h.serverAlive, h.executed, Nat.le_succ_of_le h.sent, h.echoed, ?_, h.echoes, h.buf,
    ?_, h.received⟩
  · by_cases hb : r'.bounce = 0
    · rw [Round.bounces_of_eq hb] at hawaited
      rw [if_pos hb]
      exact ⟨rfl, rfl, by rw [hawaited, Round.bounces_of_eq hb], hleft, by omega⟩
    · rw [Round.bounces_of_ne hb] at hawaited
      rw [if_neg hb]
      exact ⟨rfl, rfl, by rw [hawaited, hsent], hleft, by omega, hb⟩
  · rw [octetsFrom_concat h.sent, h.stream]
  · rw [octetsFrom_concat (Nat.zero_le _), h.written, List.append_assoc]

/-- The client has its message back. -/
theorem Conn.At.await {r' : Round} {sent : ℕ} (h : c₀.At r c p) (hr : r.Alike) (hpc : c.client.pc = .bounced r' sent)
    (hready : c.echoes ≠ [] ∨ c.server.alive = false) :
    c₀.At r { c with
      echoes := c.echoes.drop (asInt r'.msglen).toNat, client := { c.client with pc := .stream r' sent } }
      (p.after (.clientRecv (asInt r'.msglen))) := by
  have hcl := h.client
  rw [hpc] at hcl
  obtain ⟨rfl, hsent, hawaited, hleft, hle, hb⟩ := hcl
  have hlen : asInt r'.msglen = r'.len := hr.len.resolve_left (by omega)
  have hne : c.echoes ≠ [] := hready.resolve_right (by rw [h.serverAlive]; decide)
  have hfirst : p.awaited < p.echoed := lt_of_octetsFrom_ne_nil h.echoed (h.echoes ▸ hne)
  refine ⟨⟨rfl, hsent, ?_, hleft, hle⟩, h.server, h.clientAlive, h.serverAlive, h.executed, h.sent, hfirst, h.stream, ?_,
    h.buf, h.written, h.received⟩
  · rw [Round.bounces_of_ne hb]
    exact hawaited
  · rw [hlen, h.echoes, Int.toNat_natCast]
    exact drop_octetsFrom hfirst

/-- The server child leaves its loop with all messages received. -/
theorem Conn.At.serverLeave {r' : Round} {rcvd : ℕ} (h : c₀.At r c p) (hpc : c.server.pc = .recv r' rcvd)
    (hdone : ¬ rcvd < r'.msgcnt.toNat) :
    c₀.At r { c with server := { c.server with pc := .report r' } } (p.after .server) := by
  have hsv := h.server
  rw [hpc] at hsv
  obtain ⟨rfl, hrcvd, hechoed, hleft, hle⟩ := hsv
  obtain rfl : rcvd = r'.cnt := Nat.le_antisymm hle (Nat.not_lt.mp hdone)
  exact ⟨h.client, ⟨rfl, hrcvd, hechoed, congrArg (· + 1) hleft⟩, h.clientAlive, h.serverAlive, h.executed, h.sent,
    h.echoed, h.stream, h.echoes, nofun, h.written, h.received⟩

/-- The server child receives a whole message, the first one on its way. -/
theorem Conn.At.recv {r' : Round} {rcvd : ℕ} (h : c₀.At r c p) (hpc : c.server.pc = .recv r' rcvd)
    (hlt : rcvd < r'.msgcnt.toNat) (hready : c.stream ≠ [] ∨ c.client.alive = false) :
    c₀.At r (c.take r'.msglen.toNat (if r'.bounce = 0 then .recv r' (rcvd + 1) else .echo r' (rcvd + 1)))
      (p.after .serverRecv) := by
  have hsv := h.server
  rw [hpc] at hsv
  obtain ⟨rfl, hrcvd, hechoed, hleft, hle⟩ := hsv
  have hcnt : rcvd < r'.cnt := hlt
  have hne : c.stream ≠ [] := hready.resolve_right (by rw [h.clientAlive]; decide)
  have hfirst : p.rcvd < p.sent := lt_of_octetsFrom_ne_nil h.sent (h.stream ▸ hne)
  have htake : c.stream.take r'.msglen.toNat = List.replicate r'.len ⟨c₀.client.executed.length, p.rcvd⟩ := by
    rw [h.stream]
    exact take_octetsFrom hfirst
  have hdrop : c.stream.drop r'.msglen.toNat = octetsFrom c₀.client.executed.length r'.len (p.rcvd + 1) p.sent := by
    rw [h.stream]
    exact drop_octetsFrom hfirst
  rw [Conn.take, htake, hdrop, ← hrcvd, Progress.after]
  refine ⟨h.client, ?_, h.clientAlive, h.serverAlive, h.executed, hfirst, h.echoed, rfl, h.echoes, ?_, h.written, ?_⟩
  · by_cases hb : r'.bounce = 0
    · rw [Round.bounces_of_eq hb] at hechoed
      rw [if_pos hb]
      exact ⟨rfl, rfl, by rw [hechoed, Round.bounces_of_eq hb], hleft, by omega⟩
    · rw [Round.bounces_of_ne hb] at hechoed
      rw [if_neg hb]
      exact ⟨rfl, rfl, by rw [hechoed, hrcvd], hleft, by omega, hb⟩
  · -- it holds the message that it is to echo
    intro k hk
    by_cases hb : r'.bounce = 0
    · simp [hb] at hk
    · rw [Round.bounces_of_ne hb] at hechoed
      rw [hechoed, hrcvd]
  · rw [h.received, roundMessages_succ, List.append_assoc]

/-- The server child echoes the message that it has received. -/
theorem Conn.At.echo {r' : Round} {rcvd : ℕ} (h : c₀.At r c p) (hpc : c.server.pc = .echo r' rcvd) :
    c₀.At r { c with
      echoes := c.echoes ++ c.server.buf.take r'.msglen.toNat, server := { c.server with pc := .recv r' rcvd } }
      (p.after (.echo r'.msglen.toNat)) := by
  have hsv := h.server
  rw [hpc] at hsv
  obtain ⟨rfl, hrcvd, hechoed, hleft, hle, hb⟩ := hsv
  have hbuf := h.buf rcvd hpc
  refine ⟨h.client, ⟨rfl, hrcvd, ?_, hleft, hle⟩, h.clientAlive, h.serverAlive, h.executed, h.sent,
    Nat.le_succ_of_le h.echoed, h.stream, ?_, nofun, h.written, h.received⟩
  · rw [Round.bounces_of_ne hb]
    exact hechoed
  · rw [h.echoes, hbuf]
    refine Eq.trans ?_ (octetsFrom_concat h.echoed).symm
    exact congrArg _ (List.take_of_length_le (Nat.le_of_eq List.length_replicate))

/-- **Every step of the two loops keeps it.** -/
theorem Conn.At.step {a : ConnAct} (h : c₀.At r c p) (hr : r.Alike) (hs : c.loopStep r a = some c') :
    c₀.At r c' (p.after a) := by
  obtain ⟨hin, hact⟩ := Conn.loopStep_eq_some hs
  cases Conn.effect hact with
  | ready _ hpc | term _ hpc _ | exec _ hpc _ | finish _ hpc | accept _ hpc _ | ack _ hpc | serverFinish _ hpc =>
    simp [Conn.inLoop, hpc] at hin
  | leave _ hpc hdone => exact h.leave hr hpc hdone
  | send _ hpc hlt _ => exact h.send hr hpc hlt
  | cut _ hpc hlt _ hne =>
    -- the connection takes a length that is not negative
    have hcl := h.client
    rw [hpc] at hcl
    obtain ⟨rfl, -⟩ := hcl
    rw [hr.cnt] at hlt
    have hlen := hr.len.resolve_left (by omega)
    exact absurd (of_decide_eq_true hin (by omega)) hne
  | await _ hpc hready _ => exact h.await hr hpc hready
  | serverLeave _ hpc hdone => exact h.serverLeave hpc hdone
  | recv _ hpc hlt hready _ => exact h.recv hpc hlt hready
  | echo _ hpc _ => exact h.echo hpc
  | echoCut _ hpc _ hne =>
    have hsv := h.server
    rw [hpc] at hsv
    obtain ⟨rfl, -⟩ := hsv
    exact absurd (of_decide_eq_true hin) hne
  | dieClient | dieServer => nomatch hin

theorem Conn.At.run {acts : List ConnAct} (h : c₀.At r c p) (hr : r.Alike)
    (hrun : exec (Conn.loopStep r) c acts = some c') : c₀.At r c' (acts.foldl Progress.after p) :=
  exec_record (fun _ _ _ _ hat hs => hat.step hr hs) h hrun

/-! ## Runs are finite -/

/-- The steps that are made. -/
def Progress.total (p : Progress) : ℕ := p.sent + p.rcvd + p.echoed + p.awaited + p.clientLeft + p.serverLeft

theorem Progress.total_after {a : ConnAct} (h : c.inLoop r a = true) : (p.after a).total = p.total + 1 := by
  cases a with
  | client | send _ | clientRecv _ | server | serverRecv | echo _ =>
    simp only [Progress.total, Progress.after]
    omega
  | dieClient | dieServer => nomatch h

theorem Progress.total_run {acts : List ConnAct} (hrun : exec (Conn.loopStep r) c acts = some c') :
    (acts.foldl Progress.after p).total = p.total + acts.length := by
  induction acts generalizing c p with
  | nil => rfl
  | cons a acts ih =>
    obtain ⟨t, ht, hrest⟩ := Option.bind_eq_some_iff.mp hrun
    rw [List.foldl_cons, ih hrest, Progress.total_after (Conn.loopStep_eq_some ht).1, List.length_cons]
    omega

theorem ClientAt.le {pc : ClientPc} (h : ClientAt r p pc) : p.sent ≤ r.cnt ∧ p.awaited ≤ r.cnt ∧ p.clientLeft ≤ 1 := by
  cases pc with
  | unborn | ready | wait | exited => exact h.elim
  | stream r' sent =>
    obtain ⟨-, hsent, hawaited, hleft, hle⟩ := h
    have := r.bounces_le sent
    omega
  | bounced r' sent =>
    obtain ⟨-, hsent, hawaited, hleft, hle, -⟩ := h
    omega
  | report r' =>
    obtain ⟨-, hsent, hawaited, hleft⟩ := h
    have := r.bounces_le r.cnt
    omega

theorem ServerAt.le {pc : ServerPc} (h : ServerAt r p pc) : p.rcvd ≤ r.cnt ∧ p.echoed ≤ r.cnt ∧ p.serverLeft ≤ 1 := by
  cases pc with
  | unborn | wait | ack _ => exact h.elim
  | recv r' rcvd =>
    obtain ⟨-, hrcvd, hechoed, hleft, hle⟩ := h
    have := r.bounces_le rcvd
    omega
  | echo r' rcvd =>
    obtain ⟨-, hrcvd, hechoed, hleft, hle, -⟩ := h
    omega
  | report r' =>
    obtain ⟨-, hrcvd, hechoed, hleft⟩ := h
    have := r.bounces_le r.cnt
    omega

theorem Conn.At.total_le (h : c₀.At r c p) : p.total ≤ 4 * r.cnt + 2 := by
  obtain ⟨hsent, hawaited, hcl⟩ := h.client.le
  obtain ⟨hrcvd, hechoed, hsv⟩ := h.server.le
  rw [Progress.total]
  omega

/-! ## There is a step until both have ended -/

theorem asSize_of_len (r : Round) : asSize r.len = r.len := by
  have hlt := r.msglen.toNat_lt
  rw [asSize, Round.len]
  omega

theorem Conn.At.stream_step {sent : ℕ} (h : c₀.At r c p) (hr : r.Alike) (hpc : c.client.pc = .stream r sent) :
    ∃ a, c.loopStep r a ≠ none := by
  by_cases hlt : sent < r.cnt
  · have hlen : asInt r.msglen = r.len := hr.len.resolve_left (by omega)
    refine ⟨.send r.len, ?_⟩
    have hret : SendRet r.len (asInt r.msglen) := by
      rw [hlen, SendRet, asSize_of_len]
      omega
    simp [Conn.loopStep, Conn.inLoop, Conn.act, Conn.clientSend, h.clientAlive, hpc, hr.cnt, hlen, hlen ▸ hret, hlt]
  · refine ⟨.client, ?_⟩
    simp [Conn.loopStep, Conn.inLoop, Conn.act, Conn.clientStep, h.clientAlive, hpc, hr.cnt, hlt]

theorem Conn.At.bounced_step {sent : ℕ} (h : c₀.At r c p) (hr : r.Alike) (hpc : c.client.pc = .bounced r sent)
    (hfirst : p.awaited < p.echoed) : ∃ a, c.loopStep r a ≠ none := by
  have hle := h.server.le
  have hlen : asInt r.msglen = r.len := hr.len.resolve_left (by omega)
  have hne : c.echoes ≠ [] := by
    rw [h.echoes]
    exact octetsFrom_ne_nil hfirst hr.pos
  have hret : RecvRet r.len r.len c.echoes.length := by
    rw [RecvRet, asSize_of_len, h.echoes]
    exact .inr ⟨rfl, Int.ofNat_le.mpr (length_octetsFrom_of_lt hfirst)⟩
  refine ⟨.clientRecv r.len, ?_⟩
  simp [Conn.loopStep, Conn.inLoop, Conn.act, Conn.clientRecv, h.clientAlive, hpc, hlen, hne, hret]

theorem Conn.At.echo_step {rcvd : ℕ} (h : c₀.At r c p) (hpc : c.server.pc = .echo r rcvd) :
    ∃ a, c.loopStep r a ≠ none := by
  have hret : SendRet r.msglen.toNat r.msglen.toNat := by
    rw [SendRet, show asSize r.msglen.toNat = r.msglen.toNat from asSize_of_len r]
    omega
  refine ⟨.echo r.msglen.toNat, ?_⟩
  simp [Conn.loopStep, Conn.inLoop, Conn.act, Conn.serverEcho, h.serverAlive, hpc, hret]

theorem Conn.At.recv_step {rcvd : ℕ} (h : c₀.At r c p) (hr : r.Alike) (hpc : c.server.pc = .recv r rcvd)
    (hlt : rcvd < r.cnt → p.rcvd < p.sent) : ∃ a, c.loopStep r a ≠ none := by
  by_cases hdone : rcvd < r.cnt
  · have hne : c.stream ≠ [] := by
      rw [h.stream]
      exact octetsFrom_ne_nil (hlt hdone) hr.pos
    have hle : r.msglen.toNat ≤ c.stream.length := by
      rw [h.stream]
      exact length_octetsFrom_of_lt (hlt hdone)
    refine ⟨.serverRecv, ?_⟩
    have hcnt : rcvd < r.msgcnt.toNat := hdone
    simp [Conn.loopStep, Conn.inLoop, Conn.act, Conn.serverRecv, h.serverAlive, hpc, hne, hle, hcnt]
  · refine ⟨.server, ?_⟩
    have hcnt : ¬ rcvd < r.msgcnt.toNat := hdone
    simp [Conn.loopStep, Conn.inLoop, Conn.act, Conn.serverStep, h.serverAlive, hpc, hcnt]

/-- **No deadlock.** Where no step is left, both have ended. -/
theorem Conn.At.both_ended (h : c₀.At r c p) (hr : r.Alike) (hstuck : ∀ a, c.loopStep r a = none) :
    c.client.pc = .report r ∧ c.server.pc = .report r := by
  have hno : ¬ ∃ a, c.loopStep r a ≠ none := by
    rintro ⟨a, ha⟩
    exact ha (hstuck a)
  have hcl := h.client
  have hsv := h.server
  cases hcp : c.client.pc with
  | unborn | ready | wait | exited =>
    rw [hcp] at hcl
    exact hcl.elim
  | stream r' sent =>
    rw [hcp] at hcl
    obtain ⟨rfl, -⟩ := hcl
    exact absurd (h.stream_step hr hcp) hno
  | bounced r' sent =>
    rw [hcp] at hcl
    obtain ⟨rfl, hsent, hawaited, -, hle, hb⟩ := hcl
    -- its message comes back, or the server child is to receive it
    suffices p.awaited < p.echoed ∨ ∃ a, c.loopStep r' a ≠ none by
      rcases this with hfirst | hstep
      · exact absurd (h.bounced_step hr hcp hfirst) hno
      · exact absurd hstep hno
    cases hsp : c.server.pc with
    | unborn | wait | ack _ =>
      rw [hsp] at hsv
      exact hsv.elim
    | recv r rcvd =>
      rw [hsp] at hsv
      obtain ⟨rfl, hrcvd, hechoed, -⟩ := hsv
      rw [Round.bounces_of_ne hb] at hechoed
      by_cases hlt : p.rcvd < p.sent
      · exact .inr (h.recv_step hr hsp fun _ => hlt)
      · left
        omega
    | echo r rcvd =>
      rw [hsp] at hsv
      obtain ⟨rfl, -⟩ := hsv
      exact .inr (h.echo_step hsp)
    | report r =>
      rw [hsp] at hsv
      obtain ⟨rfl, -, hechoed, -⟩ := hsv
      rw [Round.bounces_of_ne hb] at hechoed
      left
      omega
  | report r' =>
    rw [hcp] at hcl
    obtain ⟨rfl, hsent, -⟩ := hcl
    refine ⟨rfl, ?_⟩
    cases hsp : c.server.pc with
    | unborn | wait | ack _ =>
      rw [hsp] at hsv
      exact hsv.elim
    | recv r rcvd =>
      rw [hsp] at hsv
      obtain ⟨rfl, hrcvd, -⟩ := hsv
      exact absurd (h.recv_step hr hsp fun hlt => by omega) hno
    | echo r rcvd =>
      rw [hsp] at hsv
      obtain ⟨rfl, -⟩ := hsv
      exact absurd (h.echo_step hsp) hno
    | report r =>
      rw [hsp] at hsv
      rw [hsv.1]

theorem Conn.At.completed {acts : List ConnAct} (h : c₀.At r c (acts.foldl Progress.after .start))
    (hcl : c.client.pc = .report r) (hsv : c.server.pc = .report r) : r.Completed c₀ acts c := by
  have hc := h.client
  have hs := h.server
  rw [hcl] at hc
  rw [hsv] at hs
  obtain ⟨-, hsent, hawaited, hcleft⟩ := hc
  obtain ⟨-, hrcvd, hechoed, hsleft⟩ := hs
  constructor
  · exact hcl
  · exact hsv
  · exact Progress.ext hsent hrcvd hechoed hawaited hcleft hsleft
  · rw [h.written, hsent, octetsFrom_zero]
  · rw [h.received, hrcvd]
  · rw [h.stream, hsent, hrcvd]
    exact octetsFrom_self
  · rw [h.echoes, hawaited, hechoed]
    exact octetsFrom_self

theorem Round.Alike.agree (hr : r.Alike) (h : c.Entered r) : r.Agree c := by
  constructor
  · refine ⟨4 * r.cnt + 2, ?_⟩
    intro acts c' hrun
    have htotal := @Progress.total_run _ _ _ .start acts hrun
    have hle := (h.at.run hr hrun).total_le
    have h0 : Progress.start.total = 0 := rfl
    omega
  · intro acts c' hrun
    have hat := h.at.run hr hrun
    exact ⟨hat.clientAlive, hat.serverAlive⟩
  · intro acts c' hrun hstuck
    have hat := h.at.run hr hrun
    obtain ⟨hcl, hsv⟩ := hat.both_ended hr hstuck
    exact hat.completed hcl hsv

/-! ## Where they do not agree -/

theorem asInt_neg {x : UInt32} (h : ¬ x.toNat < 2 ^ 31) : asInt x < 0 := by
  have hlt := x.toNat_lt
  rw [asInt, if_neg h]
  omega

/-- A client that takes the number of messages for a negative one sends none of them. -/
theorem not_agree_of_msgcnt (h : c.Entered r) (hcnt : ¬ r.msgcnt.toNat < 2 ^ 31) : ¬ r.Agree c := by
  intro hagree
  have hneg : ¬ 0 < asInt r.msgcnt := Int.not_lt.mpr (Int.le_of_lt (asInt_neg hcnt))
  have hleave : exec (Conn.loopStep r) c [.client] = some { c with client := { c.client with pc := .report r } } := by
    simp [exec, Conn.loopStep, Conn.inLoop, Conn.act, Conn.clientStep, h.clientAlive, h.client, hneg]
  have hdone := hagree.together _ _ hleave fun a => by
    have hpos : 0 < r.msgcnt.toNat := by omega
    cases a <;> simp [Conn.loopStep, Conn.inLoop, Conn.act, Conn.clientSend, Conn.clientRecv, Conn.serverStep,
      Conn.serverRecv, Conn.serverEcho, h.server, h.stream, h.clientAlive, hpos]
  cases h.server.symm.trans hdone.server

/-- A client that takes the length of a message for a negative one dies. -/
theorem not_agree_of_msglen (h : c.Entered r) (hcnt : r.msgcnt.toNat < 2 ^ 31) (hpos : r.msgcnt ≠ 0)
    (hlen : ¬ r.msglen.toNat < 2 ^ 31) : ¬ r.Agree c := by
  intro hagree
  have hneg := asInt_neg hlen
  have hne : (0 : ℤ) ≠ asInt r.msglen := Int.ne_of_gt hneg
  have hlt : 0 < asInt r.msgcnt := by
    rw [asInt_of_lt hcnt]
    exact Int.natCast_pos.mpr (Nat.pos_of_ne_zero (UInt32.toNat_ne_zero hpos))
  have hret : SendRet 0 (asInt r.msglen) := .inr ⟨Int.le_refl _, Int.emod_nonneg _ (by decide)⟩
  have hdie : exec (Conn.loopStep r) c [.send 0] = some { c with client := { c.client with alive := false } } := by
    simp [exec, Conn.loopStep, Conn.inLoop, Conn.act, Conn.clientSend, h.clientAlive, h.client, hlt, hret, hne, hneg]
  exact Bool.false_ne_true (hagree.alive _ _ hdie).1

/-- **When client and server child agree on the data of a round**, of messages that have a length: where the number of
    messages is an `int`, and the length is one as well, unless there are no messages. -/
theorem loops_agree_iff (hlen : r.msglen ≠ 0) (h : c.Entered r) :
    r.Agree c ↔ r.msgcnt.toNat < 2 ^ 31 ∧ (r.msgcnt = 0 ∨ r.msglen.toNat < 2 ^ 31) := by
  constructor
  · intro hagree
    have hcnt : r.msgcnt.toNat < 2 ^ 31 := by
      by_contra hcnt
      exact not_agree_of_msgcnt h hcnt hagree
    refine ⟨hcnt, ?_⟩
    by_contra hnot
    obtain ⟨hpos, hlarge⟩ := not_or.mp hnot
    exact not_agree_of_msglen h hcnt hpos hlarge hagree
  · rintro ⟨hcnt, hsmall⟩
    refine Round.Alike.agree ⟨asInt_of_lt hcnt, ?_, Nat.pos_of_ne_zero (UInt32.toNat_ne_zero hlen)⟩ h
    rcases hsmall with h0 | hlt
    · left
      rw [Round.cnt, h0]
      rfl
    · exact .inr (asInt_of_lt hlt)

end

/-- The first round of a connection that is just made. -/
theorem told_create (r : Round) :
    ∃ c, (((Conn.create 0).tellServer r).tellClient (.exec r)).act .client = some c ∧ c.Told r :=
  ⟨_, rfl, rfl, rfl, rfl, rfl, rfl, rfl, rfl, rfl⟩

/-- The first round by default, in a connection that is just made. -/
theorem loops_agree_iff_default :
    let r : Round := ⟨64, 80000, 1⟩
    let c := ((Conn.create 0).tellServer r).tellClient (.exec r)
    ∃ c', exec Conn.act c [.client, .server, .server, .client] = some c' ∧
      (r.Agree c' ↔ r.msgcnt.toNat < 2 ^ 31 ∧ (r.msgcnt = 0 ∨ r.msglen.toNat < 2 ^ 31)) := by
  intro r c
  obtain ⟨c₁, hready, htold⟩ := told_create r
  obtain ⟨c', hrun, hentered⟩ := htold.enter (by decide)
  refine ⟨c', ?_, loops_agree_iff (by decide) hentered⟩
  rw [exec, hready]
  exact hrun

/-- **A server child that waits for ever:** with `-t-1` it waits for 4294967295 messages, and its client, who takes this
    for -1, sends none. -/
theorem loops_disagree : ¬ ∀ (opts : List Opt) (p : Params), Params.ofOptions opts = some p → ∀ (remote : Bool)
    (r : Round), (p.forPeer remote).Sends r → r.msglen ≠ 0 → ∀ c : Conn, c.Entered r → r.Agree c := by
  intro h
  let r : Round := ⟨64, 4294967295, 0⟩
  have hopts : Params.ofOptions [.t (some (-1))] = some ⟨0, 4294967295, 1, 64, 66000⟩ := by decide
  have hsends : (Params.mk 0 4294967295 1 64 66000).Sends r :=
    @Params.Sends.thruput _ 64 1 1 4294967295 (by decide) .first (by decide) (by decide) (by decide)
  obtain ⟨c₁, -, htold⟩ := told_create r
  obtain ⟨c, -, hentered⟩ := htold.enter (by decide)
  exact not_agree_of_msgcnt hentered (by decide) (h _ _ hopts false r hsends (by decide) c hentered)

end Benchmark
end Tipcutils
