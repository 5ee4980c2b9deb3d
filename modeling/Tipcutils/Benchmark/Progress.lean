import Mathlib.Data.List.Infix
import Tipcutils.Benchmark.Agreement

/-!
# `Benchmark.Progress` — a connection gets on as long as it has something to do

The acts of a connection in which nothing fails (`Conn.whole`): nobody dies, nobody waits too long, and a `send` takes
the whole message. Each of them lowers a rank (**`Conn.rank_act`**), so a connection that is told nothing more comes to
rest. **`Conn.settled`** says where: the client has executed all that it has been told, and the server child has served
all of it, or waits for the messages of a round that its client has not been told yet.

A client that waits for an echo is the hard case. It rests on what there is between the two: the octets on their way
there (`Conn.Inv.octets`), and those on their way back (`Conn.Sound.octets`).
-/

namespace Tipcutils
namespace Benchmark

/-! ## Acts in which nothing fails -/

/-- An act in which nobody dies, and a `send` takes the whole message. -/
def Conn.whole (c : Conn) : ConnAct → Bool
  | .send ret => match c.client.pc with
    | .stream r _ => decide (ret = asInt r.msglen)
    | _ => false
  | .echo ret => match c.server.pc with
    | .echo r _ => decide (ret = r.msglen.toNat)
    | _ => false
  | .dieClient | .dieServer => false
  | .client | .clientRecv _ | .server | .serverRecv => true

/-- A round whose numbers the client and the server child read alike, with messages of at least one octet. -/
structure Round.Plain (r : Round) : Prop where
  valid : r.Valid
  pos : 0 < r.len
  small : r.len < 2 ^ 31

section
variable {r : Round}

theorem Round.Plain.asInt_msgcnt (h : r.Plain) : asInt r.msgcnt = r.cnt := asInt_of_lt h.valid.2

theorem Round.Plain.asInt_msglen (h : r.Plain) : asInt r.msglen = r.len := asInt_of_lt h.small

theorem Round.Plain.clientLen (h : r.Plain) : r.clientLen = r.len := by
  rw [Round.clientLen, h.asInt_msglen]
  exact Int.toNat_natCast _

theorem Round.Plain.msglen_ne (h : r.Plain) : r.msglen ≠ 0 := by
  have hpos := h.pos
  rintro h0
  rw [Round.len, h0] at hpos
  exact Nat.lt_irrefl 0 hpos

/-- The whole message can be taken. -/
theorem sendRet_len (r : Round) : SendRet r.msglen.toNat r.msglen.toNat := by
  have hlt := r.msglen.toNat_lt
  right
  rw [asSize]
  omega

theorem Round.Plain.sendRet (h : r.Plain) : SendRet (asInt r.msglen) (asInt r.msglen) := by
  rw [h.asInt_msglen]
  exact sendRet_len r

/-- It can be received where it has arrived. -/
theorem Round.Plain.recvRet (h : r.Plain) {avail : ℕ} (hle : r.len ≤ avail) :
    RecvRet (asInt r.msglen) (asInt r.msglen) avail := by
  have hlt := h.small
  right
  rw [h.asInt_msglen, asSize]
  omega

theorem Round.bounces_mono (r : Round) {m n : ℕ} (h : m ≤ n) : r.bounces m ≤ r.bounces n := by
  unfold Round.bounces
  split
  · exact Nat.le_refl 0
  · exact h

end

/-! ## The rank of a connection -/

/-- What a client has before it in the command at hand: its acts, and one more for each report. -/
def ClientPc.left : ClientPc → ℕ
  | unborn | wait | exited => 0
  | ready | report _ => 2
  | stream r sent => 2 * (r.clientCnt - sent) + 3
  | bounced r sent => 2 * (r.clientCnt - sent) + 4

def MasterClientCmd.cost : MasterClientCmd → ℕ
  | exec r => 2 * r.clientCnt + 4
  | term => 1

def Client.rank (c : Client) : ℕ := c.pc.left + (c.inbox.map MasterClientCmd.cost).sum + c.outbox.length

/-- The same for a server child. -/
def ServerPc.left : ServerPc → ℕ
  | unborn | wait => 0
  | ack r => 2 * r.cnt + 5
  | recv r rcvd => 2 * (r.cnt - rcvd) + 3
  | echo r rcvd => 2 * (r.cnt - rcvd) + 4
  | report _ => 2

def Round.cost (r : Round) : ℕ := 2 * r.cnt + 6

def Server.rank (s : Server) : ℕ := s.pc.left + (s.inbox.map Round.cost).sum + s.outbox.length

def Conn.rank (c : Conn) : ℕ := c.client.rank + c.server.rank

variable {c c' : Conn} {told execd : List Round}

theorem Conn.rank_lt_of_client (hs : c'.server = c.server) (h : c'.client.rank < c.client.rank) : c'.rank < c.rank := by
  rw [Conn.rank, Conn.rank, hs]
  exact Nat.add_lt_add_right h _

theorem Conn.rank_lt_of_server (hc : c'.client = c.client) (h : c'.server.rank < c.server.rank) : c'.rank < c.rank := by
  rw [Conn.rank, Conn.rank, hc]
  exact Nat.add_lt_add_left h _

/-- A message of the round is sent, or received. -/
theorem ClientPc.left_sent (r : Round) {sent : ℕ} (h : sent < r.clientCnt) :
    (if r.bounce = 0 then stream r (sent + 1) else bounced r (sent + 1)).left < (stream r sent).left := by
  split <;> simp only [ClientPc.left] <;> omega

theorem ServerPc.left_rcvd (r : Round) {rcvd : ℕ} (h : rcvd < r.cnt) :
    (if r.bounce = 0 then recv r (rcvd + 1) else echo r (rcvd + 1)).left < (recv r rcvd).left := by
  split <;> simp only [ServerPc.left] <;> omega

/-- **Every act lowers the rank.** -/
theorem Conn.rank_act {a : ConnAct} (hw : c.whole a = true) (hs : c.act a = some c') : c'.rank < c.rank := by
  cases Conn.effect hs with
  | ready _ hpc =>
    refine Conn.rank_lt_of_client rfl ?_
    simp only [Client.rank, hpc, ClientPc.left, List.length_append, List.length_singleton]
    omega
  | term _ hpc hin =>
    refine Conn.rank_lt_of_client rfl ?_
    simp only [Client.rank, hpc, hin, ClientPc.left, List.map_cons, List.sum_cons, MasterClientCmd.cost]
    omega
  | exec _ hpc hin =>
    refine Conn.rank_lt_of_client rfl ?_
    simp only [Client.rank, hpc, hin, ClientPc.left, List.map_cons, List.sum_cons, MasterClientCmd.cost]
    omega
  | leave _ hpc _ =>
    refine Conn.rank_lt_of_client rfl ?_
    simp only [Client.rank, hpc, ClientPc.left]
    omega
  | finish _ hpc =>
    refine Conn.rank_lt_of_client rfl ?_
    simp only [Client.rank, hpc, ClientPc.left, List.length_append, List.length_singleton]
    omega
  | @send r sent _ hpc hlt _ =>
    have hleft := @ClientPc.left_sent r sent (by rw [Round.clientCnt]; omega)
    refine Conn.rank_lt_of_client rfl ?_
    simp only [Conn.put, Client.rank, hpc]
    omega
  | cut _ hpc _ _ hne =>
    simp only [Conn.whole, hpc, decide_eq_true_eq] at hw
    exact absurd hw hne
  | await _ hpc _ _ =>
    refine Conn.rank_lt_of_client rfl ?_
    simp only [Client.rank, hpc, ClientPc.left]
    omega
  | accept _ hpc hin =>
    refine Conn.rank_lt_of_server rfl ?_
    simp only [Server.rank, hpc, hin, ServerPc.left, List.map_cons, List.sum_cons, Round.cost]
    omega
  | ack _ hpc =>
    refine Conn.rank_lt_of_server rfl ?_
    simp only [Server.rank, hpc, ServerPc.left, List.length_append, List.length_singleton]
    omega
  | serverLeave _ hpc _ =>
    refine Conn.rank_lt_of_server rfl ?_
    simp only [Server.rank, hpc, ServerPc.left]
    omega
  | serverFinish _ hpc =>
    refine Conn.rank_lt_of_server rfl ?_
    simp only [Server.rank, hpc, ServerPc.left, List.length_append, List.length_singleton]
    omega
  | @recv r rcvd _ hpc hlt _ _ =>
    have hleft := @ServerPc.left_rcvd r rcvd hlt
    refine Conn.rank_lt_of_server rfl ?_
    simp only [Conn.take, Server.rank, hpc]
    omega
  | echo _ hpc _ =>
    refine Conn.rank_lt_of_server rfl ?_
    simp only [Server.rank, hpc, ServerPc.left]
    omega
  | echoCut _ hpc _ hne =>
    simp only [Conn.whole, hpc, decide_eq_true_eq] at hw
    exact absurd hw hne
  | dieClient | dieServer => simp [Conn.whole] at hw

/-! ## What comes back -/

/-- The octets that come back in some rounds. -/
def bouncedOctets (l : List Round) : ℕ := (l.map fun r => r.bounces r.cnt * r.len).sum

/-- The octets that a client has asked for in the command at hand, and those that it waits for. -/
def ClientPc.asked : ClientPc → ℕ
  | stream r sent | bounced r sent => r.bounces sent * r.len
  | report r => r.bounces r.cnt * r.len
  | _ => 0

def ClientPc.awaits : ClientPc → ℕ
  | bounced r _ => r.len
  | _ => 0

/-- The octets that a server child has taken to send back, and those that it has not sent back. -/
def ServerPc.taken : ServerPc → ℕ
  | recv r rcvd | echo r rcvd => r.bounces rcvd * r.len
  | report r => r.bounces r.cnt * r.len
  | _ => 0

def ServerPc.owes : ServerPc → ℕ
  | echo r _ => r.len
  | _ => 0

/-- Both processes are there and alive, and what has been asked for is on its way back. -/
structure Conn.Sound (c : Conn) : Prop where
  client : c.client.alive = true ∨ c.client.pc = .exited
  clientBorn : c.client.pc ≠ .unborn
  server : c.server.alive = true
  serverBorn : c.server.pc ≠ .unborn
  buf : ∀ r k, c.server.pc = .echo r k → c.server.buf.length = r.len
  octets : c.echoes.length + c.server.pc.owes + (bouncedOctets c.client.executed + c.client.pc.asked) =
    c.client.pc.awaits + (bouncedOctets c.server.served + c.server.pc.taken)

theorem bouncedOctets_concat (l : List Round) (r : Round) :
    bouncedOctets (l ++ [r]) = bouncedOctets l + r.bounces r.cnt * r.len := by
  simp [bouncedOctets]

theorem sound_create (born : ℕ) : (Conn.create born).Sound :=
  ⟨.inl rfl, nofun, rfl, nofun, nofun, rfl⟩

/-- An act of the client that leaves what comes back alone. -/
theorem Conn.Sound.setClient (h : c.Sound) {cl : Client} (ha : cl.alive = true ∨ cl.pc = .exited) (hb : cl.pc ≠ .unborn)
    (hasked : bouncedOctets cl.executed + cl.pc.asked = bouncedOctets c.client.executed + c.client.pc.asked)
    (hawaits : cl.pc.awaits = c.client.pc.awaits) : Conn.Sound { c with client := cl } := by
  refine ⟨ha, hb, h.server, h.serverBorn, h.buf, ?_⟩
  show c.echoes.length + c.server.pc.owes + (bouncedOctets cl.executed + cl.pc.asked) = cl.pc.awaits + _
  rw [hasked, hawaits]
  exact h.octets

/-- The same for the server child. -/
theorem Conn.Sound.setServer (h : c.Sound) {sv : Server} (ha : sv.alive = true) (hb : sv.pc ≠ .unborn)
    (hecho : sv.pc.owes = 0 ∧ ∀ r k, sv.pc ≠ .echo r k) (howes : c.server.pc.owes = 0)
    (htaken : bouncedOctets sv.served + sv.pc.taken = bouncedOctets c.server.served + c.server.pc.taken) :
    Conn.Sound { c with server := sv } := by
  refine ⟨h.client, h.clientBorn, ha, hb, fun r k hpc => absurd hpc (hecho.2 r k), ?_⟩
  have hoct := h.octets
  show c.echoes.length + sv.pc.owes + _ = _ + (bouncedOctets sv.served + sv.pc.taken)
  rw [htaken, hecho.1, ← howes]
  exact hoct

/-- The command at hand is one of those that the client has been told. -/
theorem Conn.Inv.mem_of_current {r : Round} (h : c.Inv told execd) (hr : r ∈ c.client.pc.current) : r ∈ execd := by
  apply List.mem_of_mem_drop (i := c.born)
  rw [← h.client.log]
  simp [hr]

/-- So is the next one. -/
theorem Conn.Inv.mem_of_inbox {r : Round} (h : c.Inv told execd) (hr : MasterClientCmd.exec r ∈ c.client.inbox) :
    r ∈ execd := by
  apply List.mem_of_mem_drop (i := c.born)
  rw [← h.client.log]
  exact List.mem_append_right _ (List.mem_filterMap.mpr ⟨_, hr, rfl⟩)

theorem Round.bounces_zero (r : Round) : r.bounces 0 = 0 := Nat.le_zero.mp (r.bounces_le 0)

/-- A message of the round is sent. -/
theorem ClientPc.asked_sent (r : Round) (sent : ℕ) :
    (if r.bounce = 0 then stream r (sent + 1) else bounced r (sent + 1)).asked =
      (stream r sent).asked + (if r.bounce = 0 then stream r (sent + 1) else bounced r (sent + 1)).awaits := by
  by_cases hb : r.bounce = 0
  · simp only [if_pos hb, asked, awaits, Round.bounces_of_eq hb, Nat.zero_mul]
  · simp only [if_neg hb, asked, awaits, Round.bounces_of_ne hb, Nat.succ_mul]

/-- A message of the round is received. -/
theorem ServerPc.taken_rcvd (r : Round) (rcvd : ℕ) :
    (if r.bounce = 0 then recv r (rcvd + 1) else echo r (rcvd + 1)).taken =
      (recv r rcvd).taken + (if r.bounce = 0 then recv r (rcvd + 1) else echo r (rcvd + 1)).owes := by
  by_cases hb : r.bounce = 0
  · simp only [if_pos hb, taken, owes, Round.bounces_of_eq hb, Nat.zero_mul]
  · simp only [if_neg hb, taken, owes, Round.bounces_of_ne hb, Nat.succ_mul]

theorem Conn.Sound.send {r : Round} {sent n : ℕ} (h : c.Sound) (ha : c.client.alive = true)
    (hpc : c.client.pc = .stream r sent) :
    (c.put n sent
      { c.client with pc := if r.bounce = 0 then .stream r (sent + 1) else .bounced r (sent + 1) }).Sound := by
  have hoct := h.octets
  rw [hpc] at hoct
  refine ⟨.inl ha, ?_, h.server, h.serverBorn, h.buf, ?_⟩
  · show (if r.bounce = 0 then ClientPc.stream r (sent + 1) else .bounced r (sent + 1)) ≠ .unborn
    split <;> nofun
  · have hasked := ClientPc.asked_sent r sent
    have hwait : (ClientPc.stream r sent).awaits = 0 := rfl
    simp only [Conn.put]
    omega

theorem Conn.Sound.await {r : Round} {sent : ℕ} (h : c.Sound) (hr : r.Plain) (ha : c.client.alive = true)
    (hpc : c.client.pc = .bounced r sent) (hret : RecvRet (asInt r.msglen) (asInt r.msglen) c.echoes.length) :
    Conn.Sound { c with
      echoes := c.echoes.drop (asInt r.msglen).toNat, client := { c.client with pc := .stream r sent } } := by
  have hoct := h.octets
  rw [hpc] at hoct
  refine ⟨.inl ha, nofun, h.server, h.serverBorn, h.buf, ?_⟩
  rw [hr.asInt_msglen] at hret ⊢
  have hle : r.len ≤ c.echoes.length := by
    rcases hret with hneg | ⟨-, hle⟩ <;> omega
  have hasked : (ClientPc.stream r sent).asked = (ClientPc.bounced r sent).asked := rfl
  have hwait : (ClientPc.bounced r sent).awaits = r.len := rfl
  have hwait' : (ClientPc.stream r sent).awaits = 0 := rfl
  simp only [List.length_drop, Int.toNat_natCast]
  omega

theorem Conn.Sound.recv {r : Round} {rcvd : ℕ} (h : c.Sound) (hpc : c.server.pc = .recv r rcvd)
    (hle : r.msglen.toNat ≤ c.stream.length) :
    (c.take r.msglen.toNat (if r.bounce = 0 then .recv r (rcvd + 1) else .echo r (rcvd + 1))).Sound := by
  have hoct := h.octets
  rw [hpc] at hoct
  refine ⟨h.client, h.clientBorn, h.server, ?_, ?_, ?_⟩
  · show (if r.bounce = 0 then ServerPc.recv r (rcvd + 1) else .echo r (rcvd + 1)) ≠ .unborn
    split <;> nofun
  · intro r' k hecho
    replace hecho : (if r.bounce = 0 then ServerPc.recv r (rcvd + 1) else .echo r (rcvd + 1)) = .echo r' k := hecho
    split at hecho
    · cases hecho
    · obtain ⟨rfl, -⟩ := ServerPc.echo.inj hecho
      exact List.length_take_of_le hle
  · have htaken := ServerPc.taken_rcvd r rcvd
    have howes : (ServerPc.recv r rcvd).owes = 0 := rfl
    simp only [Conn.take]
    omega

theorem Conn.Sound.echo {r : Round} {rcvd : ℕ} (h : c.Sound) (hpc : c.server.pc = .echo r rcvd) :
    Conn.Sound { c with
      echoes := c.echoes ++ c.server.buf.take r.msglen.toNat, server := { c.server with pc := .recv r rcvd } } := by
  have hoct := h.octets
  rw [hpc] at hoct
  refine ⟨h.client, h.clientBorn, h.server, nofun, nofun, ?_⟩
  have hbuf : (c.server.buf.take r.msglen.toNat).length = r.len :=
    List.length_take_of_le (Nat.le_of_eq (h.buf r rcvd hpc).symm)
  have htaken : (ServerPc.recv r rcvd).taken = (ServerPc.echo r rcvd).taken := rfl
  have howes : (ServerPc.echo r rcvd).owes = r.len := rfl
  have howes' : (ServerPc.recv r rcvd).owes = 0 := rfl
  simp only [List.length_append, hbuf]
  omega

/-- **Every act in which nothing fails keeps it.** -/
theorem Conn.Sound.act {a : ConnAct} (h : c.Sound) (hinv : c.Inv told execd) (hp : ∀ r ∈ execd, r.Plain)
    (hw : c.whole a = true) (hs : c.act a = some c') : c'.Sound := by
  cases Conn.effect hs with
  | ready ha hpc => exact h.setClient (.inl ha) nofun (by rw [hpc]; rfl) (by rw [hpc]; rfl)
  | term ha hpc hin => exact h.setClient (.inr rfl) nofun (by rw [hpc]; rfl) (by rw [hpc]; rfl)
  | @exec r rest ha hpc hin =>
    have hr := hp r (hinv.mem_of_inbox (hin ▸ List.mem_cons_self))
    refine h.setClient (.inl (decide_eq_true hr.msglen_ne)) nofun ?_ (by rw [hpc]; rfl)
    rw [hpc]
    simp [ClientPc.asked, r.bounces_zero]
  | @leave r sent ha hpc hdone =>
    have hr := hp r (hinv.mem_of_current (by rw [hpc]; exact List.mem_singleton_self r))
    have hle := hinv.client.bounded
    rw [hpc] at hle
    replace hle : sent ≤ r.clientCnt := hle
    rw [hr.valid.clientCnt] at hle
    rw [hr.asInt_msgcnt] at hdone
    obtain rfl : sent = r.cnt := by omega
    exact h.setClient (.inl ha) nofun (by rw [hpc]; rfl) (by rw [hpc]; rfl)
  | @finish r ha hpc =>
    refine h.setClient (.inl ha) nofun ?_ (by rw [hpc]; rfl)
    rw [hpc, bouncedOctets_concat]
    rfl
  | send ha hpc _ _ => exact h.send ha hpc
  | cut _ hpc _ _ hne =>
    simp only [Conn.whole, hpc, decide_eq_true_eq] at hw
    exact absurd hw hne
  | @await r sent ha hpc _ hret =>
    exact h.await (hp r (hinv.mem_of_current (by rw [hpc]; exact List.mem_singleton_self r))) ha hpc hret
  | accept ha hpc hin => exact h.setServer ha nofun ⟨rfl, nofun⟩ (by rw [hpc]; rfl) (by rw [hpc]; rfl)
  | @ack r ha hpc =>
    refine h.setServer ha nofun ⟨rfl, nofun⟩ (by rw [hpc]; rfl) ?_
    rw [hpc]
    simp [ServerPc.taken, r.bounces_zero]
  | @serverLeave r rcvd ha hpc hdone =>
    have hle := hinv.server.bounded
    rw [hpc] at hle
    obtain rfl : rcvd = r.cnt := Nat.le_antisymm hle (Nat.not_lt.mp hdone)
    exact h.setServer ha nofun ⟨rfl, nofun⟩ (by rw [hpc]; rfl) (by rw [hpc]; rfl)
  | serverFinish ha hpc =>
    refine h.setServer ha nofun ⟨rfl, nofun⟩ (by rw [hpc]; rfl) ?_
    rw [hpc, bouncedOctets_concat]
    rfl
  | recv _ hpc _ _ hle => exact h.recv hpc hle
  | echo _ hpc _ => exact h.echo hpc
  | echoCut _ hpc _ hne =>
    simp only [Conn.whole, hpc, decide_eq_true_eq] at hw
    exact absurd hw hne
  | dieClient | dieServer => nomatch hw

/-! ## Where a connection comes to rest -/

/-- A client that has nothing to do waits for a command, or for an echo. -/
theorem Conn.Sound.client_rests (h : c.Sound) (hinv : c.Inv told execd) (hp : ∀ r ∈ execd, r.Plain)
    (hexit : c.client.pc ≠ .exited) (hstuck : ∀ a, c.whole a = true → c.act a = none) :
    c.client.pc = .wait ∧ c.client.inbox = [] ∨
      ∃ r sent, c.client.pc = .bounced r sent ∧ c.echoes.length < r.len := by
  have ha : c.client.alive = true := h.client.resolve_right hexit
  have hstep := hstuck .client rfl
  simp only [Conn.act, ha, if_true] at hstep
  cases hpc : c.client.pc with
  | unborn => exact absurd hpc h.clientBorn
  | ready => simp [Conn.clientStep, hpc] at hstep
  | wait =>
    cases hin : c.client.inbox with
    | nil => exact .inl ⟨rfl, rfl⟩
    | cons m rest => cases m <;> simp [Conn.clientStep, hpc, hin] at hstep
  | stream r sent =>
    have hr := hp r (hinv.mem_of_current (by rw [hpc]; exact List.mem_singleton_self r))
    have hlt : (sent : ℤ) < asInt r.msgcnt := by simpa [Conn.clientStep, hpc] using hstep
    have hsend := hstuck (.send (asInt r.msglen)) (by simp [Conn.whole, hpc])
    simp [Conn.act, ha, Conn.clientSend, hpc, hlt, hr.sendRet] at hsend
  | bounced r sent =>
    have hr := hp r (hinv.mem_of_current (by rw [hpc]; exact List.mem_singleton_self r))
    refine .inr ⟨r, sent, rfl, ?_⟩
    by_contra hle
    have hne : c.echoes ≠ [] := List.ne_nil_of_length_pos (Nat.lt_of_lt_of_le hr.pos (Nat.not_lt.mp hle))
    have hrecv := hstuck (.clientRecv (asInt r.msglen)) rfl
    simp [Conn.act, ha, Conn.clientRecv, hpc, hne, hr.recvRet (Nat.not_lt.mp hle)] at hrecv
  | report r => simp [Conn.clientStep, hpc] at hstep
  | exited => exact absurd hpc hexit

/-- A server child that has nothing to do waits for a command, or for a message. -/
theorem Conn.Sound.server_rests (h : c.Sound) (hp : ∀ r ∈ c.server.pc.current, r.Plain)
    (hstuck : ∀ a, c.whole a = true → c.act a = none) :
    c.server.pc = .wait ∧ c.server.inbox = [] ∨
      ∃ r rcvd, c.server.pc = .recv r rcvd ∧ rcvd < r.cnt ∧ c.stream.length < r.len := by
  have ha := h.server
  have hstep := hstuck .server rfl
  simp only [Conn.act, ha, if_true] at hstep
  cases hpc : c.server.pc with
  | unborn => exact absurd hpc h.serverBorn
  | wait =>
    cases hin : c.server.inbox with
    | nil => exact .inl ⟨rfl, rfl⟩
    | cons r rest => simp [Conn.serverStep, hpc, hin] at hstep
  | ack r => simp [Conn.serverStep, hpc] at hstep
  | recv r rcvd =>
    have hr := hp r (by rw [hpc]; exact List.mem_singleton_self r)
    have hlt : rcvd < r.msgcnt.toNat := by simpa [Conn.serverStep, hpc] using hstep
    refine .inr ⟨r, rcvd, rfl, hlt, ?_⟩
    by_contra hle
    have hne : c.stream ≠ [] := List.ne_nil_of_length_pos (Nat.lt_of_lt_of_le hr.pos (Nat.not_lt.mp hle))
    have hle' : r.msglen.toNat ≤ c.stream.length := Nat.not_lt.mp hle
    have hrecv := hstuck .serverRecv rfl
    simp [Conn.act, ha, Conn.serverRecv, hpc, hlt, hne, hle'] at hrecv
  | echo r rcvd =>
    have hecho := hstuck (.echo r.msglen.toNat) (by simp [Conn.whole, hpc])
    simp [Conn.act, ha, Conn.serverEcho, hpc, sendRet_len] at hecho
  | report r => simp [Conn.serverStep, hpc] at hstep

/-! Both are in the same round when one waits for the other. -/

theorem sum_map_le_of_prefix {α : Type*} (f : α → ℕ) {l l' : List α} (h : l <+: l') : (l.map f).sum ≤ (l'.map f).sum := by
  obtain ⟨rest, rfl⟩ := h
  rw [List.map_append, List.sum_append]
  exact Nat.le_add_right _ _

theorem serverOctets_concat (l : List Round) (r : Round) : serverOctets (l ++ [r]) = serverOctets l + r.cnt * r.len := by
  simp [serverOctets]

theorem clientOctets_of_plain {l : List Round} (h : ∀ r ∈ l, r.Plain) : clientOctets l = serverOctets l := by
  apply congrArg List.sum
  apply List.map_congr_left
  intro r hr
  rw [(h r hr).valid.clientCnt, (h r hr).clientLen]

/-- A round that is only begun has fewer octets. -/
theorem Round.mul_len_lt {r : Round} {rcvd : ℕ} (hlt : rcvd < r.cnt) : rcvd * r.len + r.len ≤ r.cnt * r.len := by
  rw [← Nat.succ_mul]
  exact Nat.mul_le_mul_right _ hlt

/-- Two first parts of a list, each with one element more: one of them is longer, or they are the same. -/
theorem prefix_concat_cases {α : Type*} {a b l : List α} {x y : α} (ha : a ++ [x] <+: l) (hb : b ++ [y] <+: l) :
    a ++ [x] <+: b ∨ b ++ [y] <+: a ∨ a = b ∧ x = y := by
  rcases List.prefix_or_prefix_of_prefix ha hb with h | h
  · rcases List.prefix_concat_iff.mp h with heq | hpre
    · obtain ⟨hab, hxy⟩ := List.append_inj' heq rfl
      exact .inr (.inr ⟨hab, List.singleton_inj.mp hxy⟩)
    · exact .inl hpre
  · rcases List.prefix_concat_iff.mp h with heq | hpre
    · obtain ⟨hab, hxy⟩ := List.append_inj' heq rfl
      exact .inr (.inr ⟨hab.symm, (List.singleton_inj.mp hxy).symm⟩)
    · exact .inr (.inl hpre)

/-- A server child that waits for a message is not behind what has been written. -/
theorem Conn.Inv.not_behind {r : Round} {rcvd : ℕ} (h : c.Inv told execd) (hpc : c.server.pc = .recv r rcvd)
    (hlt : rcvd < r.cnt) (hshort : c.stream.length < r.len) :
    c.written.length < serverOctets (c.server.served ++ [r]) := by
  have hoct := h.octets
  have hround := Round.mul_len_lt hlt
  rw [hpc, ServerPc.partialLengths, List.sum_replicate_nat] at hoct
  rw [serverOctets_concat]
  omega

/-- A server child cannot have served more than has been written. -/
theorem Conn.Inv.served_le (h : c.Inv told execd) : serverOctets c.server.served ≤ c.written.length := by
  have hoct := h.octets
  omega

/-- Where the client has written what some rounds amount to, the server child has served no more of them. -/
theorem Conn.Inv.served_eq_of_prefix {l : List Round} (h : c.Inv told execd) (hp : ∀ r ∈ told, r.Plain)
    (hl : l <+: c.server.served) (hw : c.written.length = serverOctets l) : c.server.served = l := by
  obtain ⟨rest, hrest⟩ := hl
  cases rest with
  | nil => rw [← hrest, List.append_nil]
  | cons r rest =>
    have hr : r.Plain := by
      apply hp r
      apply List.mem_of_mem_drop (i := c.born)
      rw [← h.server.log, ← hrest]
      simp
    have hle := h.served_le
    have hfirst : l ++ [r] <+: c.server.served := ⟨rest, by rw [← hrest]; simp⟩
    have hmore := sum_map_le_of_prefix (fun r : Round => r.cnt * r.len) hfirst
    have hpos : 0 < r.cnt * r.len := Nat.mul_pos hr.valid.1 hr.pos
    have hconcat := serverOctets_concat l r
    simp only [serverOctets] at hmore hconcat hle hw
    omega

/-- The echo that a client waits for is there, or on its way, unless the server child waits for more messages. -/
theorem Conn.Inv.echo_there {r : Round} {sent : ℕ} (h : c.Inv told execd) (hpre : execd <+: told) (hs : c.Sound)
    (hp : ∀ r ∈ told, r.Plain) (hpc : c.client.pc = .bounced r sent) (ha : c.client.alive = true)
    (hserver : c.server.pc = .wait ∧ c.server.inbox = [] ∨
      ∃ r rcvd, c.server.pc = .recv r rcvd ∧ rcvd < r.cnt ∧ c.stream.length < r.len) :
    r.len ≤ c.echoes.length := by
  have hr : r.Plain := hp r (hpre.subset (h.mem_of_current (by rw [hpc]; exact List.mem_singleton_self r)))
  have hsent : sent ≤ r.cnt := by
    have hle := h.client.bounded
    rw [hpc] at hle
    exact hr.valid.clientCnt ▸ hle
  -- what the client has asked for is not more than what the server child has taken
  suffices htaken : bouncedOctets c.client.executed + r.bounces sent * r.len ≤
      bouncedOctets c.server.served + c.server.pc.taken by
    have hoct := hs.octets
    have howes : c.server.pc.owes = 0 := by
      rcases hserver with ⟨hspc, -⟩ | ⟨r', rcvd, hspc, -⟩ <;> rw [hspc] <;> rfl
    rw [hpc, howes] at hoct
    simp only [ClientPc.asked, ClientPc.awaits] at hoct
    omega
  have hserved (hl : c.client.executed ++ [r] <+: c.server.served) :
      bouncedOctets c.client.executed + r.bounces sent * r.len ≤ bouncedOctets c.server.served + c.server.pc.taken := by
    have hmore := sum_map_le_of_prefix (fun r : Round => r.bounces r.cnt * r.len) hl
    have hconcat := bouncedOctets_concat c.client.executed r
    have hmono := Nat.mul_le_mul_right r.len (r.bounces_mono hsent)
    simp only [bouncedOctets] at hmore hconcat ⊢
    omega
  have hclient : c.client.executed ++ [r] <+: told.drop c.born := by
    refine List.IsPrefix.trans ⟨c.client.inbox.filterMap MasterClientCmd.round?, ?_⟩ (hpre.drop c.born)
    rw [← h.client.log, hpc]
    rfl
  rcases hserver with ⟨hspc, hin⟩ | ⟨r', rcvd, hspc, hlt, hshort⟩
  · apply hserved
    have hlog := h.server.log
    rw [hspc, hin, List.append_nil] at hlog
    rw [show c.server.served = told.drop c.born by rw [← hlog]; exact (List.append_nil _).symm]
    exact hclient
  · have hwritten : c.written.length = serverOctets c.client.executed + sent * r.len := by
      rw [h.client.written_of_alive ha, hpc, List.flatten_append, List.length_append, length_flatten_messagesOf]
      have hexec : ∀ r ∈ c.client.executed, r.Plain := fun r' hr' =>
        hp r' (List.mem_of_mem_drop (hclient.subset (List.mem_append_left _ hr')))
      have hoctets : _ = serverOctets c.client.executed := clientOctets_of_plain hexec
      rw [← hoctets, ClientPc.partialMessages, List.length_flatten, roundMessages_lengths, List.sum_replicate_nat,
        hr.clientLen]
      rfl
    have hserver : c.server.served ++ [r'] <+: told.drop c.born := by
      refine ⟨c.server.inbox, ?_⟩
      rw [← h.server.log, hspc]
      rfl
    have hbehind := h.not_behind hspc hlt hshort
    rcases prefix_concat_cases hclient hserver with hahead | hlate | ⟨hsame, rfl⟩
    · exact hserved hahead
    · -- the messages that it waits for have been written
      have hmore := sum_map_le_of_prefix (fun r : Round => r.cnt * r.len) hlate
      simp only [serverOctets] at hbehind hwritten
      omega
    · have hoct := h.octets
      rw [hspc, ServerPc.partialLengths, List.sum_replicate_nat, hwritten, hsame] at hoct
      have hle : sent ≤ rcvd := by
        by_contra hmore
        have hround := Nat.mul_le_mul_right r.len (Nat.succ_le_of_lt (Nat.not_le.mp hmore))
        rw [Nat.succ_mul] at hround
        omega
      rw [hsame, hspc]
      exact Nat.add_le_add_left (Nat.mul_le_mul_right _ (r.bounces_mono hle)) _

/-- **Where a connection comes to rest:** the client has executed what it has been told, and the server child has served
    what it has been told, or is in a round that the client has not been told. -/
theorem Conn.settled (h : c.Inv told execd) (hpre : execd <+: told) (hs : c.Sound) (hp : ∀ r ∈ told, r.Plain)
    (hexit : c.client.pc ≠ .exited) (hstuck : ∀ a, c.whole a = true → c.act a = none) :
    c.client.executed = execd.drop c.born ∧ c.client.pc = .wait ∧
      (c.server.served = told.drop c.born ∧ c.server.pc = .wait ∨
        c.server.served = execd.drop c.born ∧ c.server.pc.acked = true) := by
  have hcurrent : ∀ r ∈ c.server.pc.current, r.Plain := by
    intro r hr
    apply hp r
    apply List.mem_of_mem_drop (i := c.born)
    rw [← h.server.log]
    simp [hr]
  have hserver := hs.server_rests hcurrent hstuck
  rcases hs.client_rests h (fun r hr => hp r (hpre.subset hr)) hexit hstuck with ⟨hpc, hin⟩ | ⟨r, sent, hpc, hshort⟩
  · have hcur : c.client.pc.current = [] := by rw [hpc]; rfl
    have hexec : c.client.executed = execd.drop c.born := by
      have hlog := h.client.log
      rw [hcur, hin, List.append_nil] at hlog
      exact (List.append_nil _).symm.trans hlog
    refine ⟨hexec, hpc, ?_⟩
    rcases hserver with ⟨hspc, hsin⟩ | ⟨r, rcvd, hspc, hlt, hshort⟩
    · have hlog := h.server.log
      rw [hspc, hsin, List.append_nil] at hlog
      exact .inl ⟨(List.append_nil _).symm.trans hlog, hspc⟩
    · refine .inr ⟨?_, by rw [hspc]; rfl⟩
      have hpre' := hpre.drop c.born
      have hwritten : c.written.length = serverOctets (execd.drop c.born) := by
        rw [h.written_length hcur, hexec]
        exact clientOctets_of_plain fun r hr => hp r (hpre.subset (List.mem_of_mem_drop hr))
      have hserved : c.server.served ++ [r] <+: told.drop c.born := by
        refine ⟨c.server.inbox, ?_⟩
        rw [← h.server.log, hspc]
        rfl
      have hbehind := h.not_behind hspc hlt hshort
      rcases List.prefix_or_prefix_of_prefix hpre' hserved with hlong | hlate
      · rcases List.prefix_concat_iff.mp hlong with heq | hle
        · rw [heq] at hwritten
          omega
        · exact h.served_eq_of_prefix hp hle hwritten
      · have hmore := sum_map_le_of_prefix (fun r : Round => r.cnt * r.len) hlate
        simp only [serverOctets] at hbehind hwritten
        omega
  · have hthere := h.echo_there hpre hs hp hpc (hs.client.resolve_right hexit) hserver
    omega

end Benchmark
end Tipcutils
