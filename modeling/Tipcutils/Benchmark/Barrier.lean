import Tipcutils.Benchmark.Connection
import Tipcutils.Lib.Tally

/-!
# `Benchmark.Barrier` — a round of the benchmark is a barrier

The master counts reports and never looks at what they say. The invariant **`Inv`** says what its count means: in
each phase of a round the total of the reports read so far is fixed, while the invariant of each connection bounds
what a client or a server child can have reported by then. Where the total reaches the bound, every client or server
child has reported all it could.
-/

namespace Tipcutils
namespace Benchmark

open Finset

/-! ## The script of the master -/

def MasterAct.round? : MasterAct → Option Round
  | .round r => some r
  | _ => none

/-- The rounds of a script. -/
def rounds (acts : List MasterAct) : List Round := acts.filterMap MasterAct.round?

/-- The clients that a script creates. -/
def creates (acts : List MasterAct) : ℕ := acts.count .create

/-- How many rounds precede the creation of client `i`. -/
def bornAt : List MasterAct → ℕ → ℕ
  | [], _ => 0
  | .create :: _, 0 => 0
  | .create :: acts, i + 1 => bornAt acts i
  | .round _ :: acts, i => bornAt acts i + 1
  | .term :: acts, i => bornAt acts i

@[simp] theorem rounds_append (a b : List MasterAct) : rounds (a ++ b) = rounds a ++ rounds b := List.filterMap_append

@[simp] theorem creates_append (a b : List MasterAct) : creates (a ++ b) = creates a + creates b := List.count_append

theorem bornAt_create (done todo : List MasterAct) :
    bornAt (done ++ .create :: todo) (creates done) = (rounds done).length := by
  induction done with
  | nil => rfl
  | cons a done ih =>
    cases a with
    | create =>
      have hc : creates (.create :: done) = creates done + 1 := List.count_cons_self
      rw [hc]
      exact ih
    | round r =>
      have hc : creates (.round r :: done) = creates done := List.count_cons_of_ne (by nofun)
      rw [hc]
      exact congrArg (· + 1) ih
    | term =>
      have hc : creates (.term :: done) = creates done := List.count_cons_of_ne (by nofun)
      rw [hc]
      exact ih

/-- The master has done a first part of its script, and has created its clients when the script says. -/
structure Place (acts : List MasterAct) (s : State) (done : List MasterAct) : Prop where
  script : acts = done ++ s.master.todo
  told : rounds done = s.master.told
  numClients : creates done = s.master.numClients
  born : ∀ i < s.master.numClients, (s.conn i).born = bornAt acts i

/-! ## The counts -/

/-- The reports of a client that are read, counted from the first round. -/
def Conn.clientCount (c : Conn) : ℕ := c.client.read + c.born

/-- The reports of a server child that are read, counted from the first round. -/
def Conn.serverCount (c : Conn) : ℕ := c.server.read + 2 * c.born

/-- The master has read all reports of the rounds `told`. -/
structure AllRead (told : List Round) (c : Conn) : Prop where
  client : c.clientCount = told.length + 1
  server : c.serverCount = 2 * told.length

/-- The master has read nothing of this connection, which is created after the rounds `told`. -/
structure Fresh (told : List Round) (c : Conn) : Prop where
  born : c.born = told.length
  client : c.client.read = 0
  server : c.server.read = 0

/-- The clients are told of the round `r` after the rounds `l`: the client has executed those, and the server child has
    acknowledged `r`, if it has octets at all. -/
structure Started (l : List Round) (r : Round) (c : Conn) : Prop where
  client : l.length ≤ c.client.executed.length + c.born
  server : r.msglen ≠ 0 → 2 * l.length + 1 ≤ c.server.reports + 2 * c.born

/-- What the master's count means. -/
def Phase (m : Master) (conn : ℕ → Conn) : Prop :=
  match m.pc with
  | .next => m.execd = m.told ∧ ∀ j < m.numClients, AllRead m.told (conn j)
  | .ready =>
    m.execd = m.told ∧ ∃ n, m.numClients = n + 1 ∧ (∀ j < n, AllRead m.told (conn j)) ∧ Fresh m.told (conn n)
  | .acks r i =>
    m.told = m.execd ++ [r] ∧ i ≤ m.numClients ∧
      (∀ j < m.numClients, (conn j).clientCount = m.execd.length + 1) ∧
      ∑ j ∈ range m.numClients, (conn j).serverCount = m.numClients * (2 * m.execd.length) + i
  | .fromClient r i =>
    m.execd = m.told ∧ i ≤ m.numClients ∧ ∃ l, m.told = l ++ [r] ∧
      (∀ j < m.numClients, Started l r (conn j)) ∧
      ∑ j ∈ range m.numClients, (conn j).clientCount = m.numClients * (l.length + 1) + i ∧
      ∑ j ∈ range m.numClients, (conn j).serverCount = m.numClients * (2 * l.length + 1) + i
  | .fromSrv r i =>
    m.execd = m.told ∧ i < m.numClients ∧ ∃ l, m.told = l ++ [r] ∧
      (∀ j < m.numClients, Started l r (conn j)) ∧
      ∑ j ∈ range m.numClients, (conn j).clientCount = m.numClients * (l.length + 1) + (i + 1) ∧
      ∑ j ∈ range m.numClients, (conn j).serverCount = m.numClients * (2 * l.length + 1) + i

/-- The invariant of the benchmark. -/
structure Inv (acts : List MasterAct) (s : State) : Prop where
  unborn : ∀ i, s.master.numClients ≤ i → s.conn i = .unborn
  conn : ∀ i < s.master.numClients, (s.conn i).Inv s.master.told s.master.execd
  phase : Phase s.master s.conn
  place : ∃ done, Place acts s done

/-! ## Steps of the connections -/

theorem Conn.Later.refl (c : Conn) : c.Later c := ⟨rfl, rfl, rfl, Nat.le_refl _, Nat.le_refl _⟩

variable {c c' : Conn}

theorem Conn.Later.clientCount (h : c.Later c') : c'.clientCount = c.clientCount := by
  rw [Conn.clientCount, h.clientRead, h.born, Conn.clientCount]

theorem Conn.Later.serverCount (h : c.Later c') : c'.serverCount = c.serverCount := by
  rw [Conn.serverCount, h.serverRead, h.born, Conn.serverCount]

theorem AllRead.later {told : List Round} (h : AllRead told c) (hl : c.Later c') : AllRead told c' :=
  ⟨hl.clientCount.trans h.client, hl.serverCount.trans h.server⟩

theorem Fresh.later {told : List Round} (h : Fresh told c) (hl : c.Later c') : Fresh told c' :=
  ⟨hl.born.trans h.born, hl.clientRead.trans h.client, hl.serverRead.trans h.server⟩

theorem Started.later {l : List Round} {r : Round} (h : Started l r c) (hl : c.Later c') : Started l r c' := by
  have hexec := hl.executed
  have hrep := hl.reports
  have hborn := hl.born
  constructor
  · have := h.client
    omega
  · intro hr
    have := h.server hr
    omega

/-- The phases only speak of what the connections do not undo. -/
theorem Phase.later {m : Master} {conn conn' : ℕ → Conn} (h : Phase m conn) (hl : ∀ j, (conn j).Later (conn' j)) :
    Phase m conn' := by
  have hc (n : ℕ) : ∑ j ∈ range n, (conn' j).clientCount = ∑ j ∈ range n, (conn j).clientCount :=
    sum_congr rfl fun j _ => (hl j).clientCount
  have hs (n : ℕ) : ∑ j ∈ range n, (conn' j).serverCount = ∑ j ∈ range n, (conn j).serverCount :=
    sum_congr rfl fun j _ => (hl j).serverCount
  unfold Phase at h ⊢
  cases hpc : m.pc with
  | next =>
    rw [hpc] at h
    exact ⟨h.1, fun j hj => (h.2 j hj).later (hl j)⟩
  | ready =>
    rw [hpc] at h
    obtain ⟨hexec, n, hn, hall, hfresh⟩ := h
    exact ⟨hexec, n, hn, fun j hj => (hall j hj).later (hl j), hfresh.later (hl n)⟩
  | acks r i =>
    rw [hpc] at h
    obtain ⟨htold, hi, hclient, hserver⟩ := h
    exact ⟨htold, hi, fun j hj => (hl j).clientCount.trans (hclient j hj), (hs _).trans hserver⟩
  | fromClient r i =>
    rw [hpc] at h
    obtain ⟨hexec, hi, l, htold, hst, hclient, hserver⟩ := h
    exact ⟨hexec, hi, l, htold, fun j hj => (hst j hj).later (hl j), (hc _).trans hclient, (hs _).trans hserver⟩
  | fromSrv r i =>
    rw [hpc] at h
    obtain ⟨hexec, hi, l, htold, hst, hclient, hserver⟩ := h
    exact ⟨hexec, hi, l, htold, fun j hj => (hst j hj).later (hl j), (hc _).trans hclient, (hs _).trans hserver⟩

/-- A client whose reports are all read is between two commands. -/
theorem Conn.Inv.done {told execd : List Round} (h : c.Inv told execd) (hread : c.clientCount = execd.length + 1) :
    c.client.executed = execd.drop c.born ∧ c.client.pc.current = [] ∧ c.client.outbox = [] := by
  have hborn := h.born
  rw [Conn.clientCount] at hread
  obtain ⟨hexec, hcur, hout, -⟩ := h.client.done (by rw [List.length_drop]; omega)
  exact ⟨hexec, hcur, hout⟩

variable {acts : List MasterAct} {s s' : State}

theorem later_update {i : ℕ} (h : (s.conn i).Later c') : ∀ j, (s.conn j).Later (Function.update s.conn i c' j) :=
  (Function.forall_update_iff s.conn fun j c => (s.conn j).Later c).mpr ⟨h, fun _ _ => .refl _⟩

theorem Inv.conn_step {i : ℕ} {a : ConnAct} (h : Inv acts s) (hs : step s (.conn i a) = some s') : Inv acts s' := by
  obtain ⟨c', hact, rfl⟩ := Option.map_eq_some_iff.mp hs
  have hlater := later_update (s := s) (Conn.later_act hact)
  refine ⟨?_, ?_, h.phase.later hlater, ?_⟩
  · intro j hj
    by_cases hji : j = i
    · subst hji
      rw [h.unborn j hj] at hact
      exact (Function.update_self ..).trans (Conn.unborn_act hact)
    · exact (Function.update_of_ne hji ..).trans (h.unborn j hj)
  · intro j hj
    by_cases hji : j = i
    · subst hji
      show (Function.update s.conn j c' j).Inv _ _
      rw [Function.update_self]
      exact (h.conn j hj).act hact
    · show (Function.update s.conn i c' j).Inv _ _
      rw [Function.update_of_ne hji]
      exact h.conn j hj
  · obtain ⟨done, hplace⟩ := h.place
    exact ⟨done, hplace.script, hplace.told, hplace.numClients,
      fun j hj => (hlater j).born.trans (hplace.born j hj)⟩

/-! ## Steps of the master -/

/-- A command to all moves no count. -/
theorem later_multicast {f : Conn → Conn} (hf : ∀ c : Conn, c.Later (f c)) (j : ℕ) :
    (s.conn j).Later (s.multicast f j) := by
  unfold State.multicast
  split
  · exact hf _
  · exact .refl _

theorem later_tellServer (r : Round) (c : Conn) : c.Later (c.tellServer r) := .of_server rfl rfl rfl (Nat.le_refl _)

theorem later_tellClient (m : MasterClientCmd) (c : Conn) : c.Later (c.tellClient m) :=
  .of_client rfl rfl rfl (Nat.le_refl _)

theorem multicast_of_lt (s : State) (f : Conn → Conn) {j : ℕ} (hj : j < s.master.numClients) :
    s.multicast f j = f (s.conn j) := if_pos hj

theorem multicast_of_le (s : State) (f : Conn → Conn) {j : ℕ} (hj : s.master.numClients ≤ j) :
    s.multicast f j = s.conn j := if_neg (Nat.not_lt.mpr hj)

/-- `client_create`. -/
theorem Inv.create {todo : List MasterAct} (h : Inv acts s) (hpc : s.master.pc = .next)
    (htodo : s.master.todo = .create :: todo) :
    Inv acts {
      master := { s.master with todo := todo, pc := .ready, numClients := s.master.numClients + 1 }
      conn := Function.update s.conn s.master.numClients (.create s.master.told.length) } := by
  have hphase := h.phase
  rw [Phase, hpc] at hphase
  obtain ⟨hexec, hall⟩ := hphase
  obtain ⟨done, hplace⟩ := h.place
  have hold {j : ℕ} (hj : j < s.master.numClients) :
      Function.update s.conn s.master.numClients (.create s.master.told.length) j = s.conn j :=
    Function.update_of_ne (Nat.ne_of_lt hj) ..
  constructor
  · intro j hj
    have hne : j ≠ s.master.numClients := Nat.ne_of_gt hj
    exact (Function.update_of_ne hne ..).trans (h.unborn j (Nat.le_of_lt hj))
  · intro j hj
    rcases Nat.lt_succ_iff_lt_or_eq.mp hj with hlt | rfl
    · show (Function.update s.conn _ _ j).Inv _ _
      rw [hold hlt]
      exact h.conn j hlt
    · show (Function.update s.conn _ _ _).Inv _ _
      rw [Function.update_self]
      exact conn_inv_create hexec.symm
  · refine ⟨hexec, s.master.numClients, rfl, ?_, ?_⟩
    · intro j hj
      show AllRead s.master.told (Function.update s.conn _ _ j)
      rw [hold hj]
      exact hall j hj
    · show Fresh s.master.told (Function.update s.conn _ _ _)
      rw [Function.update_self]
      exact ⟨rfl, rfl, rfl⟩
  · refine ⟨done ++ [.create], ?_, ?_, ?_, ?_⟩
    · rw [hplace.script, htodo, List.append_assoc]
      rfl
    · rw [rounds_append, hplace.told]
      exact List.append_nil _
    · rw [creates_append, hplace.numClients]
      rfl
    · intro j hj
      rcases Nat.lt_succ_iff_lt_or_eq.mp hj with hlt | rfl
      · show (Function.update s.conn _ _ j).born = _
        rw [hold hlt]
        exact hplace.born j hlt
      · show (Function.update s.conn _ _ _).born = _
        rw [Function.update_self, hplace.script, htodo, ← hplace.numClients, bornAt_create, hplace.told]
        rfl

/-- The servers are told of a round. -/
theorem Inv.round {r : Round} {todo : List MasterAct} (h : Inv acts s) (hpc : s.master.pc = .next)
    (htodo : s.master.todo = .round r :: todo) :
    Inv acts {
      master := { s.master with todo := todo, pc := .acks r 0, told := s.master.told ++ [r] }
      conn := s.multicast (Conn.tellServer r) } := by
  have hphase := h.phase
  rw [Phase, hpc] at hphase
  obtain ⟨hexec, hall⟩ := hphase
  obtain ⟨done, hplace⟩ := h.place
  have hlater := later_multicast (s := s) (later_tellServer r)
  constructor
  · intro j hj
    exact (multicast_of_le s _ hj).trans (h.unborn j hj)
  · intro j hj
    show (s.multicast _ j).Inv _ _
    rw [multicast_of_lt s _ hj]
    have hinv := h.conn j hj
    exact hinv.tellServer (hexec ▸ hinv.born) r
  · refine ⟨by rw [hexec], Nat.zero_le _, ?_, ?_⟩
    · intro j hj
      rw [(hlater j).clientCount, hexec]
      exact (hall j hj).client
    · apply sum_range_of_eq
      intro j hj
      rw [(hlater j).serverCount, hexec]
      exact (hall j hj).server
  · refine ⟨done ++ [.round r], ?_, ?_, ?_, fun j hj => (hlater j).born.trans (hplace.born j hj)⟩
    · rw [hplace.script, htodo, List.append_assoc]
      rfl
    · rw [rounds_append, hplace.told]
      rfl
    · rw [creates_append, hplace.numClients]
      rfl

/-- The clients are told to terminate. -/
theorem Inv.term {todo : List MasterAct} (h : Inv acts s) (hpc : s.master.pc = .next)
    (htodo : s.master.todo = .term :: todo) :
    Inv acts { master := { s.master with todo := todo }, conn := s.multicast (Conn.tellClient .term) } := by
  have hphase := h.phase
  rw [Phase, hpc] at hphase
  obtain ⟨hexec, hall⟩ := hphase
  obtain ⟨done, hplace⟩ := h.place
  have hlater := later_multicast (s := s) (later_tellClient .term)
  constructor
  · intro j hj
    exact (multicast_of_le s _ hj).trans (h.unborn j hj)
  · intro j hj
    show (s.multicast _ j).Inv _ _
    rw [multicast_of_lt s _ hj]
    exact (h.conn j hj).tellTerm
  · show Phase { s.master with todo := todo } _
    rw [Phase, hpc]
    exact ⟨hexec, fun j hj => (hall j hj).later (hlater j)⟩
  · refine ⟨done ++ [.term], ?_, ?_, ?_, fun j hj => (hlater j).born.trans (hplace.born j hj)⟩
    · rw [hplace.script, htodo, List.append_assoc]
      rfl
    · rw [rounds_append, hplace.told]
      exact List.append_nil _
    · rw [creates_append, hplace.numClients]
      rfl

/-- The clients are told of a round. As many acknowledgements as server children are read, and no server child can
    have sent two reports before its client has started: each has sent its acknowledgement. -/
theorem Inv.exec {r : Round} {i : ℕ} (h : Inv acts s) (hcnt : ∀ r ∈ rounds acts, r.Valid)
    (hpc : s.master.pc = .acks r i) (hi : ¬ i < s.master.numClients) :
    Inv acts {
      master := { s.master with pc := .fromClient r 0, execd := s.master.execd ++ [r] }
      conn := s.multicast (Conn.tellClient (.exec r)) } := by
  have hphase := h.phase
  rw [Phase, hpc] at hphase
  obtain ⟨htold, hle, hclient, hserver⟩ := hphase
  obtain ⟨done, hplace⟩ := h.place
  have hlater := later_multicast (s := s) (later_tellClient (.exec r))
  have hin : i = s.master.numClients := Nat.le_antisymm hle (Nat.not_lt.mp hi)
  have hvalid : r.Valid := by
    apply hcnt
    rw [hplace.script, rounds_append, hplace.told, htold]
    simp
  have hsum : ∑ j ∈ range s.master.numClients, (s.conn j).serverCount =
      s.master.numClients * (2 * s.master.execd.length + 1) := by
    rw [hserver, hin, Nat.mul_succ]
  constructor
  · intro j hj
    exact (multicast_of_le s _ hj).trans (h.unborn j hj)
  · intro j hj
    show (s.multicast _ j).Inv _ _
    rw [multicast_of_lt s _ hj]
    exact (h.conn j hj).tellExec r
  · refine ⟨htold.symm, Nat.zero_le _, s.master.execd, htold, ?_, ?_, ?_⟩
    · intro j hj
      refine Started.later ⟨?_, fun hr => ?_⟩ (hlater j)
      · have hinv := h.conn j hj
        have hborn := hinv.born
        rw [(hinv.done (hclient j hj)).1, List.length_drop]
        omega
      · have hcount : ∀ j < s.master.numClients, (s.conn j).serverCount ≤ 2 * s.master.execd.length + 1 := by
          intro j hj
          have hinv := h.conn j hj
          rw [htold] at hinv
          have hahead := hinv.not_ahead (hclient j hj) hvalid.1 hr
          have hrep := hinv.server.reports
          simp only [Conn.serverCount]
          omega
        have hall := eq_of_sum_range_eq hcount hsum j hj
        have hrep := (h.conn j hj).server.reports
        simp only [Conn.serverCount] at hall
        omega
    · rw [sum_congr rfl fun j _ => (hlater j).clientCount]
      exact sum_range_of_eq hclient
    · rw [sum_congr rfl fun j _ => (hlater j).serverCount]
      exact hsum
  · exact ⟨done, hplace.script, hplace.told, hplace.numClients,
      fun j hj => (hlater j).born.trans (hplace.born j hj)⟩

/-- The master leaves a round: both totals have reached their bounds. -/
theorem Inv.leave {r : Round} {i : ℕ} (h : Inv acts s) (hpc : s.master.pc = .fromClient r i)
    (hi : ¬ i < s.master.numClients) : Inv acts { s with master := { s.master with pc := .next } } := by
  have hphase := h.phase
  rw [Phase, hpc] at hphase
  obtain ⟨hexec, hle, l, htold, hst, hclient, hserver⟩ := hphase
  have hin : i = s.master.numClients := Nat.le_antisymm hle (Nat.not_lt.mp hi)
  have hlen : s.master.told.length = l.length + 1 := by rw [htold]; simp
  have hcle : ∀ j < s.master.numClients, (s.conn j).clientCount ≤ s.master.told.length + 1 := by
    intro j hj
    have hinv := h.conn j hj
    have hborn := hinv.born
    have hrep := hinv.client.reports
    have hmax := hinv.client.reports_le
    rw [List.length_drop, hexec] at hmax
    rw [hexec] at hborn
    simp only [Conn.clientCount]
    omega
  have hsle : ∀ j < s.master.numClients, (s.conn j).serverCount ≤ 2 * s.master.told.length := by
    intro j hj
    have hinv := h.conn j hj
    have hborn := hinv.born
    have hrep := hinv.server.reports
    have hmax := hinv.server.reports_le
    rw [List.length_drop] at hmax
    rw [hexec] at hborn
    simp only [Conn.serverCount]
    omega
  have hcsum : ∑ j ∈ range s.master.numClients, (s.conn j).clientCount =
      s.master.numClients * (s.master.told.length + 1) := by
    rw [hclient, hin, hlen, ← Nat.mul_succ]
  have hssum : ∑ j ∈ range s.master.numClients, (s.conn j).serverCount =
      s.master.numClients * (2 * s.master.told.length) := by
    rw [hserver, hin, hlen, ← Nat.mul_succ]
    rfl
  refine ⟨h.unborn, h.conn, ⟨hexec, fun j hj => ⟨?_, ?_⟩⟩, ?_⟩
  · exact eq_of_sum_range_eq hcle hcsum j hj
  · exact eq_of_sum_range_eq hsle hssum j hj
  · obtain ⟨done, hplace⟩ := h.place
    exact ⟨done, hplace.script, hplace.told, hplace.numClients, hplace.born⟩

theorem Inv.masterStep (h : Inv acts s) (hcnt : ∀ r ∈ rounds acts, r.Valid) (hs : s.masterStep = some s') :
    Inv acts s' := by
  unfold State.masterStep at hs
  split at hs
  next hpc =>
    split at hs
    · simp at hs
    next todo htodo =>
      obtain rfl := Option.some.inj hs
      exact h.create hpc htodo
    next r todo htodo =>
      obtain rfl := Option.some.inj hs
      exact h.round hpc htodo
    next todo htodo =>
      obtain rfl := Option.some.inj hs
      exact h.term hpc htodo
  · simp at hs
  next r i hpc =>
    split at hs
    · simp at hs
    next hi =>
      obtain rfl := Option.some.inj hs
      exact h.exec hcnt hpc hi
  next r i hpc =>
    split at hs
    · simp at hs
    next hi =>
      obtain rfl := Option.some.inj hs
      exact h.leave hpc hi
  · simp at hs

/-! ## The reads of the master -/

/-- The connection after the master has read a report of the client, or of the server child. -/
def Conn.readClient (c : Conn) (rest : List ClientMasterCmd) : Conn :=
  { c with client := { c.client with outbox := rest, read := c.client.read + 1 } }

def Conn.readServer (c : Conn) (rest : List SrvToMasterCmd) : Conn :=
  { c with server := { c.server with outbox := rest, read := c.server.read + 1 } }

theorem Conn.Inv.readClient {told execd : List Round} {m : ClientMasterCmd} {rest : List ClientMasterCmd}
    (h : c.Inv told execd) (hout : c.client.outbox = m :: rest) : (c.readClient rest).Inv told execd := by
  have hcl := h.client
  refine ⟨⟨hcl.log, ?_, hcl.starting, hcl.written, hcl.bounded, hcl.nonzero, hcl.live⟩, h.server, h.flow, h.born⟩
  have hrep := hcl.reports
  rw [hout, List.length_cons] at hrep
  show c.client.read + 1 + rest.length = c.client.reports
  omega

theorem Conn.Inv.readServer {told execd : List Round} {m : SrvToMasterCmd} {rest : List SrvToMasterCmd}
    (h : c.Inv told execd) (hout : c.server.outbox = m :: rest) : (c.readServer rest).Inv told execd := by
  have hsv := h.server
  refine ⟨h.client, ⟨hsv.log, ?_, hsv.lengths, hsv.bounded⟩, h.flow, h.born⟩
  have hrep := hsv.reports
  rw [hout, List.length_cons] at hrep
  show c.server.read + 1 + rest.length = c.server.reports
  omega

theorem Conn.readClient_clientCount (c : Conn) (rest : List ClientMasterCmd) :
    (c.readClient rest).clientCount = c.clientCount + 1 := by
  show c.client.read + 1 + c.born = c.client.read + c.born + 1
  omega

theorem Conn.readServer_serverCount (c : Conn) (rest : List SrvToMasterCmd) :
    (c.readServer rest).serverCount = c.serverCount + 1 := by
  show c.server.read + 1 + 2 * c.born = c.server.read + 2 * c.born + 1
  omega

/-- A report is one of a client that was created. -/
theorem Inv.lt_of_client {i : ℕ} {m : ClientMasterCmd} {rest : List ClientMasterCmd} (h : Inv acts s)
    (hout : (s.conn i).client.outbox = m :: rest) : i < s.master.numClients := by
  by_contra hi
  rw [h.unborn i (Nat.not_lt.mp hi)] at hout
  exact absurd hout (by simp [Conn.unborn])

theorem Inv.lt_of_server {i : ℕ} {m : SrvToMasterCmd} {rest : List SrvToMasterCmd} (h : Inv acts s)
    (hout : (s.conn i).server.outbox = m :: rest) : i < s.master.numClients := by
  by_contra hi
  rw [h.unborn i (Nat.not_lt.mp hi)] at hout
  exact absurd hout (by simp [Conn.unborn])

/-- A read changes one connection that exists; what is left to show is the new phase. -/
theorem Inv.read {i : ℕ} {pc : MasterPc} {cmd : UInt32} (h : Inv acts s) (hi : i < s.master.numClients)
    (hinv : c'.Inv s.master.told s.master.execd) (hborn : c'.born = (s.conn i).born)
    (hphase : Phase { s.master with pc := pc, cmd := cmd } (Function.update s.conn i c')) :
    Inv acts { master := { s.master with pc := pc, cmd := cmd }, conn := Function.update s.conn i c' } := by
  refine ⟨?_, forall_lt_update (fun c : Conn => c.Inv s.master.told s.master.execd) h.conn fun _ => hinv, hphase, ?_⟩
  · intro j hj
    have hne : j ≠ i := fun hji => Nat.not_lt.mpr hj (hji ▸ hi)
    exact (Function.update_of_ne hne ..).trans (h.unborn j hj)
  · obtain ⟨done, hplace⟩ := h.place
    refine ⟨done, hplace.script, hplace.told, hplace.numClients, ?_⟩
    refine (Function.forall_update_iff s.conn fun j c => j < s.master.numClients → c.born = bornAt acts j).mpr ⟨?_, ?_⟩
    · intro hi
      exact hborn.trans (hplace.born i hi)
    · intro j _ hj
      exact hplace.born j hj

/-- The report of a new client is read: nobody else has one. -/
theorem Inv.read_ready {i : ℕ} {cmd : UInt32} {m : ClientMasterCmd} {rest : List ClientMasterCmd} (h : Inv acts s)
    (hout : (s.conn i).client.outbox = m :: rest) (hpc : s.master.pc = .ready) :
    Phase { s.master with pc := .next, cmd := cmd } (Function.update s.conn i ((s.conn i).readClient rest)) := by
  have hi := h.lt_of_client hout
  have hphase := h.phase
  rw [Phase, hpc] at hphase
  obtain ⟨hexec, n, hn, hall, hfresh⟩ := hphase
  obtain rfl : i = n := by
    by_contra hne
    have hread := (hall i (by omega)).client
    rw [← hexec] at hread
    rw [((h.conn i hi).done hread).2.2] at hout
    nomatch hout
  refine ⟨hexec, ?_⟩
  refine (Function.forall_update_iff s.conn fun j c => j < s.master.numClients → AllRead s.master.told c).mpr ⟨?_, ?_⟩
  · intro _
    have hborn := hfresh.born
    constructor
    · rw [Conn.readClient_clientCount, Conn.clientCount, hfresh.client]
      omega
    · show (s.conn i).serverCount = _
      rw [Conn.serverCount, hfresh.server]
      omega
  · intro j hne hj
    exact hall j (by omega)

/-- The report of a client that has finished its round is read. -/
theorem Inv.read_finished {i k : ℕ} {cmd : UInt32} {r : Round} {rest : List ClientMasterCmd} (h : Inv acts s)
    (hi : i < s.master.numClients) (hpc : s.master.pc = .fromClient r k) (hk : k < s.master.numClients) :
    Phase { s.master with pc := .fromSrv r k, cmd := cmd } (Function.update s.conn i ((s.conn i).readClient rest)) := by
  have hphase := h.phase
  rw [Phase, hpc] at hphase
  obtain ⟨hexec, -, l, htold, hst, hclient, hserver⟩ := hphase
  refine ⟨hexec, hk, l, htold, forall_lt_update (Started l r) hst fun h => ⟨h.client, h.server⟩, ?_, ?_⟩
  · rw [← Nat.add_assoc, ← hclient]
    exact sum_range_update_succ hi (Conn.readClient_clientCount _ _)
  · rw [← hserver]
    exact sum_range_update_eq rfl

/-- `master_from_client`. -/
theorem Inv.fromClient {i : ℕ} (h : Inv acts s) (hs : s.fromClient i = some s') : Inv acts s' := by
  unfold State.fromClient at hs
  split at hs
  next pc m rest hpc hout =>
    obtain rfl := Option.some.inj hs
    have hi := h.lt_of_client hout
    apply h.read hi ((h.conn i hi).readClient hout) rfl
    unfold Master.afterClient at hpc
    split at hpc
    next hready =>
      obtain rfl := Option.some.inj hpc
      exact h.read_ready hout hready
    next r k hfrom =>
      obtain ⟨hk, hpc⟩ := Option.ite_none_right_eq_some.mp hpc
      obtain rfl := Option.some.inj hpc
      exact h.read_finished hi hfrom hk
    · nomatch hpc
  · nomatch hs

/-- An acknowledgement is read. -/
theorem Inv.read_ack {i k : ℕ} {cmd : UInt32} {r : Round} {rest : List SrvToMasterCmd} (h : Inv acts s)
    (hi : i < s.master.numClients) (hpc : s.master.pc = .acks r k) (hk : k < s.master.numClients) :
    Phase { s.master with pc := .acks r (k + 1), cmd := cmd }
      (Function.update s.conn i ((s.conn i).readServer rest)) := by
  have hphase := h.phase
  rw [Phase, hpc] at hphase
  obtain ⟨htold, -, hclient, hserver⟩ := hphase
  refine ⟨htold, hk, forall_lt_update (fun c : Conn => c.clientCount = s.master.execd.length + 1) hclient fun h => h, ?_⟩
  rw [← Nat.add_assoc, ← hserver]
  exact sum_range_update_succ hi (Conn.readServer_serverCount _ _)

/-- A report of a server child is read. -/
theorem Inv.read_served {i k : ℕ} {cmd : UInt32} {r : Round} {rest : List SrvToMasterCmd} (h : Inv acts s)
    (hi : i < s.master.numClients) (hpc : s.master.pc = .fromSrv r k) :
    Phase { s.master with pc := .fromClient r (k + 1), cmd := cmd }
      (Function.update s.conn i ((s.conn i).readServer rest)) := by
  have hphase := h.phase
  rw [Phase, hpc] at hphase
  obtain ⟨hexec, hk, l, htold, hst, hclient, hserver⟩ := hphase
  refine ⟨hexec, hk, l, htold, forall_lt_update (Started l r) hst fun h => ⟨h.client, h.server⟩, ?_, ?_⟩
  · rw [← hclient]
    exact sum_range_update_eq rfl
  · rw [← Nat.add_assoc, ← hserver]
    exact sum_range_update_succ hi (Conn.readServer_serverCount _ _)

/-- `master_from_srv`. -/
theorem Inv.fromSrv {i : ℕ} (h : Inv acts s) (hs : s.fromSrv i = some s') : Inv acts s' := by
  unfold State.fromSrv at hs
  split at hs
  next pc m rest hpc hout =>
    obtain rfl := Option.some.inj hs
    have hi := h.lt_of_server hout
    apply h.read hi ((h.conn i hi).readServer hout) rfl
    unfold Master.afterSrv at hpc
    split at hpc
    next r k hacks =>
      obtain ⟨hk, hpc⟩ := Option.ite_none_right_eq_some.mp hpc
      obtain rfl := Option.some.inj hpc
      exact h.read_ack hi hacks hk
    next r k hfrom =>
      obtain rfl := Option.some.inj hpc
      exact h.read_served hi hfrom
    · nomatch hpc
  · nomatch hs

/-! ## Every run -/

theorem inv_start (acts : List MasterAct) : Inv acts (start acts) := by
  refine ⟨fun _ _ => rfl, nofun, ⟨rfl, nofun⟩, [], rfl, rfl, rfl, nofun⟩

theorem Inv.step {l : Label} (hvalid : ∀ r ∈ rounds acts, r.Valid) (h : Inv acts s) (hs : step s l = some s') :
    Inv acts s' := by
  cases l with
  | master => exact h.masterStep hvalid (Option.ite_none_right_eq_some.mp hs).2
  | fromClient i => exact h.fromClient (Option.ite_none_right_eq_some.mp hs).2
  | fromSrv i => exact h.fromSrv (Option.ite_none_right_eq_some.mp hs).2
  | dieMaster =>
    obtain rfl := Option.some.inj hs
    obtain ⟨done, hplace⟩ := h.place
    exact ⟨h.unborn, h.conn, h.phase, done, hplace.script, hplace.told, hplace.numClients, hplace.born⟩
  | conn i a => exact h.conn_step hs

/-- **The invariant holds in every reachable state**, for every script of valid rounds. -/
theorem inv_reach (hvalid : ∀ r ∈ rounds acts, r.Valid) (h : Lts.Reach Benchmark.step (start acts) s) : Inv acts s :=
  h.inv (inv_start acts) fun _ _ _ hI hs => hI.step hvalid hs

/-! ## The barrier -/

variable (f : ClientMasterCmd → ClientMasterCmd) (g : SrvToMasterCmd → SrvToMasterCmd)

/-- A connection whose reports say something else. -/
def Conn.recode (c : Conn) : Conn :=
  { c with
    client := { c.client with outbox := c.client.outbox.map f }
    server := { c.server with outbox := c.server.outbox.map g } }

/-- A state in which the reports say something else, and nothing is known of the last one read. -/
def State.recode (s : State) : State := ⟨{ s.master with cmd := 0 }, fun i => (s.conn i).recode f g⟩

theorem Conn.recode_recode (c : Conn) : (c.recode f g).recode id id = c.recode f g := by
  simp [Conn.recode]

theorem tellServer_recode (r : Round) (c : Conn) :
    ((c.recode f g).tellServer r).recode id id = (c.tellServer r).recode f g := by
  simp [Conn.recode, Conn.tellServer]

theorem tellClient_recode (m : MasterClientCmd) (c : Conn) :
    ((c.recode f g).tellClient m).recode id id = (c.tellClient m).recode f g := by
  simp [Conn.recode, Conn.tellClient]

theorem multicast_recode {op : Conn → Conn} (hop : ∀ c : Conn, (op (c.recode f g)).recode id id = (op c).recode f g)
    (s : State) (m m' : Master) (hm : { m' with cmd := 0 } = { m with cmd := 0 }) :
    State.recode id id ⟨m', (s.recode f g).multicast op⟩ = State.recode f g ⟨m, s.multicast op⟩ := by
  apply congr (congrArg State.mk hm)
  funext j
  show ((s.recode f g).multicast op j).recode id id = (s.multicast op j).recode f g
  by_cases hj : j < s.master.numClients
  · rw [multicast_of_lt s op hj, multicast_of_lt (s.recode f g) op hj]
    exact hop _
  · rw [multicast_of_le s op (Nat.not_lt.mp hj), multicast_of_le (s.recode f g) op (Nat.not_lt.mp hj)]
    exact Conn.recode_recode f g _

theorem update_recode {c c' : Conn} (hc : c'.recode id id = c.recode f g) (s : State) (i : ℕ) (m m' : Master)
    (hm : { m' with cmd := 0 } = { m with cmd := 0 }) :
    State.recode id id ⟨m', Function.update (s.recode f g).conn i c'⟩ =
      State.recode f g ⟨m, Function.update s.conn i c⟩ := by
  apply congr (congrArg State.mk hm)
  funext j
  show (Function.update (s.recode f g).conn i c' j).recode id id = (Function.update s.conn i c j).recode f g
  by_cases hj : j = i
  · rw [hj, Function.update_self, Function.update_self, hc]
  · rw [Function.update_of_ne hj, Function.update_of_ne hj]
    exact Conn.recode_recode f g _

theorem fromClient_recode (s : State) (i : ℕ) :
    ((s.recode f g).fromClient i).map (State.recode id id) = (s.fromClient i).map (State.recode f g) := by
  have hpc : (s.recode f g).master.afterClient = s.master.afterClient := rfl
  have hout : ((s.recode f g).conn i).client.outbox = (s.conn i).client.outbox.map f := rfl
  unfold State.fromClient
  rw [hpc, hout]
  cases s.master.afterClient with
  | none => rfl
  | some pc =>
    cases (s.conn i).client.outbox with
    | nil => rfl
    | cons m rest =>
      apply congrArg some
      apply update_recode
      · simp [Conn.recode, State.recode]
      · rfl

theorem fromSrv_recode (s : State) (i : ℕ) :
    ((s.recode f g).fromSrv i).map (State.recode id id) = (s.fromSrv i).map (State.recode f g) := by
  have hpc : (s.recode f g).master.afterSrv = s.master.afterSrv := rfl
  have hout : ((s.recode f g).conn i).server.outbox = (s.conn i).server.outbox.map g := rfl
  unfold State.fromSrv
  rw [hpc, hout]
  cases s.master.afterSrv with
  | none => rfl
  | some pc =>
    cases (s.conn i).server.outbox with
    | nil => rfl
    | cons m rest =>
      apply congrArg some
      apply update_recode
      · simp [Conn.recode, State.recode]
      · rfl

theorem masterStep_recode (s : State) :
    (s.recode f g).masterStep.map (State.recode id id) = s.masterStep.map (State.recode f g) := by
  have hpc : (s.recode f g).master.pc = s.master.pc := rfl
  have htodo : (s.recode f g).master.todo = s.master.todo := rfl
  have hn : (s.recode f g).master.numClients = s.master.numClients := rfl
  unfold State.masterStep
  rw [hpc, htodo, hn]
  cases s.master.pc with
  | next =>
    cases s.master.todo with
    | nil => rfl
    | cons a todo =>
      cases a with
      | create =>
        apply congrArg some
        apply update_recode
        · rfl
        · rfl
      | round r =>
        apply congrArg some
        exact multicast_recode f g (tellServer_recode f g r) s _ _ rfl
      | term =>
        apply congrArg some
        exact multicast_recode f g (tellClient_recode f g .term) s _ _ rfl
  | ready | fromSrv _ _ => rfl
  | acks r i =>
    by_cases hi : i < s.master.numClients
    · simp [hi]
    · simp only [hi, if_false]
      apply congrArg some
      exact multicast_recode f g (tellClient_recode f g (.exec r)) s _ _ rfl
  | fromClient r i =>
    by_cases hi : i < s.master.numClients
    · simp [hi]
    · simp only [hi, if_false]
      apply congrArg some
      apply congrArg (State.mk _)
      funext j
      exact Conn.recode_recode f g _

/-- **The master only counts.** Whatever the reports on their way say, it makes the same steps. -/
theorem step_recode (s : State) (l : Label) (hl : ∀ i a, l ≠ .conn i a) :
    (step (s.recode f g) l).map (State.recode id id) = (step s l).map (State.recode f g) := by
  have halive : (s.recode f g).master.alive = s.master.alive := rfl
  cases l with
  | conn i a => exact absurd rfl (hl i a)
  | dieMaster =>
    apply congrArg some
    apply congrArg (State.mk _)
    funext j
    exact Conn.recode_recode f g _
  | master =>
    simp only [step, halive]
    split
    · exact masterStep_recode f g s
    · rfl
  | fromClient i =>
    simp only [step, halive]
    split
    · exact fromClient_recode f g s i
    · rfl
  | fromSrv i =>
    simp only [step, halive]
    split
    · exact fromSrv_recode f g s i
    · rfl

/-- **After a round.** Between two acts of its script the master has read every report, each client has executed the
    rounds since its creation, and its server child has received their messages. -/
theorem Inv.barrier (h : Inv acts s) (hvalid : ∀ r ∈ rounds acts, r.Valid) (hpc : s.master.pc = .next) {i : ℕ}
    (hi : i < s.master.numClients) :
    (s.conn i).client.executed = s.master.told.drop (s.conn i).born ∧
      (s.conn i).server.accepted = s.master.told.drop (s.conn i).born ∧
      (s.conn i).server.received = messages (s.master.told.drop (s.conn i).born) ∧ (s.conn i).stream = [] ∧
      (s.conn i).client.outbox = [] ∧ (s.conn i).server.outbox = [] := by
  have hphase := h.phase
  rw [Phase, hpc] at hphase
  obtain ⟨hexec, hall⟩ := hphase
  obtain ⟨done, hplace⟩ := h.place
  have hinv := h.conn i hi
  rw [hexec] at hinv
  apply hinv.complete
  · intro r hr
    apply hvalid
    rw [hplace.script, rounds_append, hplace.told]
    exact List.mem_append_left _ hr
  · exact (hall i hi).client
  · exact (hall i hi).server

/-- Within a round that all have started, a client at work is in this one, and the server children have accepted it. -/
theorem Inv.working {i : ℕ} {l : List Round} {r r' : Round} (h : Inv acts s) (hi : i < s.master.numClients)
    (hcur : (s.conn i).client.pc.current = [r]) (ha : (s.conn i).client.alive = true)
    (hexec : s.master.execd = s.master.told) (htold : s.master.told = l ++ [r'])
    (hst : ∀ j < s.master.numClients, Started l r' (s.conn j)) :
    r' = r ∧ (s.conn i).client.executed = l.drop (s.conn i).born ∧
      ∀ j < s.master.numClients, (s.conn j).server.accepted = s.master.told.drop (s.conn j).born := by
  have hinv := h.conn i hi
  have hborn := hinv.born
  have hlog := hinv.client.log
  rw [hcur, hexec, htold] at hlog
  have hlen := congrArg List.length hlog
  have hclient := (hst i hi).client
  rw [hexec, htold] at hborn
  simp only [List.length_append, List.length_drop, List.length_singleton] at hlen hborn
  have hin : (s.conn i).client.inbox.filterMap MasterClientCmd.round? = [] :=
    List.eq_nil_of_length_eq_zero (by omega)
  rw [hin, List.append_nil, List.drop_append_of_le_length (by omega)] at hlog
  obtain ⟨hexecuted, hr⟩ := List.append_inj' hlog rfl
  obtain rfl : r = r' := List.singleton_inj.mp hr
  refine ⟨rfl, hexecuted, ?_⟩
  intro j hj
  have hlive : r.msglen ≠ 0 := hinv.client.live ha r (by rw [hcur]; exact List.mem_singleton_self r)
  have hserver := (hst j hj).server hlive
  have hinvj := h.conn j hj
  have hbornj := hinvj.born
  rw [hexec, htold, List.length_append, List.length_singleton] at hbornj
  apply hinvj.server.accepted
  rw [List.length_drop, htold, List.length_append, List.length_singleton]
  omega

/-- **Within a round.** A client that sends is in the last round told, and every server child has accepted it. -/
theorem Inv.sending {i : ℕ} {r : Round} {sent : ℕ} (h : Inv acts s) (hpc : (s.conn i).client.pc = .stream r sent)
    (ha : (s.conn i).client.alive = true) :
    i < s.master.numClients ∧ ∃ l, s.master.told = l ++ [r] ∧
      (s.conn i).client.executed = l.drop (s.conn i).born ∧
      ∀ j < s.master.numClients, (s.conn j).server.accepted = s.master.told.drop (s.conn j).born := by
  have hi : i < s.master.numClients := by
    by_contra hi
    rw [h.unborn i (Nat.not_lt.mp hi)] at hpc
    nomatch hpc
  refine ⟨hi, ?_⟩
  have hcur : (s.conn i).client.pc.current = [r] := by rw [hpc]; rfl
  -- it has not reported all that its rounds amount to
  have hbusy : (s.conn i).clientCount ≠ s.master.execd.length + 1 := by
    intro hread
    rw [((h.conn i hi).done hread).2.1] at hcur
    nomatch hcur
  have hphase := h.phase
  unfold Phase at hphase
  cases hm : s.master.pc with
  | next =>
    rw [hm] at hphase
    obtain ⟨hexec, hall⟩ := hphase
    have hread := (hall i hi).client
    rw [← hexec] at hread
    exact absurd hread hbusy
  | ready =>
    rw [hm] at hphase
    obtain ⟨hexec, n, hn, hall, hfresh⟩ := hphase
    rcases Nat.lt_succ_iff_lt_or_eq.mp (hn ▸ hi) with hlt | rfl
    · have hread := (hall i hlt).client
      rw [← hexec] at hread
      exact absurd hread hbusy
    · -- the new client has been told nothing
      have hlog := congrArg List.length (h.conn i hi).client.log
      rw [hcur, hfresh.born, hexec] at hlog
      simp at hlog
  | acks r' k =>
    rw [hm] at hphase
    obtain ⟨htold, -, hclient, -⟩ := hphase
    exact absurd (hclient i hi) hbusy
  | fromClient r' k | fromSrv r' k =>
    rw [hm] at hphase
    obtain ⟨hexec, -, l, htold, hst, -⟩ := hphase
    obtain ⟨rfl, hworking⟩ := h.working hi hcur ha hexec htold hst
    exact ⟨l, htold, hworking⟩

/-! ## The two tests of `main` -/

@[simp] theorem rounds_map_round (l : List Round) : rounds (l.map .round) = l := by
  induction l with
  | nil => rfl
  | cons r l ih => exact congrArg (r :: ·) ih

@[simp] theorem rounds_replicate_create (n : ℕ) : rounds (List.replicate n .create) = [] := by
  induction n with
  | zero => rfl
  | succ n ih => exact ih

@[simp] theorem creates_map_round (l : List Round) : creates (l.map .round) = 0 :=
  List.count_eq_zero.mpr (by simp)

@[simp] theorem creates_replicate_create (n : ℕ) : creates (List.replicate n .create) = n := List.count_replicate_self

theorem bornAt_map_round (l : List Round) (acts : List MasterAct) (i : ℕ) :
    bornAt (l.map .round ++ acts) i = bornAt acts i + l.length := by
  induction l with
  | nil => rfl
  | cons r l ih => exact congrArg (· + 1) ih

theorem bornAt_replicate_create {n i : ℕ} (acts : List MasterAct) (hi : i < n) :
    bornAt (List.replicate n .create ++ acts) i = 0 := by
  induction n generalizing i with
  | zero => nomatch hi
  | succ n ih =>
    cases i with
    | zero => rfl
    | succ i => exact ih (Nat.lt_of_succ_lt_succ hi)

/-- The part of `main` before the throughput rounds. -/
def setup (latency : Option (List Round)) (reqClients : ℕ) : List MasterAct :=
  match latency with
  | some lat => .create :: lat.map .round ++ List.replicate (reqClients - 1) .create
  | none => List.replicate reqClients .create

theorem mainActs_eq (latency : Option (List Round)) (reqClients : ℕ) (thruput : List Round) :
    mainActs latency reqClients (some thruput) = setup latency reqClients ++ (thruput.map .round ++ [.term]) := by
  cases latency <;> simp [mainActs, setup]

theorem rounds_setup (latency : Option (List Round)) (reqClients : ℕ) :
    rounds (setup latency reqClients) = latency.getD [] := by
  cases latency with
  | none => exact rounds_replicate_create _
  | some lat =>
    rw [setup, List.cons_append]
    show rounds (lat.map .round ++ List.replicate (reqClients - 1) .create) = lat
    rw [rounds_append, rounds_map_round, rounds_replicate_create, List.append_nil]

theorem creates_setup (latency : Option (List Round)) {reqClients : ℕ} (hn : 1 ≤ reqClients) :
    creates (setup latency reqClients) = reqClients := by
  cases latency with
  | none => exact creates_replicate_create _
  | some lat =>
    have hc : creates (.create :: (lat.map .round ++ List.replicate (reqClients - 1) .create)) =
        creates (lat.map .round ++ List.replicate (reqClients - 1) .create) + 1 := List.count_cons_self
    rw [setup, List.cons_append, hc, creates_append, creates_map_round, creates_replicate_create]
    omega

theorem bornAt_setup (latency : Option (List Round)) {reqClients i : ℕ} (acts : List MasterAct) (hi : i < reqClients) :
    bornAt (setup latency reqClients ++ acts) i = if i = 0 then 0 else (latency.getD []).length := by
  cases latency with
  | none =>
    rw [setup, bornAt_replicate_create acts hi]
    simp
  | some lat =>
    cases i with
    | zero => rfl
    | succ i =>
      show bornAt (lat.map .round ++ List.replicate (reqClients - 1) .create ++ acts) i = lat.length
      rw [List.append_assoc, bornAt_map_round, bornAt_replicate_create acts (by omega), Nat.zero_add]

/-- The first `k` throughput rounds, as client `i` runs them: the first client runs the latency test before. -/
def clientRounds (latency : Option (List Round)) (thruput : List Round) (i k : ℕ) : List Round :=
  (if i = 0 then latency.getD [] else []) ++ thruput.take k

section

variable {latency : Option (List Round)} {n : ℕ} {thruput : List Round}

theorem drop_clientRounds (latency : Option (List Round)) (thruput : List Round) (i k : ℕ) :
    (latency.getD [] ++ thruput.take k).drop (if i = 0 then 0 else (latency.getD []).length) =
      clientRounds latency thruput i k := by
  by_cases hi : i = 0
  · rw [clientRounds, if_pos hi, if_pos hi, List.drop_zero]
  · rw [clientRounds, if_neg hi, if_neg hi, List.drop_left, List.nil_append]

/-- From the first throughput round on, all clients are there. -/
theorem Inv.throughput (hn : 1 ≤ n) (h : Inv (mainActs latency n (some thruput)) s) {k : ℕ} (hk : 1 ≤ k)
    (htold : s.master.told.length = (latency.getD []).length + k) :
    s.master.numClients = n ∧ k ≤ thruput.length ∧ s.master.told = latency.getD [] ++ thruput.take k ∧
      ∀ i < n, (s.conn i).born = if i = 0 then 0 else (latency.getD []).length := by
  obtain ⟨done, hplace⟩ := h.place
  have hscript := hplace.script
  rw [mainActs_eq] at hscript
  have hrounds := congrArg rounds hscript
  simp only [rounds_append, rounds_setup, rounds_map_round, hplace.told] at hrounds
  have hterm : rounds [.term] = [] := rfl
  rw [hterm, List.append_nil] at hrounds
  have htake : s.master.told = latency.getD [] ++ thruput.take k := by
    have hprefix := congrArg (List.take s.master.told.length) hrounds
    rw [List.take_left, htold, List.take_length_add_append] at hprefix
    exact hprefix.symm
  have hlen : k ≤ thruput.length := by
    have := congrArg List.length htake
    rw [htold, List.length_append, List.length_take] at this
    omega
  -- what is done goes past the setup
  have hall : s.master.numClients = n := by
    rw [← hplace.numClients]
    rcases List.append_eq_append_iff.mp hscript with ⟨x, hdone, htodo⟩ | ⟨y, hsetup, -⟩
    · have hx := congrArg creates htodo
      have hterm : creates [.term] = 0 := rfl
      rw [creates_append, creates_append, creates_map_round, hterm] at hx
      rw [hdone, creates_append, creates_setup latency hn]
      omega
    · have hy := congrArg (List.length ∘ rounds) hsetup
      simp only [Function.comp_apply, rounds_setup, rounds_append, List.length_append, hplace.told] at hy
      omega
  refine ⟨hall, hlen, htake, ?_⟩
  intro i hi
  rw [hplace.born i (hall ▸ hi), mainActs_eq, bornAt_setup latency _ hi]

/-- **Rounds are barriers.** For every number of clients, with or without the latency test before, for all rounds
    with a count between 1 and 2^31 and in every interleaving:
    when the master has left throughput round `k`, each of the `n` clients has executed exactly its rounds up to `k`,
    its server child has received exactly their messages, no octet is left between them, and no report is left for
    the master;
    while the servers are told of round `k`, a client that sends has executed the rounds before, sends the message of
    round `k`, and every server child has accepted the `msglen` of round `k`;
    and the master makes the same steps whatever the `cmd` of the reports. -/
theorem rounds_barrier (hn : 1 ≤ n) (hvalid : ∀ r ∈ latency.getD [] ++ thruput, r.Valid)
    (hs : Lts.Reach Benchmark.step (start (mainActs latency n (some thruput))) s) :
    (∀ k, 1 ≤ k → s.master.pc = .next → s.master.told.length = (latency.getD []).length + k →
      s.master.numClients = n ∧ k ≤ thruput.length ∧ ∀ i < n,
        (s.conn i).client.executed = clientRounds latency thruput i k ∧
        (s.conn i).server.received = messages (clientRounds latency thruput i k) ∧ (s.conn i).stream = [] ∧
        (s.conn i).client.outbox = [] ∧ (s.conn i).server.outbox = []) ∧
    (∀ i ret s', Benchmark.step s (.conn i (.send ret)) = some s' →
      ∀ k, 1 ≤ k → s.master.told.length = (latency.getD []).length + k →
        s.master.numClients = n ∧ k ≤ thruput.length ∧
        (s.conn i).client.executed = clientRounds latency thruput i (k - 1) ∧
        (∃ r sent, (s.conn i).client.pc = .stream r sent ∧ thruput[k - 1]? = some r) ∧
        ∀ j < n, (s.conn j).server.accepted = clientRounds latency thruput j k) ∧
    ∀ f g l, (∀ i a, l ≠ .conn i a) →
      (Benchmark.step (s.recode f g) l).map (State.recode id id) = (Benchmark.step s l).map (State.recode f g) := by
  have hrounds : rounds (mainActs latency n (some thruput)) = latency.getD [] ++ thruput := by
    rw [mainActs_eq, rounds_append, rounds_setup, rounds_append, rounds_map_round]
    exact congrArg _ (List.append_nil _)
  rw [← hrounds] at hvalid
  have h := inv_reach hvalid hs
  refine ⟨?_, ?_, fun f g l hl => step_recode f g s l hl⟩
  · intro k hk hpc htold
    obtain ⟨hall, hlen, htake, hborn⟩ := h.throughput hn hk htold
    refine ⟨hall, hlen, ?_⟩
    intro i hi
    obtain ⟨hexec, -, hrecv, hrest⟩ := h.barrier hvalid hpc (hall ▸ hi)
    rw [htake, hborn i hi, drop_clientRounds] at hexec hrecv
    exact ⟨hexec, hrecv, hrest⟩
  · intro i ret s' hsend k hk htold
    obtain ⟨hall, hlen, htake, hborn⟩ := h.throughput hn hk htold
    obtain ⟨c', hact, -⟩ := Option.map_eq_some_iff.mp hsend
    obtain ⟨r, sent, ha, hpc⟩ : ∃ r sent, (s.conn i).client.alive = true ∧ (s.conn i).client.pc = .stream r sent := by
      cases Conn.effect hact with
      | send ha hpc _ _ | cut ha hpc _ _ _ => exact ⟨_, _, ha, hpc⟩
    obtain ⟨hi, l, hl, hexec, haccepted⟩ := h.sending hpc ha
    rw [hall] at hi haccepted
    -- the last round told is throughput round `k`
    have hlast : thruput.take k = thruput.take (k - 1) ++ [thruput[k - 1]] := by
      rw [List.take_concat_get', Nat.sub_add_cancel hk]
    have heq : l ++ [r] = (latency.getD [] ++ thruput.take (k - 1)) ++ [thruput[k - 1]] := by
      rw [← hl, htake, hlast, List.append_assoc]
    obtain ⟨rfl, hr⟩ := List.append_inj' heq rfl
    refine ⟨hall, hlen, ?_, ⟨r, sent, hpc, ?_⟩, fun j hj => ?_⟩
    · rw [hexec, hborn i hi, drop_clientRounds]
    · rw [List.singleton_inj.mp hr]
      exact List.getElem?_eq_getElem _
    · rw [haccepted j hj, htake, hborn j hj, drop_clientRounds]

end

/-- Two clients with one round of one message of two octets, up to the end of the round. -/
def twoClients : List Label :=
  [.master, .conn 0 .client, .fromClient 0, .master, .conn 1 .client, .fromClient 1, .master,
    .conn 0 .server, .conn 0 .server, .conn 1 .server, .conn 1 .server, .fromSrv 1, .fromSrv 0, .master,
    .conn 1 .client, .conn 1 (.send 2), .conn 1 .client, .conn 1 .client,
    .conn 1 .serverRecv, .conn 1 .server, .conn 1 .server,
    .conn 0 .client, .conn 0 (.send 2), .conn 0 .client, .conn 0 .client,
    .conn 0 .serverRecv, .conn 0 .server, .conn 0 .server,
    .fromClient 1, .fromSrv 0, .fromClient 0, .fromSrv 1, .master]

theorem twoClients_runs :
    (Lts.exec Benchmark.step (start (mainActs none 2 (some [⟨2, 1, 0⟩]))) twoClients).isSome = true := by
  decide +kernel

def twoClientsLeft : State := Lts.final Benchmark.step _ twoClients twoClients_runs

theorem twoClientsLeft_reach :
    Lts.Reach Benchmark.step (start (mainActs none 2 (some [⟨2, 1, 0⟩]))) twoClientsLeft :=
  Lts.reach_final twoClients_runs

theorem rounds_barrier_twoClients :
    twoClientsLeft.master.numClients = 2 ∧ (twoClientsLeft.conn 1).client.executed = [⟨2, 1, 0⟩] ∧
      (twoClientsLeft.conn 1).server.received = [[⟨0, 0⟩, ⟨0, 0⟩]] := by
  have h := rounds_barrier (by decide) (by decide) twoClientsLeft_reach
  have hpc : twoClientsLeft.master.pc = .next := by decide +kernel
  have htold : twoClientsLeft.master.told.length = 0 + 1 := by decide +kernel
  obtain ⟨hall, -, hround⟩ := h.1 1 (Nat.le_refl _) hpc htold
  obtain ⟨hexec, hrecv, -⟩ := hround 1 (by decide)
  refine ⟨hall, hexec.trans (by decide), hrecv.trans (by decide)⟩

end Benchmark
end Tipcutils
