import Tipcutils.Benchmark.Barrier
import Tipcutils.Benchmark.Progress

/-!
# `Benchmark.Completion` — the benchmark comes to its end

All processes of the benchmark together, where nothing fails (`smoothStep`). Every step lowers a rank, which prices what
the master has still to do, what it has told its clients and server children, and what they have reported
(**`rank_step`**). As long as the master waits for a report, some connection can go on: one that has come to rest has
sent all the reports that there are to send (`Conn.settled`), and they would add up to more than the master has read.

**`completes_iff`** says when the benchmark relies on that: it completes, in every interleaving, exactly where the length
of a message is one that both the client and the server child take for what it is.
-/

namespace Tipcutils
namespace Benchmark

open Finset

/-! ## Steps in which nothing fails -/

/-- Nobody dies, and a `send` takes the whole message. -/
def State.smooth (s : State) : Label → Bool
  | .dieMaster => false
  | .conn i a => (s.conn i).whole a
  | .master | .fromClient _ | .fromSrv _ => true

def smoothStep (s : State) (l : Label) : Option State := if s.smooth l then step s l else none

theorem smoothStep_eq_some {s s' : State} {l : Label} (h : smoothStep s l = some s') :
    s.smooth l = true ∧ step s l = some s' :=
  Option.ite_none_right_eq_some.mp h

/-! ## The rank -/

/-- What the script costs with `n` clients. -/
def scriptCost : List MasterAct → ℕ → ℕ
  | [], _ => 0
  | .create :: acts, n => 3 + scriptCost acts (n + 1)
  | .round r :: acts, n => 3 + n * (r.cost + (MasterClientCmd.exec r).cost) + scriptCost acts n
  | .term :: acts, n => 1 + n * MasterClientCmd.term.cost + scriptCost acts n

/-- What the rest of a round costs. -/
def MasterPc.cost (n : ℕ) : MasterPc → ℕ
  | next | ready => 0
  | acks r _ => 2 + n * (MasterClientCmd.exec r).cost
  | fromClient _ _ | fromSrv _ _ => 1

def Master.rank (m : Master) : ℕ := m.pc.cost m.numClients + scriptCost m.todo m.numClients

def State.rank (s : State) : ℕ := s.master.rank + ∑ j ∈ range s.master.numClients, (s.conn j).rank

variable {acts : List MasterAct} {s s' : State}

/-- A command to all clients, or to all server children, costs the same for each. -/
theorem sum_rank_multicast {f : Conn → Conn} {k : ℕ} (hf : ∀ c, (f c).rank = c.rank + k) :
    ∑ j ∈ range s.master.numClients, (s.multicast f j).rank =
      ∑ j ∈ range s.master.numClients, (s.conn j).rank + s.master.numClients * k := by
  rw [sum_congr rfl fun j hj => by rw [multicast_of_lt s f (mem_range.mp hj), hf]]
  simp [sum_add_distrib]

theorem rank_tellServer (r : Round) (c : Conn) : (c.tellServer r).rank = c.rank + r.cost := by
  simp [Conn.rank, Conn.tellServer, Server.rank]
  omega

theorem rank_tellClient (m : MasterClientCmd) (c : Conn) : (c.tellClient m).rank = c.rank + m.cost := by
  simp [Conn.rank, Conn.tellClient, Client.rank]
  omega

theorem rank_masterStep (hs : s.masterStep = some s') : s'.rank < s.rank := by
  unfold State.masterStep at hs
  split at hs
  next hpc =>
    split at hs
    · simp at hs
    next todo htodo =>
      obtain rfl := Option.some.inj hs
      have hsum := sum_range_update_new s.conn (.create s.master.told.length) Conn.rank s.master.numClients
      have hnew : (Conn.create s.master.told.length).rank = 2 := rfl
      simp only [State.rank, Master.rank, hpc, htodo, MasterPc.cost, scriptCost, hsum, hnew]
      omega
    next r todo htodo =>
      obtain rfl := Option.some.inj hs
      have hsum := sum_rank_multicast (s := s) (rank_tellServer r)
      simp only [State.rank, Master.rank, hpc, htodo, MasterPc.cost, scriptCost, hsum, Nat.mul_add]
      omega
    next todo htodo =>
      obtain rfl := Option.some.inj hs
      have hsum := sum_rank_multicast (s := s) (rank_tellClient .term)
      simp only [State.rank, Master.rank, hpc, htodo, MasterPc.cost, scriptCost, hsum]
      omega
  · simp at hs
  next r i hpc =>
    split at hs
    · simp at hs
    · obtain rfl := Option.some.inj hs
      have hsum := sum_rank_multicast (s := s) (rank_tellClient (.exec r))
      simp only [State.rank, Master.rank, hpc, MasterPc.cost, hsum]
      omega
  next r i hpc =>
    split at hs
    · simp at hs
    · obtain rfl := Option.some.inj hs
      simp only [State.rank, Master.rank, hpc, MasterPc.cost]
      omega
  · simp at hs

/-- One report less is waiting. -/
theorem rank_readClient {c : Conn} {m : ClientMasterCmd} {rest : List ClientMasterCmd}
    (hout : c.client.outbox = m :: rest) : (c.readClient rest).rank < c.rank := by
  simp only [Conn.rank, Conn.readClient, Client.rank, hout, List.length_cons]
  omega

theorem rank_readServer {c : Conn} {m : SrvToMasterCmd} {rest : List SrvToMasterCmd}
    (hout : c.server.outbox = m :: rest) : (c.readServer rest).rank < c.rank := by
  simp only [Conn.rank, Conn.readServer, Server.rank, hout, List.length_cons]
  omega

/-- Reading a report changes nothing in the price of the rest. -/
theorem cost_afterClient {m : Master} {pc : MasterPc} (h : m.afterClient = some pc) (n : ℕ) : pc.cost n = m.pc.cost n := by
  unfold Master.afterClient at h
  split at h
  next hpc =>
    obtain rfl := Option.some.inj h
    rw [hpc]
    rfl
  next hpc =>
    obtain ⟨-, h⟩ := Option.ite_none_right_eq_some.mp h
    obtain rfl := Option.some.inj h
    rw [hpc]
    rfl
  · simp at h

theorem cost_afterSrv {m : Master} {pc : MasterPc} (h : m.afterSrv = some pc) (n : ℕ) : pc.cost n = m.pc.cost n := by
  unfold Master.afterSrv at h
  split at h
  next hpc =>
    obtain ⟨-, h⟩ := Option.ite_none_right_eq_some.mp h
    obtain rfl := Option.some.inj h
    rw [hpc]
    rfl
  next hpc =>
    obtain rfl := Option.some.inj h
    rw [hpc]
    rfl
  · simp at h

/-- A connection changes, and nothing else that has a price. -/
theorem rank_lt_of_conn {i : ℕ} {c' : Conn} {pc : MasterPc} {cmd : UInt32} (hi : i < s.master.numClients)
    (hpc : pc.cost s.master.numClients = s.master.pc.cost s.master.numClients) (hc : c'.rank < (s.conn i).rank) :
    State.rank { master := { s.master with pc := pc, cmd := cmd }, conn := Function.update s.conn i c' } < s.rank := by
  have hsum := sum_range_update_lt hi hc
  simp only [State.rank, Master.rank, hpc]
  omega

/-- **Every step lowers the rank.** -/
theorem rank_step {l : Label} (h : Inv acts s) (hs : smoothStep s l = some s') : s'.rank < s.rank := by
  obtain ⟨hsmooth, hs⟩ := smoothStep_eq_some hs
  cases l with
  | master => exact rank_masterStep (Option.ite_none_right_eq_some.mp hs).2
  | fromClient i =>
    have hread := (Option.ite_none_right_eq_some.mp hs).2
    unfold State.fromClient at hread
    split at hread
    next pc m rest hpc hout =>
      obtain rfl := Option.some.inj hread
      exact rank_lt_of_conn (h.lt_of_client hout) (cost_afterClient hpc _) (rank_readClient hout)
    · simp at hread
  | fromSrv i =>
    have hread := (Option.ite_none_right_eq_some.mp hs).2
    unfold State.fromSrv at hread
    split at hread
    next pc m rest hpc hout =>
      obtain rfl := Option.some.inj hread
      exact rank_lt_of_conn (h.lt_of_server hout) (cost_afterSrv hpc _) (rank_readServer hout)
    · simp at hread
  | dieMaster => simp [State.smooth] at hsmooth
  | conn i a =>
    obtain ⟨c', hact, rfl⟩ := Option.map_eq_some_iff.mp hs
    have hlt := Conn.rank_act hsmooth hact
    have hi : i < s.master.numClients := by
      by_contra hi
      rw [h.unborn i (Nat.not_lt.mp hi)] at hlt
      exact Nat.not_lt_zero _ hlt
    exact rank_lt_of_conn hi rfl hlt

/-! ## The end of the script -/

/-- A client that has been told to terminate. -/
def Client.Ending (c : Client) : Prop := c.pc = .exited ∨ MasterClientCmd.term ∈ c.inbox

/-- The last act of a script, and no other one, tells the clients to terminate. -/
def Closed (acts : List MasterAct) : Prop := ∃ body, acts = body ++ [.term] ∧ MasterAct.term ∉ body

theorem Closed.todo_eq_nil_iff {done todo : List MasterAct} {a : MasterAct} (h : Closed (done ++ a :: todo)) :
    todo = [] ↔ a = .term := by
  obtain ⟨body, hacts, hbody⟩ := h
  constructor
  · rintro rfl
    exact List.singleton_inj.mp (List.append_inj' hacts rfl).2
  · rintro rfl
    by_contra hne
    have hlast : todo = todo.dropLast ++ [todo.getLast hne] := (List.dropLast_append_getLast hne).symm
    rw [hlast, ← List.cons_append, ← List.append_assoc] at hacts
    apply hbody
    rw [← (List.append_inj' hacts rfl).1]
    simp

/-- A client is told to terminate by nobody but the master. -/
theorem Conn.ending_act {c c' : Conn} {a : ConnAct} (hs : c.act a = some c') :
    c'.client.Ending ↔ c.client.Ending := by
  cases Conn.effect hs with
  | ready _ hpc | leave _ hpc | finish _ hpc | await _ hpc => simp [Client.Ending, hpc]
  | term _ hpc hin => simp [Client.Ending, hin]
  | exec _ hpc hin => simp [Client.Ending, hpc, hin]
  | @send r sent _ hpc => by_cases hb : r.bounce = 0 <;> simp [Client.Ending, Conn.put, hpc, hb]
  | cut | recv | accept | ack | serverLeave | serverFinish | echo | echoCut | dieClient | dieServer => rfl

/-- What holds as long as nothing fails: nobody is dead, and the clients have been told to terminate if and only if the
    master is at its end. -/
structure Smooth (acts : List MasterAct) (s : State) : Prop where
  inv : Inv acts s
  alive : s.master.alive = true
  conn : ∀ i < s.master.numClients, (s.conn i).Sound
  ending : ∀ i < s.master.numClients, (s.conn i).client.Ending ↔ s.master.pc = .next ∧ s.master.todo = []
  more : s.master.pc ≠ .next → s.master.todo ≠ []

theorem smooth_start (acts : List MasterAct) : Smooth acts (start acts) :=
  ⟨inv_start acts, rfl, nofun, nofun, fun hpc => absurd rfl hpc⟩

/-- The clients have been told no other rounds than the server children. -/
theorem Inv.execd_prefix (h : Inv acts s) : s.master.execd <+: s.master.told := by
  have hphase := h.phase
  unfold Phase at hphase
  split at hphase
  next => rw [hphase.1]
  next => rw [hphase.1]
  next =>
    rw [hphase.1]
    exact List.prefix_append _ _
  next => rw [hphase.1]
  next => rw [hphase.1]

theorem Inv.told_subset (h : Inv acts s) : s.master.told ⊆ rounds acts := by
  obtain ⟨done, hplace⟩ := h.place
  rw [hplace.script, rounds_append, hplace.told]
  exact List.subset_append_left _ _

theorem Smooth.conn_step {i : ℕ} {a : ConnAct} (h : Smooth acts s) (hp : ∀ r ∈ rounds acts, r.Plain)
    (hw : (s.conn i).whole a = true) (hs : step s (.conn i a) = some s') : Smooth acts s' := by
  have hinv := h.inv.conn_step hs
  obtain ⟨c', hact, rfl⟩ := Option.map_eq_some_iff.mp hs
  refine ⟨hinv, h.alive, ?_, ?_, h.more⟩
  · intro j hj
    by_cases hji : j = i
    · subst hji
      show (Function.update s.conn j c' j).Sound
      rw [Function.update_self]
      exact (h.conn j hj).act (h.inv.conn j hj)
        (fun r hr => hp r (h.inv.told_subset (h.inv.execd_prefix.subset hr))) hw hact
    · show (Function.update s.conn i c' j).Sound
      rw [Function.update_of_ne hji]
      exact h.conn j hj
  · intro j hj
    by_cases hji : j = i
    · subst hji
      show (Function.update s.conn j c' j).client.Ending ↔ _
      rw [Function.update_self]
      exact (Conn.ending_act hact).trans (h.ending j hj)
    · show (Function.update s.conn i c' j).client.Ending ↔ _
      rw [Function.update_of_ne hji]
      exact h.ending j hj

/-- A command to all leaves them sound. -/
theorem Smooth.multicast {f : Conn → Conn} (h : Smooth acts s) (hf : ∀ c : Conn, c.Sound → (f c).Sound) :
    ∀ j < s.master.numClients, (s.multicast f j).Sound := by
  intro j hj
  rw [multicast_of_lt s f hj]
  exact hf _ (h.conn j hj)

theorem sound_tellServer (r : Round) (c : Conn) (h : c.Sound) : (c.tellServer r).Sound :=
  ⟨h.client, h.clientBorn, h.server, h.serverBorn, h.buf, h.octets⟩

theorem sound_tellClient (m : MasterClientCmd) (c : Conn) (h : c.Sound) : (c.tellClient m).Sound :=
  ⟨h.client, h.clientBorn, h.server, h.serverBorn, h.buf, h.octets⟩

theorem Smooth.masterStep (h : Smooth acts s) (hclosed : Closed acts) (hvalid : ∀ r ∈ rounds acts, r.Valid)
    (hs : s.masterStep = some s') : Smooth acts s' := by
  have hinv := h.inv.masterStep hvalid hs
  obtain ⟨done, hplace⟩ := h.inv.place
  unfold State.masterStep at hs
  split at hs
  next hpc =>
    split at hs
    · simp at hs
    next todo htodo =>
      obtain rfl := Option.some.inj hs
      rw [hplace.script, htodo] at hclosed
      have htodo' : todo ≠ [] := fun hnil => by cases hclosed.todo_eq_nil_iff.mp hnil
      refine ⟨hinv, h.alive, ?_, ?_, fun _ => htodo'⟩
      · intro j hj
        rcases Nat.lt_succ_iff_lt_or_eq.mp hj with hlt | rfl
        · show (Function.update s.conn _ _ j).Sound
          rw [Function.update_of_ne (Nat.ne_of_lt hlt)]
          exact h.conn j hlt
        · show (Function.update s.conn _ _ _).Sound
          rw [Function.update_self]
          exact sound_create _
      · intro j hj
        refine iff_of_false ?_ (fun hnext => by simp at hnext)
        rcases Nat.lt_succ_iff_lt_or_eq.mp hj with hlt | rfl
        · show ¬ (Function.update s.conn _ _ j).client.Ending
          rw [Function.update_of_ne (Nat.ne_of_lt hlt), h.ending j hlt, htodo]
          simp
        · show ¬ (Function.update s.conn _ _ _).client.Ending
          rw [Function.update_self]
          simp [Client.Ending, Conn.create]
    next r todo htodo =>
      obtain rfl := Option.some.inj hs
      rw [hplace.script, htodo] at hclosed
      have htodo' : todo ≠ [] := fun hnil => by cases hclosed.todo_eq_nil_iff.mp hnil
      refine ⟨hinv, h.alive, h.multicast (sound_tellServer r), ?_, fun _ => htodo'⟩
      intro j hj
      refine iff_of_false ?_ (fun hnext => by simp at hnext)
      show ¬ (s.multicast _ j).client.Ending
      rw [multicast_of_lt s _ hj]
      show ¬ (s.conn j).client.Ending
      rw [h.ending j hj, htodo]
      simp
    next todo htodo =>
      obtain rfl := Option.some.inj hs
      rw [hplace.script, htodo] at hclosed
      have htodo' : todo = [] := hclosed.todo_eq_nil_iff.mpr rfl
      refine ⟨hinv, h.alive, h.multicast (sound_tellClient .term), ?_, fun hne => absurd hpc hne⟩
      intro j hj
      refine iff_of_true ?_ ⟨hpc, htodo'⟩
      show (s.multicast _ j).client.Ending
      rw [multicast_of_lt s _ hj]
      exact .inr (List.mem_append_right _ (List.mem_singleton_self _))
  · simp at hs
  next r i hpc =>
    split at hs
    · simp at hs
    · obtain rfl := Option.some.inj hs
      refine ⟨hinv, h.alive, h.multicast (sound_tellClient (.exec r)), ?_, fun _ => h.more (by simp [hpc])⟩
      intro j hj
      refine iff_of_false ?_ (fun hnext => by simp at hnext)
      have hnot : ¬ (s.conn j).client.Ending := by
        rw [h.ending j hj, hpc]
        simp
      show ¬ (s.multicast _ j).client.Ending
      rw [multicast_of_lt s _ hj]
      simpa [Client.Ending, Conn.tellClient] using hnot
  next r i hpc =>
    split at hs
    · simp at hs
    · obtain rfl := Option.some.inj hs
      have hmore : s.master.todo ≠ [] := h.more (by simp [hpc])
      refine ⟨hinv, h.alive, h.conn, ?_, fun _ => hmore⟩
      intro j hj
      rw [h.ending j hj, hpc]
      exact iff_of_false (by simp) fun hnext => hmore hnext.2
  · simp at hs

/-- A report is read: the master is not at its end, neither before nor after. -/
theorem Smooth.read {i : ℕ} {c' : Conn} {pc : MasterPc} {cmd : UInt32} (h : Smooth acts s)
    (hinv : Inv acts { master := { s.master with pc := pc, cmd := cmd }, conn := Function.update s.conn i c' })
    (hpc : s.master.pc ≠ .next) (hsound : (s.conn i).Sound → c'.Sound)
    (hending : c'.client.Ending ↔ (s.conn i).client.Ending) :
    Smooth acts { master := { s.master with pc := pc, cmd := cmd }, conn := Function.update s.conn i c' } := by
  have hmore := h.more hpc
  refine ⟨hinv, h.alive, forall_lt_update Conn.Sound h.conn hsound, ?_, fun _ => hmore⟩
  intro j hj
  refine iff_of_false ?_ fun hnext => hmore hnext.2
  have hnot : ∀ j < s.master.numClients, ¬ (s.conn j).client.Ending := fun j hj hend => hpc ((h.ending j hj).mp hend).1
  exact forall_lt_update (fun c : Conn => ¬ c.client.Ending) hnot (fun hi => mt hending.mp hi) j hj

theorem Master.pc_ne_of_afterClient {m : Master} {pc : MasterPc} (h : m.afterClient = some pc) : m.pc ≠ .next := by
  intro hpc
  simp [Master.afterClient, hpc] at h

theorem Master.pc_ne_of_afterSrv {m : Master} {pc : MasterPc} (h : m.afterSrv = some pc) : m.pc ≠ .next := by
  intro hpc
  simp [Master.afterSrv, hpc] at h

/-- **Every step in which nothing fails keeps it.** -/
theorem Smooth.step {l : Label} (hclosed : Closed acts) (hp : ∀ r ∈ rounds acts, r.Plain) (h : Smooth acts s)
    (hs : smoothStep s l = some s') : Smooth acts s' := by
  obtain ⟨hsmooth, hs⟩ := smoothStep_eq_some hs
  have hvalid : ∀ r ∈ rounds acts, r.Valid := fun r hr => (hp r hr).valid
  cases l with
  | master => exact h.masterStep hclosed hvalid (Option.ite_none_right_eq_some.mp hs).2
  | fromClient i =>
    have hinv := h.inv.step hvalid hs
    have hread := (Option.ite_none_right_eq_some.mp hs).2
    unfold State.fromClient at hread
    split at hread
    next pc m rest hpc hout =>
      obtain rfl := Option.some.inj hread
      refine h.read hinv (Master.pc_ne_of_afterClient hpc) ?_ Iff.rfl
      exact fun hc => ⟨hc.client, hc.clientBorn, hc.server, hc.serverBorn, hc.buf, hc.octets⟩
    · simp at hread
  | fromSrv i =>
    have hinv := h.inv.step hvalid hs
    have hread := (Option.ite_none_right_eq_some.mp hs).2
    unfold State.fromSrv at hread
    split at hread
    next pc m rest hpc hout =>
      obtain rfl := Option.some.inj hread
      refine h.read hinv (Master.pc_ne_of_afterSrv hpc) ?_ Iff.rfl
      exact fun hc => ⟨hc.client, hc.clientBorn, hc.server, hc.serverBorn, hc.buf, hc.octets⟩
    · simp at hread
  | dieMaster => simp [State.smooth] at hsmooth
  | conn i a => exact h.conn_step hp hsmooth hs

/-! ## Where no step is left -/

/-- A connection that cannot go on. -/
theorem conn_stuck (hstuck : ∀ l, smoothStep s l = none) (j : ℕ) :
    ∀ a, (s.conn j).whole a = true → (s.conn j).act a = none := by
  intro a ha
  have hl := hstuck (.conn j a)
  simpa [smoothStep, State.smooth, ha, Benchmark.step] using hl

/-- A report that waits can be read if the master waits for one. -/
theorem client_outbox_nil {pc : MasterPc} (hstuck : ∀ l, smoothStep s l = none) (ha : s.master.alive = true)
    (hpc : s.master.afterClient = some pc) (j : ℕ) : (s.conn j).client.outbox = [] := by
  cases hout : (s.conn j).client.outbox with
  | nil => rfl
  | cons m rest =>
    have hl := hstuck (.fromClient j)
    simp [smoothStep, State.smooth, Benchmark.step, ha, State.fromClient, hpc, hout] at hl

theorem server_outbox_nil {pc : MasterPc} (hstuck : ∀ l, smoothStep s l = none) (ha : s.master.alive = true)
    (hpc : s.master.afterSrv = some pc) (j : ℕ) : (s.conn j).server.outbox = [] := by
  cases hout : (s.conn j).server.outbox with
  | nil => rfl
  | cons m rest =>
    have hl := hstuck (.fromSrv j)
    simp [smoothStep, State.smooth, Benchmark.step, ha, State.fromSrv, hpc, hout] at hl

/-- A client that has come to rest has reported all that it has been told. -/
theorem Smooth.clientCount {j : ℕ} (h : Smooth acts s) (hp : ∀ r ∈ rounds acts, r.Plain)
    (hstuck : ∀ l, smoothStep s l = none) (hpc : s.master.pc ≠ .next) (hj : j < s.master.numClients)
    (hout : (s.conn j).client.outbox = []) : (s.conn j).clientCount = s.master.execd.length + 1 := by
  have hinv := h.inv.conn j hj
  have hexit : (s.conn j).client.pc ≠ .exited := fun hexit => hpc ((h.ending j hj).mp (.inl hexit)).1
  obtain ⟨hexec, hwait, -⟩ := Conn.settled hinv h.inv.execd_prefix (h.conn j hj)
    (fun r hr => hp r (h.inv.told_subset hr)) hexit (conn_stuck hstuck j)
  have hrep := hinv.client.reports
  have hborn := hinv.born
  rw [hout, Client.reports, hexec, hwait, List.length_drop] at hrep
  simp only [List.length_nil, ClientPc.starting, Bool.false_eq_true, if_false] at hrep
  rw [Conn.clientCount]
  omega

/-- A server child that has come to rest has reported all that it has been told, or it has acknowledged a round of which
    its client has not been told. -/
theorem Smooth.serverCount {j : ℕ} (h : Smooth acts s) (hp : ∀ r ∈ rounds acts, r.Plain)
    (hstuck : ∀ l, smoothStep s l = none) (hpc : s.master.pc ≠ .next) (hj : j < s.master.numClients)
    (hout : (s.conn j).server.outbox = []) :
    (s.conn j).serverCount = 2 * s.master.told.length ∨
      (s.conn j).serverCount = 2 * s.master.execd.length + 1 ∧ s.master.execd ≠ s.master.told := by
  have hinv := h.inv.conn j hj
  have hexit : (s.conn j).client.pc ≠ .exited := fun hexit => hpc ((h.ending j hj).mp (.inl hexit)).1
  obtain ⟨-, -, hserver⟩ := Conn.settled hinv h.inv.execd_prefix (h.conn j hj)
    (fun r hr => hp r (h.inv.told_subset hr)) hexit (conn_stuck hstuck j)
  have hrep := hinv.server.reports
  have hborn := hinv.born
  have hle := h.inv.execd_prefix.length_le
  rw [hout, Server.reports, List.length_nil] at hrep
  rcases hserver with ⟨hserved, hwait⟩ | ⟨hserved, hacked⟩
  · left
    rw [hserved, hwait, List.length_drop] at hrep
    simp only [ServerPc.acked, Bool.false_eq_true, if_false] at hrep
    rw [Conn.serverCount]
    omega
  · right
    constructor
    · rw [hserved, hacked, List.length_drop] at hrep
      simp only [if_true] at hrep
      rw [Conn.serverCount]
      omega
    · intro heq
      have hlog := congrArg List.length hinv.server.log
      have hcur := ServerPc.length_current_of_acked hacked
      rw [hserved, heq] at hlog
      simp only [List.length_append, List.length_drop] at hlog
      omega

/-- **No deadlock.** A state in which nothing has failed and no step is left is at the end of the script. -/
theorem Smooth.at_end (h : Smooth acts s) (hp : ∀ r ∈ rounds acts, r.Plain) (hstuck : ∀ l, smoothStep s l = none) :
    s.master.pc = .next ∧ s.master.todo = [] := by
  have hmaster : s.masterStep = none := by
    have hl := hstuck .master
    simpa [smoothStep, State.smooth, Benchmark.step, h.alive] using hl
  unfold State.masterStep at hmaster
  have hphase := h.inv.phase
  unfold Phase at hphase
  cases hpc : s.master.pc with
  | next =>
    refine ⟨rfl, ?_⟩
    rw [hpc] at hmaster
    cases htodo : s.master.todo with
    | nil => rfl
    | cons a todo => cases a <;> simp [htodo] at hmaster
  | ready =>
    rw [hpc] at hphase
    obtain ⟨hexec, n, hn, -, hfresh⟩ := hphase
    have hafter : s.master.afterClient = some .next := by rw [Master.afterClient, hpc]
    have hnil := client_outbox_nil hstuck h.alive hafter n
    have hcount := h.clientCount hp hstuck (by simp [hpc]) (by omega) hnil
    rw [Conn.clientCount, hfresh.client, hfresh.born, hexec] at hcount
    omega
  | acks r i =>
    rw [hpc] at hphase hmaster
    obtain ⟨htold, -, -, hsum⟩ := hphase
    have hi : i < s.master.numClients := by simpa using hmaster
    obtain ⟨j, hj, hle⟩ := exists_le_of_sum_range hsum hi
    have hafter : s.master.afterSrv = some (.acks r (i + 1)) := by simp [Master.afterSrv, hpc, hi]
    have hnil := server_outbox_nil hstuck h.alive hafter j
    have hlen : s.master.told.length = s.master.execd.length + 1 := by rw [htold]; simp
    rcases h.serverCount hp hstuck (by simp [hpc]) hj hnil with hcount | ⟨hcount, -⟩ <;> omega
  | fromClient r i =>
    rw [hpc] at hphase hmaster
    obtain ⟨hexec, -, l, htold, -, hsum, -⟩ := hphase
    have hi : i < s.master.numClients := by simpa using hmaster
    obtain ⟨j, hj, hle⟩ := exists_le_of_sum_range hsum hi
    have hafter : s.master.afterClient = some (.fromSrv r i) := by simp [Master.afterClient, hpc, hi]
    have hnil := client_outbox_nil hstuck h.alive hafter j
    have hlen : s.master.execd.length = l.length + 1 := by rw [hexec, htold]; simp
    have hcount := h.clientCount hp hstuck (by simp [hpc]) hj hnil
    omega
  | fromSrv r i =>
    rw [hpc] at hphase
    obtain ⟨hexec, hi, l, htold, -, -, hsum⟩ := hphase
    obtain ⟨j, hj, hle⟩ := exists_le_of_sum_range hsum hi
    have hafter : s.master.afterSrv = some (.fromClient r (i + 1)) := by rw [Master.afterSrv, hpc]
    have hnil := server_outbox_nil hstuck h.alive hafter j
    have hlen : s.master.told.length = l.length + 1 := by rw [htold]; simp
    rcases h.serverCount hp hstuck (by simp [hpc]) hj hnil with hcount | ⟨-, hne⟩
    · omega
    · exact absurd hexec hne

/-! ## Completion -/

/-- The master has done its script, all clients have exited, and each of them and its server child have done all rounds
    since the client was created, with nothing left between anybody. -/
structure Completed (acts : List MasterAct) (s : State) : Prop where
  master : s.master.pc = .next ∧ s.master.todo = []
  told : s.master.told = rounds acts
  numClients : s.master.numClients = creates acts
  exited : ∀ i < creates acts, (s.conn i).client.pc = .exited
  serving : ∀ i < creates acts, (s.conn i).server.pc = .wait ∧ (s.conn i).server.alive = true
  executed : ∀ i < creates acts, (s.conn i).client.executed = (rounds acts).drop (bornAt acts i)
  received : ∀ i < creates acts, (s.conn i).server.received = messages ((rounds acts).drop (bornAt acts i))
  drained : ∀ i < creates acts, (s.conn i).stream = [] ∧ (s.conn i).echoes = [] ∧
    (s.conn i).client.outbox = [] ∧ (s.conn i).server.outbox = []

/-- A client that has been told to terminate, and has nothing left to do, has exited. -/
theorem Smooth.exited {j : ℕ} (h : Smooth acts s) (hp : ∀ r ∈ rounds acts, r.Plain)
    (hstuck : ∀ l, smoothStep s l = none) (hend : s.master.pc = .next ∧ s.master.todo = [])
    (hj : j < s.master.numClients) (hcur : (s.conn j).client.pc.current = []) : (s.conn j).client.pc = .exited := by
  rcases (h.ending j hj).mpr hend with hexit | hterm
  · exact hexit
  · by_contra hexit
    have hexecd : ∀ r ∈ s.master.execd, r.Plain := fun r hr => hp r (h.inv.told_subset (h.inv.execd_prefix.subset hr))
    rcases (h.conn j hj).client_rests (h.inv.conn j hj) hexecd hexit (conn_stuck hstuck j) with
      ⟨-, hnil⟩ | ⟨r, sent, hpc, -⟩
    · rw [hnil] at hterm
      cases hterm
    · rw [hpc] at hcur
      cases hcur

theorem Smooth.completed (h : Smooth acts s) (hp : ∀ r ∈ rounds acts, r.Plain)
    (hstuck : ∀ l, smoothStep s l = none) : Completed acts s := by
  have hend := h.at_end hp hstuck
  have hvalid : ∀ r ∈ rounds acts, r.Valid := fun r hr => (hp r hr).valid
  obtain ⟨done, hplace⟩ := h.inv.place
  have hdone : acts = done := by rw [hplace.script, hend.2, List.append_nil]
  subst hdone
  have hphase := h.inv.phase
  rw [Phase, hend.1] at hphase
  obtain ⟨hexecd, hall⟩ := hphase
  -- both have done everything
  have hboth (i : ℕ) (hi : i < creates acts) : (s.conn i).client.pc.current = [] ∧
      (s.conn i).server.served = (rounds acts).drop (bornAt acts i) ∧ (s.conn i).server.pc.current = [] := by
    rw [hplace.numClients] at hi
    have hinv := h.inv.conn i hi
    have hborn := hinv.born
    have hrep := hinv.server.reports
    have hread := (hall i hi).server
    rw [hexecd] at hborn
    rw [Conn.serverCount] at hread
    obtain ⟨hserved, hcur⟩ := hinv.server.done (by rw [List.length_drop]; omega)
    refine ⟨(hinv.done (hexecd ▸ (hall i hi).client)).2.1, ?_, hcur⟩
    rw [hserved, hplace.told, hplace.born i hi]
  refine ⟨hend, hplace.told.symm, hplace.numClients.symm, ?_, ?_, ?_, ?_, ?_⟩
  · intro i hi
    exact h.exited hp hstuck hend (hplace.numClients ▸ hi) (hboth i hi).1
  · intro i hi
    have hsound := h.conn i (hplace.numClients ▸ hi)
    refine ⟨?_, hsound.server⟩
    have hcur := (hboth i hi).2.2
    cases hpc : (s.conn i).server.pc with
    | unborn => exact absurd hpc hsound.serverBorn
    | wait => rfl
    | ack r | recv r rcvd | echo r rcvd | report r => simp [hpc, ServerPc.current] at hcur
  · intro i hi
    rw [hplace.numClients] at hi
    rw [(h.inv.barrier hvalid hend.1 hi).1, ← hplace.told, hplace.born i hi]
  · intro i hi
    rw [hplace.numClients] at hi
    rw [(h.inv.barrier hvalid hend.1 hi).2.2.1, ← hplace.told, hplace.born i hi]
  · intro i hi
    obtain ⟨hcur, hserved, hscur⟩ := hboth i hi
    rw [hplace.numClients] at hi
    obtain ⟨hexec, -, -, hstream, hcout, hsout⟩ := h.inv.barrier hvalid hend.1 hi
    refine ⟨hstream, ?_, hcout, hsout⟩
    have hoct := (h.conn i hi).octets
    rw [hexec, hserved, ← hplace.told, hplace.born i hi] at hoct
    apply List.eq_nil_of_length_eq_zero
    have hcl : (s.conn i).client.pc.awaits = 0 := by
      cases hpc : (s.conn i).client.pc <;> simp [hpc, ClientPc.current] at hcur <;> rfl
    have hsv : (s.conn i).server.pc.taken = 0 := by
      cases hpc : (s.conn i).server.pc <;> simp [hpc, ServerPc.current] at hscur <;> rfl
    omega

/-- The benchmark completes: all its interleavings are finite, nobody dies, and where no step is left everything is done. -/
structure Completes (acts : List MasterAct) : Prop where
  ends : ∃ n, ∀ ls s, Lts.exec smoothStep (start acts) ls = some s → ls.length ≤ n
  alive : ∀ ls s, Lts.exec smoothStep (start acts) ls = some s → s.master.alive = true ∧
    ∀ i < s.master.numClients, ((s.conn i).client.alive = true ∨ (s.conn i).client.pc = .exited) ∧
      (s.conn i).server.alive = true
  done : ∀ ls s, Lts.exec smoothStep (start acts) ls = some s → (∀ l, smoothStep s l = none) → Completed acts s

theorem smooth_ends (hvalid : ∀ r ∈ rounds acts, r.Valid) {ls : List Label}
    (hrun : Lts.exec smoothStep (start acts) ls = some s) : ls.length ≤ (start acts).rank := by
  have hstep (s : State) (l : Label) (s' : State) (h : Inv acts s) (hs : smoothStep s l = some s') :
      Inv acts s' ∧ s'.rank < s.rank := ⟨h.step hvalid (smoothStep_eq_some hs).2, rank_step h hs⟩
  exact Nat.le_of_add_right_le (Lts.exec_rank hstep (inv_start acts) hrun)

theorem completes_of_plain (hclosed : Closed acts) (hp : ∀ r ∈ rounds acts, r.Plain) : Completes acts := by
  have hsmooth {ls : List Label} {s : State} (hrun : Lts.exec smoothStep (start acts) ls = some s) : Smooth acts s :=
    (Lts.reach_of_exec hrun).inv (smooth_start acts) fun _ _ _ h hs => h.step hclosed hp hs
  constructor
  · exact ⟨_, fun ls s hrun => smooth_ends (fun r hr => (hp r hr).valid) hrun⟩
  · intro ls s hrun
    have h := hsmooth hrun
    exact ⟨h.alive, fun i hi => ⟨(h.conn i hi).client, (h.conn i hi).server⟩⟩
  · intro ls s hrun hstuck
    exact (hsmooth hrun).completed hp hstuck

/-- The first client does all rounds, so each of them has a length that it takes for what it is. -/
theorem Completes.lengths {rest : List MasterAct} (h : Completes (.create :: rest))
    (hvalid : ∀ r ∈ rounds (.create :: rest), r.Valid) :
    ∀ r ∈ rounds (.create :: rest), 0 < r.len ∧ r.len < 2 ^ 31 := by
  obtain ⟨n, hends⟩ := h.ends
  obtain ⟨ls, s, hrun, hstuck⟩ := Lts.exists_exec_stuck hends
  have hdone := h.done ls s hrun hstuck
  have hinv : Inv (.create :: rest) s := (Lts.reach_of_exec hrun).inv (inv_start _) fun _ _ _ h hs =>
    h.step hvalid (smoothStep_eq_some hs).2
  have hfirst : 0 < creates (.create :: rest) := List.count_pos_iff.mpr List.mem_cons_self
  have hconn := hinv.conn 0 (hdone.numClients ▸ hfirst)
  have hexec : (s.conn 0).client.executed = rounds (.create :: rest) := hdone.executed 0 hfirst
  have hrecv : (s.conn 0).server.received = messages (rounds (.create :: rest)) := hdone.received 0 hfirst
  have hcur : (s.conn 0).client.pc.current = [] := by rw [hdone.exited 0 hfirst]; rfl
  -- as many octets are written as are received
  have hoctets : serverOctets (rounds (.create :: rest)) = clientOctets (rounds (.create :: rest)) := by
    have hflow := congrArg List.length hconn.flow
    rw [(hdone.drained 0 hfirst).1, List.append_nil, hrecv, hconn.written_length hcur, hexec] at hflow
    exact (length_flatten_messagesOf _ _ _).symm.trans hflow
  intro r hr
  have hpos : 0 < r.len := Nat.pos_of_ne_zero (UInt32.toNat_ne_zero (hconn.client.nonzero r (hexec ▸ hr)))
  refine ⟨hpos, ?_⟩
  by_contra hlarge
  have heq := clientOctets_eq (Nat.le_of_eq hoctets) r hr
  have hlen : r.clientLen = 0 := Int.toNat_of_nonpos (Int.le_of_lt (asInt_neg hlarge))
  rw [hlen, Nat.mul_zero] at heq
  have hcnt := Nat.mul_pos (hvalid r hr).1 hpos
  exact Nat.ne_of_lt hcnt heq

theorem closed_mainActs (latency : Option (List Round)) (n : ℕ) (thruput : Option (List Round)) :
    Closed (mainActs latency n thruput) := by
  refine ⟨_, rfl, ?_⟩
  cases latency <;> cases thruput <;> simp

/-- Where there are rounds, a client is created before them. -/
theorem mainActs_eq_create {latency : Option (List Round)} {n : ℕ} {thruput : Option (List Round)} (hn : 1 ≤ n)
    (hrounds : rounds (mainActs latency n thruput) ≠ []) :
    ∃ rest, mainActs latency n thruput = .create :: rest := by
  cases latency with
  | some lat => exact ⟨_, rfl⟩
  | none =>
    cases thruput with
    | none => exact absurd rfl hrounds
    | some thru =>
      obtain ⟨m, rfl⟩ : ∃ m, n = m + 1 := ⟨n - 1, by omega⟩
      exact ⟨_, rfl⟩

end Benchmark
end Tipcutils
