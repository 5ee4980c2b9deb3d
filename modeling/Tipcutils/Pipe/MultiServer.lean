import Mathlib.Data.List.Basic
import Tipcutils.Lib.Files
import Tipcutils.Lib.Lts

/-!
# `Pipe.MultiServer` — `tipc-pipe -l`

With `-l`, `listen_accept_and_io` accepts connections for ever and forks a child for each, which runs `data_io` on it. The
server keeps its own descriptor of the connection, and reports an `accept` that fails but does not look at it: the child
then runs with the descriptor -1.

**`multiServer`** says what comes of this in every run. A connection that was accepted takes up a descriptor for ever, so a
server accepts no more connections in its life than it had descriptors left; they are served in order, by one child each at
most. The peer sees the end of its connection if and only if the child has come back from `data_io` and has shut it down:
that the child has ended is not enough. And a server without a descriptor left forks as fast as it can.

The connections are numbered in the order in which the clients ask for them. Not modelled: what `data_io` does (it returns,
or it ends the process), and the socket pair of `--tee`, which is the child's own.
-/

namespace Tipcutils
namespace Pipe
namespace MultiServer

open Lts

/-- What a descriptor refers to: the server's end of a connection, or what was open before the loop. -/
inductive File where
  | conn (c : ℕ)
  | other
deriving DecidableEq

/-- The next call of a child, or how it has ended. -/
inductive ChildPc where
  | dataIo
  | shutdown
  | close
  | exit
  | exited
  | died
deriving DecidableEq

/-- `shutdown` has been called. -/
def ChildPc.Shut (pc : ChildPc) : Prop := pc ∈ [ChildPc.close, .exit, .exited]

instance (pc : ChildPc) : Decidable pc.Shut := inferInstanceAs (Decidable (pc ∈ _))

structure Child where
  pc : ChildPc
  peerSd : ℤ
  files : Files File

/-- What a child does: `data_io` returns, or ends the process, or the next call behind it is made. -/
inductive ChildLabel where
  | returns
  | dies
  | call
deriving DecidableEq

def Child.step (ch : Child) : ChildLabel → Option Child
  | .returns =>
    match ch.pc with
    | .dataIo => some { ch with pc := .shutdown }
    | _ => none
  | .dies =>
    match ch.pc with
    | .dataIo => some { ch with pc := .died, files := .none }
    | _ => none
  | .call =>
    match ch.pc with
    | .shutdown => some { ch with pc := .close }
    | .close => some { ch with pc := .exit, files := ch.files.close ch.peerSd }
    | .exit => some { ch with pc := .exited, files := .none }
    | _ => none

/-- The connection that a child's step shuts down. -/
def Child.shuts (ch : Child) (l : ChildLabel) : List ℕ :=
  match l, ch.pc, ch.files.get ch.peerSd with
  | .call, .shutdown, some (.conn c) => [c]
  | _, _, _ => []

/-- The next call of the server. -/
inductive Pc where
  | accept
  | fork
deriving DecidableEq

structure State where
  pc : Pc
  peerSd : ℤ
  files : Files File
  /-- how many connections the clients have asked for -/
  asked : ℕ
  accepted : ℕ
  children : List Child
  /-- the connections that have been shut down -/
  shut : List ℕ

/-- A client asks for a connection, `accept` or `fork` succeeds or fails, or a child does something. -/
inductive Label where
  | connect
  | accept (ok : Bool)
  | fork (ok : Bool)
  | child (i : ℕ) (l : ChildLabel)
deriving DecidableEq

def start (files : Files File) : State := ⟨.accept, 0, files, 0, 0, [], []⟩

variable (limit : ℕ)

def step (s : State) : Label → Option State
  | .connect => some { s with asked := s.asked + 1 }
  | .accept ok =>
    match s.pc with
    | .accept =>
      -- a descriptor is taken before a connection is waited for
      if limit ≤ s.files.next ∨ ok = false then some { s with pc := .fork, peerSd := -1 }
      else if s.accepted < s.asked then
        some { s with
          pc := .fork
          peerSd := s.files.next
          files := s.files.opened (.conn s.accepted)
          accepted := s.accepted + 1 }
      else none
    | .fork => none
  | .fork ok =>
    match s.pc with
    | .fork =>
      let born := if ok then [⟨.dataIo, s.peerSd, s.files⟩] else []
      -- the server does not close `peer_sd`
      some { s with pc := .accept, children := s.children ++ born }
    | .accept => none
  | .child i l =>
    match s.children[i]? with
    | some ch => (ch.step l).map fun ch' => { s with children := s.children.set i ch', shut := s.shut ++ ch.shuts l }
    | none => none

/-! ## What a run is asked about -/

/-- The peer of connection `c` sees its end: it has been shut down, or no process has it open any more. -/
def State.HangsUp (s : State) (c : ℕ) : Prop :=
  c ∈ s.shut ∨ ¬ s.files.Holds (.conn c) ∧ ∀ ch ∈ s.children, ¬ ch.files.Holds (.conn c)

/-- The connections that the children were forked for, in the order of the children. -/
def State.served (s : State) : List File := (s.children.map Child.peerSd).filterMap s.files.get

/-- The connection that has been accepted and has no child yet. -/
def State.current (s : State) : Option File := if s.pc = .fork then s.files.get s.peerSd else none

/-- The child of connection `c` has shut it down. -/
def State.ShutByChild (s : State) (c : ℕ) : Prop :=
  ∃ ch ∈ s.children, ch.pc.Shut ∧ s.files.get ch.peerSd = some (.conn c)

/-- Rounds of the server with nothing else going on; every `fork` succeeds. -/
def rounds (oks : List Bool) : List Label := oks.flatMap fun ok => [.accept ok, .fork true]

/-- The child that is forked where `accept` has failed. -/
def orphan (files : Files File) : Child := ⟨.dataIo, -1, files⟩

/-! ## Single steps -/

variable {limit} {s s' : State}

/-- What a step of the server does. -/
inductive Moves (limit : ℕ) (s s' : State) : Label → Prop where
  | connect : s' = { s with asked := s.asked + 1 } → Moves limit s s' .connect
  | fails (ok : Bool) : s.pc = .accept → s' = { s with pc := .fork, peerSd := -1 } → Moves limit s s' (.accept ok)
  | accepts : s.pc = .accept → s.files.next < limit → s.accepted < s.asked →
      s' = { s with
        pc := .fork
        peerSd := s.files.next
        files := s.files.opened (.conn s.accepted)
        accepted := s.accepted + 1 } → Moves limit s s' (.accept true)
  | fork (ok : Bool) : s.pc = .fork →
      s' = { s with pc := .accept, children := s.children ++ if ok then [⟨.dataIo, s.peerSd, s.files⟩] else [] } →
      Moves limit s s' (.fork ok)
  | child (i : ℕ) (l : ChildLabel) (ch ch' : Child) : s.children[i]? = some ch → ch.step l = some ch' →
      s' = { s with children := s.children.set i ch', shut := s.shut ++ ch.shuts l } → Moves limit s s' (.child i l)

theorem moves {l : Label} (h : step limit s l = some s') : Moves limit s s' l := by
  cases l with
  | connect => exact .connect (Option.some.inj h).symm
  | accept ok =>
    cases hpc : s.pc with
    | fork => simp [step, hpc] at h
    | accept =>
      simp only [step, hpc] at h
      split at h
      · exact .fails ok hpc (Option.some.inj h).symm
      next hgoes =>
        rw [not_or, Nat.not_le, Bool.not_eq_false] at hgoes
        obtain ⟨hlt, rfl⟩ := hgoes
        split at h
        next hasked =>
          exact .accepts hpc hlt hasked (Option.some.inj h).symm
        · simp at h
  | fork ok =>
    cases hpc : s.pc with
    | accept => simp [step, hpc] at h
    | fork =>
      simp only [step, hpc] at h
      exact .fork ok hpc (Option.some.inj h).symm
  | child i l =>
    simp only [step] at h
    split at h
    next ch hch =>
      obtain ⟨ch', hstep, heq⟩ := Option.map_eq_some_iff.mp h
      exact .child i l ch ch' hch hstep heq.symm
    · simp at h

/-- What a step of a child does: it keeps its `peer_sd`, and shuts a connection down by the one call. -/
theorem Child.step_cases {ch ch' : Child} {l : ChildLabel} (h : ch.step l = some ch') :
    ch'.peerSd = ch.peerSd ∧
      (ch.pc = .shutdown ∧ l = .call ∧ ch' = { ch with pc := .close } ∨
        ch.shuts l = [] ∧ (ch'.pc.Shut ↔ ch.pc.Shut) ∧
          (ch'.pc = .dataIo ∨ ch'.pc = .shutdown → ch.pc = .dataIo ∧ ch'.files = ch.files)) := by
  obtain ⟨pc, d, f⟩ := ch
  cases l <;> cases pc <;> simp [Child.step] at h <;> subst h <;> simp [Child.shuts, ChildPc.Shut]

theorem Child.mem_shuts (ch : Child) (h : ch.pc = .shutdown) (c : ℕ) :
    c ∈ ch.shuts .call ↔ ch.files.get ch.peerSd = some (.conn c) := by
  obtain ⟨pc, d, f⟩ := ch
  obtain rfl : pc = .shutdown := h
  simp only [Child.shuts]
  cases f.get d with
  | none => simp
  | some a => cases a <;> simp [eq_comm]

/-! ## The invariant -/

/-- A descriptor that the server has handed to a child: -1, or one that is open. -/
def State.Handed (s : State) (d : ℤ) : Prop := d = -1 ∨ ∃ c, s.files.get d = some (.conn c)

/-- What holds in every reachable state of a server that has started with the descriptors `f`. -/
structure Inv (limit : ℕ) (f : Files File) (s : State) : Prop where
  size : s.files.entries.length = f.entries.length + s.accepted
  bound : ∀ n ∈ s.files.numbers, n < limit
  held : ∀ c < s.accepted, s.files.Holds (.conn c)
  served : (s.served ++ s.current.toList).Sublist ((List.range s.accepted).map File.conn)
  handed : ∀ d ∈ s.children.map Child.peerSd, s.Handed d
  current : s.pc = .fork → s.Handed s.peerSd
  /-- a child has its connection until it closes it -/
  own : ∀ ch ∈ s.children, ch.pc = .dataIo ∨ ch.pc = .shutdown → ch.files.get ch.peerSd = s.files.get ch.peerSd
  shut : ∀ c, c ∈ s.shut ↔ s.ShutByChild c

/-- What has been handed out is not disturbed by a new descriptor. -/
theorem get_opened_of_handed {d : ℤ} (h : s.Handed d) (a : File) : (s.files.opened a).get d = s.files.get d := by
  obtain rfl | ⟨c, hc⟩ := h
  · rw [Files.get_of_neg _ (by decide), Files.get_of_neg _ (by decide)]
  · rw [Files.get_opened_of_get hc, hc]

theorem inv_start {f : Files File} (h : ∀ n ∈ f.numbers, n < limit) : Inv limit f (start f) where
  size := rfl
  bound := h
  held := by simp [start]
  served := by simp [start, State.served, State.current]
  handed := by simp [start]
  current := by simp [start]
  own := by simp [start]
  shut := by simp [start, State.ShutByChild]

namespace Inv

variable {f : Files File} (hinv : Inv limit f s)
include hinv

theorem connect : Inv limit f { s with asked := s.asked + 1 } :=
  ⟨hinv.size, hinv.bound, hinv.held, hinv.served, hinv.handed, hinv.current, hinv.own, hinv.shut⟩

theorem fails : Inv limit f { s with pc := .fork, peerSd := -1 } where
  size := hinv.size
  bound := hinv.bound
  held := hinv.held
  served := by
    have hnone : s.files.get (-1) = none := Files.get_of_neg _ (by decide)
    have hsub := (List.sublist_append_left s.served s.current.toList).trans hinv.served
    show (s.served ++ Option.toList (s.files.get (-1))).Sublist _
    rw [hnone, Option.toList_none, List.append_nil]
    exact hsub
  handed := hinv.handed
  current := fun _ => .inl rfl
  own := hinv.own
  shut := hinv.shut

theorem accepts (hpc : s.pc = .accept) (hlt : s.files.next < limit) :
    Inv limit f { s with
      pc := .fork
      peerSd := s.files.next
      files := s.files.opened (.conn s.accepted)
      accepted := s.accepted + 1 } where
  size := by
    show s.files.entries.length + 1 = _
    rw [hinv.size]
    exact Nat.add_assoc _ _ _
  bound := Files.lt_opened hinv.bound hlt _
  held := by
    intro c hc
    rw [Files.holds_opened]
    rcases Nat.lt_succ_iff_lt_or_eq.mp hc with hc | rfl
    · exact .inr (hinv.held c hc)
    · exact .inl rfl
  served := by
    have hsame : (s.children.map Child.peerSd).filterMap (s.files.opened (.conn s.accepted)).get = s.served :=
      List.filterMap_congr fun d hd => get_opened_of_handed (hinv.handed d hd) _
    have hsub : s.served.Sublist ((List.range s.accepted).map File.conn) := by
      simpa [State.current, hpc] using hinv.served
    show (_ ++ Option.toList (s.files.opened (.conn s.accepted) |>.get s.files.next)).Sublist _
    rw [State.served, hsame, Files.get_next_opened, List.range_succ, List.map_append]
    exact hsub.append (List.Sublist.refl _)
  handed := by
    intro d hd
    rcases hinv.handed d hd with rfl | ⟨c, hc⟩
    · exact .inl rfl
    · exact .inr ⟨c, Files.get_opened_of_get hc _⟩
  current := fun _ => .inr ⟨s.accepted, Files.get_next_opened _ _⟩
  own := by
    intro ch hch hpc
    show _ = (s.files.opened _).get ch.peerSd
    rw [get_opened_of_handed (hinv.handed _ (List.mem_map_of_mem hch)), hinv.own ch hch hpc]
  shut := by
    intro c
    rw [hinv.shut c]
    refine exists_congr fun ch => and_congr_right fun hch => and_congr_right fun _ => ?_
    show _ ↔ (s.files.opened _).get ch.peerSd = _
    rw [get_opened_of_handed (hinv.handed _ (List.mem_map_of_mem hch))]

theorem fork (hpc : s.pc = .fork) (ok : Bool) :
    Inv limit f { s with
      pc := .accept, children := s.children ++ if ok then [⟨.dataIo, s.peerSd, s.files⟩] else [] } where
  size := hinv.size
  bound := hinv.bound
  held := hinv.held
  served := by
    have hsub := hinv.served
    rw [State.current, if_pos hpc] at hsub
    cases ok with
    | false => simpa [State.current, State.served] using (List.sublist_append_left _ _).trans hsub
    | true =>
      cases hget : s.files.get s.peerSd <;> simpa [State.current, State.served, hget] using hsub
  handed := by
    intro d hd
    rw [List.map_append] at hd
    rcases List.mem_append.mp hd with hd | hd
    · exact hinv.handed d hd
    · cases ok with
      | false => simp at hd
      | true =>
        obtain rfl : d = s.peerSd := by simpa using hd
        exact hinv.current hpc
  current := by simp
  own := by
    intro ch hch hio
    rcases List.mem_append.mp hch with hch | hch
    · exact hinv.own ch hch hio
    · cases ok with
      | false => simp at hch
      | true =>
        obtain rfl : ch = ⟨.dataIo, s.peerSd, s.files⟩ := by simpa using hch
        rfl
  shut := by
    intro c
    rw [hinv.shut c]
    -- a new child has not shut anything down
    cases ok <;> simp [State.ShutByChild, or_and_right, exists_or, ChildPc.Shut]

theorem child {i : ℕ} {l : ChildLabel} {ch ch' : Child} (hch : s.children[i]? = some ch) (hstep : ch.step l = some ch') :
    Inv limit f { s with children := s.children.set i ch', shut := s.shut ++ ch.shuts l } := by
  obtain ⟨hsd, hcases⟩ := Child.step_cases hstep
  have hmem : ch ∈ s.children := List.mem_of_getElem? hch
  have hsds : (s.children.set i ch').map Child.peerSd = s.children.map Child.peerSd := map_set_of_eq hch hsd
  refine ⟨hinv.size, hinv.bound, hinv.held, ?_, ?_, hinv.current, ?_, ?_⟩
  · show (List.filterMap _ ((s.children.set i ch').map Child.peerSd) ++ _).Sublist _
    rw [hsds]
    exact hinv.served
  · rw [hsds]
    exact hinv.handed
  · intro x hx hio
    rcases List.mem_or_eq_of_mem_set hx with hx | rfl
    · exact hinv.own x hx hio
    · rcases hcases with ⟨-, -, rfl⟩ | ⟨-, -, hkeep⟩
      · rcases hio with hio | hio <;> simp at hio
      · obtain ⟨hpc, hfiles⟩ := hkeep hio
        rw [hfiles, hsd]
        exact hinv.own ch hmem (.inl hpc)
  · intro c
    rw [List.mem_append, hinv.shut c]
    show _ ↔ ∃ x ∈ s.children.set i ch', x.pc.Shut ∧ s.files.get x.peerSd = some (.conn c)
    rcases hcases with ⟨hpc, rfl, rfl⟩ | ⟨hnone, hsame, -⟩
    · rw [exists_mem_set hch fun h => absurd h.1 (by rw [hpc]; decide)]
      refine or_congr_right ?_
      -- what the child shuts down is what the server handed to it
      rw [ch.mem_shuts hpc, hinv.own ch hmem (.inr hpc)]
      exact (and_iff_right (show ChildPc.close.Shut by decide)).symm
    · rw [hnone, exists_mem_set hch fun h => ⟨hsame.mpr h.1, hsd ▸ h.2⟩, hsd]
      constructor
      · rintro (h | h)
        · exact .inl h
        · simp at h
      · rintro (h | ⟨hshut, hget⟩)
        · exact .inl h
        · exact .inl ⟨ch, hmem, hsame.mp hshut, hget⟩

end Inv

theorem inv_step {f : Files File} {l : Label} (hinv : Inv limit f s) (h : step limit s l = some s') : Inv limit f s' := by
  cases moves h with
  | connect heq => exact heq ▸ hinv.connect
  | fails ok hpc heq => exact heq ▸ hinv.fails
  | accepts hpc hlt hasked heq => exact heq ▸ hinv.accepts hpc hlt
  | fork ok hpc heq => exact heq ▸ hinv.fork hpc ok
  | child i l ch ch' hch hstep heq => exact heq ▸ hinv.child hch hstep

theorem inv_of_reach {f : Files File} (hbound : ∀ n ∈ f.numbers, n < limit) (h : Reach (step limit) (start f) s) :
    Inv limit f s :=
  h.inv (inv_start hbound) fun _ _ _ hinv hs => inv_step hinv hs

/-! ## Whole runs -/

namespace Inv

variable {f : Files File} (hinv : Inv limit f s)
include hinv

theorem next_lt_iff : s.files.next < limit ↔ s.accepted + f.entries.length < limit := by
  rw [Files.next_lt_iff hinv.bound, hinv.size, Nat.add_comm]

theorem accepted_le : s.accepted + f.entries.length ≤ limit := by
  rw [Nat.add_comm, ← hinv.size]
  exact Files.length_le hinv.bound

/-- A connection that waits is accepted if and only if not all the descriptors have gone into connections yet. -/
theorem accepts_iff (hpc : s.pc = .accept) :
    (∃ s', step limit s (.accept true) = some s' ∧ s'.accepted = s.accepted + 1) ↔
      s.accepted < s.asked ∧ s.accepted + f.entries.length < limit := by
  rw [← hinv.next_lt_iff, ← Nat.not_le (a := limit)]
  simp only [step, hpc]
  by_cases hfull : limit ≤ s.files.next <;> by_cases hasked : s.accepted < s.asked <;> simp [hfull, hasked]

theorem hangsUp_iff {c : ℕ} (hc : c < s.accepted) : s.HangsUp c ↔ s.ShutByChild c := by
  rw [← hinv.shut c]
  constructor
  · rintro (h | ⟨hnot, -⟩)
    · exact h
    · exact absurd (hinv.held c hc) hnot
  · exact .inl

/-- A server without a descriptor left does not wait for a connection, and forks in every round. -/
theorem exec_rounds (oks : List Bool) (hpc : s.pc = .accept) (hfull : s.accepted + f.entries.length = limit) :
    ∃ s', exec (step limit) s (rounds oks) = some s' ∧
      s'.children = s.children ++ List.replicate oks.length (orphan s.files) := by
  induction oks generalizing s with
  | nil => exact ⟨s, rfl, (List.append_nil _).symm⟩
  | cons ok oks ih =>
    have hnext : limit ≤ s.files.next := by
      rw [← Nat.not_lt, hinv.next_lt_iff]
      omega
    let t : State := { s with pc := .fork, peerSd := -1 }
    have haccept : step limit s (.accept ok) = some t := by simp [step, hpc, hnext, t]
    have hinv' : Inv limit f { t with pc := .accept, children := s.children ++ [orphan s.files] } := hinv.fails.fork rfl true
    obtain ⟨s', hs', hchs⟩ := ih hinv' rfl hfull
    refine ⟨s', ?_, ?_⟩
    · show (step limit s (.accept ok)).bind _ = _
      rw [haccept]
      exact hs'
    · rw [hchs, List.append_assoc]
      rfl

end Inv

/-- **A server for many clients.** In every state that `tipc-pipe -l` comes to, started with the descriptors `f` under a
    limit: it has accepted no more connections than it had descriptors left, and accepts the next if and only if this goes
    on, whatever has become of the others; the children serve the connections in their order, one child each at most; a
    connection has come to its end if and only if its child has shut it down; and once the descriptors have gone, nothing
    keeps the server from forking a child without a connection in each round. -/
theorem multiServer {f : Files File} (hbound : ∀ n ∈ f.numbers, n < limit) (h : Reach (step limit) (start f) s) :
    s.accepted + f.entries.length ≤ limit ∧
      (s.pc = .accept → ((∃ s', step limit s (.accept true) = some s' ∧ s'.accepted = s.accepted + 1) ↔
        s.accepted < s.asked ∧ s.accepted + f.entries.length < limit)) ∧
      s.served.Sublist ((List.range s.accepted).map File.conn) ∧
      (∀ c < s.accepted, s.HangsUp c ↔ s.ShutByChild c) ∧
      (s.pc = .accept → s.accepted + f.entries.length = limit → ∀ oks, ∃ s', exec (step limit) s (rounds oks) = some s' ∧
        s'.children = s.children ++ List.replicate oks.length (orphan s.files)) := by
  have hinv := inv_of_reach hbound h
  have hserved := (List.sublist_append_left _ _).trans hinv.served
  exact ⟨hinv.accepted_le, hinv.accepts_iff, hserved, fun c => hinv.hangsUp_iff,
    fun hpc hfull oks => hinv.exec_rounds oks hpc hfull⟩

/-- `stdin`, `stdout`, `stderr` and the listener. -/
def fourFiles : Files File := ⟨[(0, .other), (1, .other), (2, .other), (3, .other)], by decide⟩

/-- Two clients, and descriptors for one of them. The child of the first dies in `data_io`. -/
def twoClients : List Label :=
  [.connect, .connect, .accept true, .fork true, .child 0 .dies]

/-- The first client never sees the end of its connection, and the second is never served. -/
theorem multiServer_twoClients :
    let s := final (step 5) (start fourFiles) twoClients (by decide)
    (∀ c < s.accepted, s.HangsUp c ↔ s.ShutByChild c) ∧ s.accepted = 1 ∧ s.asked = 2 ∧ ¬ s.ShutByChild 0 := by
  intro s
  have hreach : Reach (step 5) (start fourFiles) s := reach_final _
  have hall := multiServer (by decide) hreach
  refine ⟨hall.2.2.2.1, by decide, by decide, ?_⟩
  rintro ⟨ch, hmem, hshut, -⟩
  obtain rfl : ch = ⟨.died, 4, .none⟩ := List.mem_singleton.mp hmem
  exact absurd hshut (by decide)

end MultiServer
end Pipe
end Tipcutils
