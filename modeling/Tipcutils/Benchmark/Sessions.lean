import Mathlib.Data.List.Basic
import Mathlib.Data.List.Range
import Tipcutils.Lib.Files
import Tipcutils.Lib.Lts

/-!
# `Benchmark.Sessions` — the sessions of the benchmark server

`main` of `server_tipc.c` gets a command from the master on a control socket, makes a listening socket, closes the control
socket, and then accepts connections, forks a child for each, and reaps the children that have ended. Where `srv_cnt` comes
down to 0 it closes the listening socket and begins anew. A child makes a control socket with the same name as `main` has.

**`sessions`** says why these names do not clash: `main` has a control socket only when every child has been reaped, and a
session ends when the last one is, unless a `fork` has failed in it: then it is counted for ever, and the server begins no
other session. `main` lets go of every connection, so its peer sees its end if and only if the child does not serve it any
more, however the child has ended. What grows from session to session is the socket of `get_ip_list`, which is not closed.

The connections are numbered by `srv_id`. Not modelled: what the messages say and how long is waited for them, the buffer,
the TCP port, and the sockets that are closed where they are made (`own_node`, `wait_for_name`).
-/

namespace Tipcutils
namespace Benchmark
namespace Sessions

open Lts

/-- What a descriptor refers to. -/
inductive File where
  | master
  | listener
  | peer (srvId : ℕ)
  | ipList
  | other
deriving DecidableEq

/-! ## The children -/

/-- The next call of a child, or how far it has ended. -/
inductive ChildPc where
  | closeListener
  | create
  | echo
  | shutdown
  | closePeer
  | closeMaster
  | exit
  | ended
  | reaped
deriving DecidableEq

/-- A child does not serve its connection any more. -/
def ChildPc.Over (pc : ChildPc) : Prop := pc ∈ [ChildPc.closePeer, .closeMaster, .exit, .ended, .reaped]

instance (pc : ChildPc) : Decidable pc.Over := inferInstanceAs (Decidable (pc ∈ _))

structure Child where
  pc : ChildPc
  srvId : ℕ
  peerSd : ℤ
  lstnSd : ℤ
  masterSd : ℤ
  files : Files File

variable (limit : ℕ)

/-- The next call; `echo_messages` comes back from its loop, or calls `die`. -/
def Child.step (ch : Child) (ok : Bool) : Option Child :=
  match ch.pc with
  | .closeListener => some { ch with pc := .create, files := ch.files.close ch.lstnSd }
  | .create =>
    if ok = true ∧ ch.files.next < limit then
      some { ch with pc := .echo, masterSd := ch.files.next, files := ch.files.opened .master }
    else some { ch with pc := .ended, files := .none }
  | .echo => if ok then some { ch with pc := .shutdown } else some { ch with pc := .ended, files := .none }
  | .shutdown => some { ch with pc := .closePeer }
  | .closePeer => some { ch with pc := .closeMaster, files := ch.files.close ch.peerSd }
  | .closeMaster => some { ch with pc := .exit, files := ch.files.close ch.masterSd }
  | .exit => some { ch with pc := .ended, files := .none }
  | .ended | .reaped => none

/-- The connection that the next call shuts down. -/
def Child.shuts (ch : Child) : List ℕ :=
  match ch.pc, ch.files.get ch.peerSd with
  | .shutdown, some (.peer c) => [c]
  | _, _ => []

/-! ## `main` -/

def tipcConn : UInt32 := 0
def tcpConn : UInt32 := 1

/-- The next call of `main`. -/
inductive Pc where
  | reset
  | command
  | listener (tcp : Bool)
  | ipList
  | report
  | closeMaster
  | closeUnknown
  | listen
  | waitpid
  | accept
  | fork
  | closePeer
  | closeListener
  | died
deriving DecidableEq

structure State where
  pc : Pc
  masterSd : ℤ
  lstnSd : ℤ
  peerSd : ℤ
  files : Files File
  srvId : ℕ
  srvCnt : ℤ
  children : List Child
  /-- the connections that have been shut down -/
  shut : List ℕ
  /-- how often `fork` has failed, and how often `get_ip_list` was called -/
  failed : ℕ
  ips : ℕ

/-- A call of `main` that has no other label, with its success; the command, if one comes and there is memory for a buffer;
    the child that `waitpid` has reaped; what `select` and `accept` say; `fork`; and the next call of a child. -/
inductive Label where
  | call (ok : Bool)
  | command (cmd : Option UInt32)
  | waitpid (reaped : Option ℕ)
  | accept (res : Option Bool)
  | fork (ok : Bool)
  | child (i : ℕ) (ok : Bool)
deriving DecidableEq

def start (files : Files File) : State := ⟨.reset, 0, 0, 0, files, 0, 0, [], [], 0, 0⟩

def State.die (s : State) : State := { s with pc := .died, files := .none }

/-- The process gets a descriptor, if the call succeeds and there is one. -/
def State.gets (s : State) (ok : Bool) : Prop := ok = true ∧ s.files.next < limit

instance (s : State) (ok : Bool) : Decidable (s.gets limit ok) := inferInstanceAs (Decidable (_ ∧ _))

def State.call (s : State) (ok : Bool) : Option State :=
  match s.pc with
  | .reset =>
    some (if s.gets limit ok then
      { s with pc := .command, masterSd := s.files.next, files := s.files.opened .master } else s.die)
  | .listener tcp =>
    some (if s.gets limit ok then
      { s with
        pc := if tcp then .ipList else .report
        lstnSd := s.files.next
        files := s.files.opened .listener } else s.die)
  | .ipList =>
    -- `sck <= 0` is a failure, and `sck` is not closed
    some (if s.gets limit ok ∧ s.files.next ≠ 0 then
      { s with pc := .report, files := s.files.opened .ipList, ips := s.ips + 1 } else s.die)
  | .report => some (if ok then { s with pc := .closeMaster } else s.die)
  | .closeMaster => some { s with pc := .listen, files := s.files.close s.masterSd }
  | .closeUnknown => some { s with pc := .reset, files := s.files.close s.masterSd }
  | .listen => some (if ok then { s with pc := .waitpid } else s.die)
  | .closePeer => some { s with pc := .waitpid, files := s.files.close s.peerSd }
  | .closeListener => some { s with pc := .reset, files := s.files.close s.lstnSd }
  | _ => none

/-- `waitpid(-1, NULL, WNOHANG)`, and what comes of it. -/
def State.wait (s : State) : Option ℕ → Option State
  | none => if ∀ ch ∈ s.children, ch.pc ≠ .ended then some { s with pc := .accept } else none
  | some i =>
    match s.children[i]? with
    | some ch =>
      if ch.pc = .ended then
        some { s with
          pc := if s.srvCnt - 1 ≠ 0 then .waitpid else .closeListener
          srvCnt := s.srvCnt - 1
          children := s.children.set i { ch with pc := .reaped } }
      else none
    | none => none

def step (s : State) : Label → Option State
  | .call ok => s.call limit ok
  | .command cmd =>
    match s.pc, cmd with
    | .command, none => some s.die
    | .command, some cmd =>
      some (if cmd = tipcConn then { s with pc := .listener false }
        else if cmd = tcpConn then { s with pc := .listener true }
        else { s with pc := .closeUnknown })
    | _, _ => none
  | .waitpid reaped => if s.pc = .waitpid then s.wait reaped else none
  | .accept res =>
    match s.pc, res with
    | .accept, none => some { s with pc := .waitpid }
    | .accept, some ok =>
      -- `peer_sd <= 0` is a failure
      some (if s.gets limit ok ∧ s.files.next ≠ 0 then
        { s with
          pc := .fork
          peerSd := s.files.next
          files := s.files.opened (.peer (s.srvId + 1))
          srvId := s.srvId + 1
          srvCnt := s.srvCnt + 1 } else s.die)
    | _, _ => none
  | .fork ok =>
    match s.pc with
    | .fork =>
      -- also where `fork` returns -1 it is the parent that goes on
      some { s with
        pc := .closePeer
        children := s.children ++ if ok then [⟨.closeListener, s.srvId, s.peerSd, s.lstnSd, s.masterSd, s.files⟩] else []
        failed := if ok then s.failed else s.failed + 1 }
    | _ => none
  | .child i ok =>
    match s.children[i]? with
    | some ch => (ch.step limit ok).map fun ch' => { s with children := s.children.set i ch', shut := s.shut ++ ch.shuts }
    | none => none

/-- The peer of connection `c` sees its end: it has been shut down, or no process has it open any more. -/
def State.HangsUp (s : State) (c : ℕ) : Prop :=
  c ∈ s.shut ∨ ¬ s.files.Holds (.peer c) ∧ ∀ ch ∈ s.children, ¬ ch.files.Holds (.peer c)

/-! ## What the processes know of their descriptors -/

/-- The descriptors that a child will use, and what they are for. -/
def Child.handles (ch : Child) : List (ℤ × File) :=
  match ch.pc with
  | .closeListener => [(ch.lstnSd, .listener), (ch.peerSd, .peer ch.srvId)]
  | .create => [(ch.peerSd, .peer ch.srvId)]
  | .echo | .shutdown | .closePeer => [(ch.peerSd, .peer ch.srvId), (ch.masterSd, .master)]
  | .closeMaster => [(ch.masterSd, .master)]
  | .exit | .ended | .reaped => []

/-- The descriptors that `main` will use. -/
def State.handles (s : State) : List (ℤ × File) :=
  match s.pc with
  | .command | .closeUnknown | .listener _ => [(s.masterSd, .master)]
  | .ipList | .report | .closeMaster => [(s.masterSd, .master), (s.lstnSd, .listener)]
  | .listen | .waitpid | .accept | .closeListener => [(s.lstnSd, .listener)]
  | .fork | .closePeer => [(s.peerSd, .peer s.srvId), (s.lstnSd, .listener)]
  | .reset | .died => []

/-- What is open besides, where `main` has started with the descriptors `f`. -/
def State.rest (s : State) (f : Files File) : List File :=
  if s.pc = .died then [] else List.replicate s.ips .ipList ++ f.objects

/-- The connection that has been accepted and has no child yet. -/
def State.current (s : State) : List ℕ := if s.pc = .fork then [s.srvId] else []

/-- `main` is not in the loop in which it accepts connections. -/
def Pc.Setup (pc : Pc) : Prop := pc ∉ [Pc.waitpid, .accept, .fork, .closePeer, .died]

instance (pc : Pc) : Decidable pc.Setup := inferInstanceAs (Decidable (pc ∉ _))

/-- The children that have not been reaped. -/
def State.unreaped (s : State) : ℕ := s.children.countP (·.pc ≠ .reaped)

/-- A child has the descriptors that it will use, and no other connection. -/
def Child.Good (ch : Child) : Prop := ∃ rest, ch.files.Owns ch.handles rest ∧ ∀ c, File.peer c ∉ rest

/-- What holds in every reachable state of a server that has started with the descriptors `f`. -/
structure Inv (limit : ℕ) (f : Files File) (s : State) : Prop where
  own : s.files.Owns s.handles (s.rest f)
  bound : ∀ n ∈ s.files.numbers, n < limit
  ips : s.ips + f.entries.length ≤ limit
  /-- a `fork` that has failed is counted for ever -/
  cnt : s.srvCnt = s.unreaped + s.current.length + s.failed
  setup : s.pc.Setup → s.srvCnt = 0
  ids : (s.children.map Child.srvId ++ s.current).Sublist (List.range' 1 s.srvId)
  child : ∀ ch ∈ s.children, ch.Good
  shut : ∀ c ∈ s.shut, ∃ ch ∈ s.children, ch.srvId = c ∧ ch.pc.Over
  closing : ∀ ch ∈ s.children, ch.pc = .closePeer → ch.srvId ∈ s.shut

variable {limit} {f : Files File} {s s' : State}

theorem owns_none : (Files.none : Files File).Owns [] [] := Files.Owns.start _

/-! ## Steps of a child -/

theorem Child.mem_shuts {ch : Child} {c : ℕ} (h : c ∈ ch.shuts) :
    ch.pc = .shutdown ∧ ch.files.get ch.peerSd = some (.peer c) := by
  unfold Child.shuts at h
  split at h
  next hpc hget =>
    rw [List.mem_singleton.mp h]
    exact ⟨hpc, hget⟩
  · simp at h

/-- Its connection is what a child shuts down. -/
theorem Child.Good.shuts {ch : Child} (h : ch.Good) (hpc : ch.pc = .shutdown) : ch.shuts = [ch.srvId] := by
  obtain ⟨rest, hown, -⟩ := h
  have hget : ch.files.get ch.peerSd = some (.peer ch.srvId) :=
    hown.get (ch.peerSd, .peer ch.srvId) (by simp [Child.handles, hpc])
  unfold Child.shuts
  rw [hpc, hget]

/-- A child that holds a connection holds its own, and has not closed it yet. -/
theorem Child.Good.holds {ch : Child} (h : ch.Good) {c : ℕ} (hc : ch.files.Holds (.peer c)) :
    ch.srvId = c ∧ (ch.pc.Over → ch.pc = .closePeer) := by
  obtain ⟨rest, hown, hrest⟩ := h
  rcases (hown.holds_iff _).mp hc with hmem | hmem
  · obtain ⟨pc, srvId, peerSd, lstnSd, masterSd, files⟩ := ch
    cases pc <;> simp [Child.handles] at hmem <;> simp [hmem, ChildPc.Over]
  · exact absurd hmem (hrest c)

theorem Child.Good.reaped {ch : Child} (h : ch.Good) (hpc : ch.pc = .ended) : ({ ch with pc := .reaped } : Child).Good := by
  obtain ⟨pc, srvId, peerSd, lstnSd, masterSd, files⟩ := ch
  obtain rfl : pc = .ended := hpc
  exact h

theorem Child.step_good {ch ch' : Child} {ok : Bool} (h : ch.Good) (hs : ch.step limit ok = some ch') : ch'.Good := by
  obtain ⟨rest, hown, hrest⟩ := h
  have hended : ({ ch with pc := .ended, files := .none } : Child).Good := ⟨[], owns_none, by simp⟩
  obtain ⟨pc, srvId, peerSd, lstnSd, masterSd, files⟩ := ch
  cases pc with
  | closeListener =>
    obtain rfl := Option.some.inj hs
    exact ⟨rest, hown.close, hrest⟩
  | create =>
    simp only [Child.step] at hs
    split at hs
    · obtain rfl := Option.some.inj hs
      exact ⟨rest, (hown.opened .master).perm (List.Perm.swap _ _ _), hrest⟩
    · obtain rfl := Option.some.inj hs
      exact hended
  | echo =>
    simp only [Child.step] at hs
    split at hs
    · obtain rfl := Option.some.inj hs
      exact ⟨rest, hown, hrest⟩
    · obtain rfl := Option.some.inj hs
      exact hended
  | shutdown =>
    obtain rfl := Option.some.inj hs
    exact ⟨rest, hown, hrest⟩
  | closePeer =>
    obtain rfl := Option.some.inj hs
    exact ⟨rest, hown.close, hrest⟩
  | closeMaster =>
    obtain rfl := Option.some.inj hs
    exact ⟨rest, hown.close, hrest⟩
  | exit =>
    obtain rfl := Option.some.inj hs
    exact hended
  | ended => simp [Child.step] at hs
  | reaped => simp [Child.step] at hs

/-- A child keeps its connection, is not reaped by its own step, and is over with its connection for good. -/
theorem Child.step_cases {ch ch' : Child} {ok : Bool} (hs : ch.step limit ok = some ch') :
    ch'.srvId = ch.srvId ∧ ch.pc ≠ .reaped ∧ ch'.pc ≠ .reaped ∧ (ch.pc.Over → ch'.pc.Over) ∧
      (ch'.pc = .closePeer ↔ ch.pc = .shutdown) := by
  obtain ⟨pc, srvId, peerSd, lstnSd, masterSd, files⟩ := ch
  cases pc <;> simp only [Child.step] at hs
  case create | echo =>
    split at hs <;> obtain rfl := Option.some.inj hs <;> simp [ChildPc.Over]
  case ended | reaped => simp at hs
  all_goals
    obtain rfl := Option.some.inj hs
    simp [ChildPc.Over]

/-! ## Steps of `main` -/

theorem inv_start (hbound : ∀ n ∈ f.numbers, n < limit) : Inv limit f (start f) where
  own := Files.Owns.start f
  bound := hbound
  ips := (Nat.zero_add _).trans_le (Files.length_le hbound)
  cnt := rfl
  setup := fun _ => rfl
  ids := List.nil_sublist _
  child := by simp [start]
  shut := by simp [start]
  closing := by simp [start]

namespace Inv

variable (hinv : Inv limit f s)
include hinv

/-- A step of `main` that only moves it, and changes its own descriptors. -/
theorem moves {pc : Pc} {masterSd lstnSd peerSd : ℤ} {files : Files File} {ips : ℕ} (hcur : s.current = [])
    (hpc : pc ≠ .fork) (hsetup : pc.Setup → s.pc.Setup) (hips : ips + f.entries.length ≤ limit)
    (hown : files.Owns
      (State.handles ⟨pc, masterSd, lstnSd, peerSd, files, s.srvId, s.srvCnt, s.children, s.shut, s.failed, ips⟩)
      (State.rest ⟨pc, masterSd, lstnSd, peerSd, files, s.srvId, s.srvCnt, s.children, s.shut, s.failed, ips⟩ f))
    (hbound : ∀ n ∈ files.numbers, n < limit) :
    Inv limit f ⟨pc, masterSd, lstnSd, peerSd, files, s.srvId, s.srvCnt, s.children, s.shut, s.failed, ips⟩ where
  own := hown
  bound := hbound
  ips := hips
  cnt := by
    have hold := hinv.cnt
    rw [hcur] at hold
    rw [State.current, if_neg hpc]
    exact hold
  setup := fun h => hinv.setup (hsetup h)
  ids := by
    rw [State.current, if_neg hpc, ← hcur]
    exact hinv.ids
  child := hinv.child
  shut := hinv.shut
  closing := hinv.closing

theorem die (hcur : s.current = []) : Inv limit f s.die :=
  hinv.moves hcur (by decide) (by simp [Pc.Setup]) hinv.ips owns_none (by simp [Files.none, Files.numbers])

end Inv

/-- One child is replaced, by its own step or by `waitpid`; `extra` is what it has shut down. -/
theorem Inv.replace (hinv : Inv limit f s) {i : ℕ} {ch ch' : Child} {extra : List ℕ} (hch : s.children[i]? = some ch)
    (hid : ch'.srvId = ch.srvId) (hgood : ch'.Good) (hover : ch.pc.Over → ch'.pc.Over)
    (hextra : ∀ c ∈ extra, ch'.srvId = c ∧ ch'.pc.Over) (hclosing : ch'.pc = .closePeer → ch'.srvId ∈ extra) :
    (∀ x ∈ s.children.set i ch', x.Good) ∧
      (∀ c ∈ s.shut ++ extra, ∃ x ∈ s.children.set i ch', x.srvId = c ∧ x.pc.Over) ∧
      (∀ x ∈ s.children.set i ch', x.pc = .closePeer → x.srvId ∈ s.shut ++ extra) := by
  refine ⟨?_, ?_, ?_⟩
  · intro x hx
    rcases List.mem_or_eq_of_mem_set hx with hx | rfl
    · exact hinv.child x hx
    · exact hgood
  · intro c hc
    rw [exists_mem_set hch fun h => ⟨hid.trans h.1, hover h.2⟩]
    rcases List.mem_append.mp hc with hc | hc
    · exact .inl (hinv.shut c hc)
    · exact .inr (hextra c hc)
  · intro x hx hpc
    rw [List.mem_append]
    rcases List.mem_or_eq_of_mem_set hx with hx | rfl
    · exact .inl (hinv.closing x hx hpc)
    · exact .inr (hclosing hpc)

theorem inv_call {ok : Bool} (hinv : Inv limit f s) (h : s.call limit ok = some s') : Inv limit f s' := by
  have hown := hinv.own
  have hdie := hinv.die
  obtain ⟨pc, masterSd, lstnSd, peerSd, files, srvId, srvCnt, children, shut, failed, ips⟩ := s
  cases pc with
  | reset =>
    obtain rfl := Option.some.inj h
    split
    next hgets =>
      exact hinv.moves rfl (by simp) (by simp [Pc.Setup]) hinv.ips (hown.opened .master)
        (Files.lt_opened hinv.bound hgets.2 _)
    · exact hdie rfl
  | listener tcp =>
    obtain rfl := Option.some.inj h
    split
    next hgets =>
      have hown' := (hown.opened .listener).perm (List.Perm.swap _ _ _)
      cases tcp
      all_goals
        exact hinv.moves rfl (by simp) (by simp [Pc.Setup]) hinv.ips hown'
          (Files.lt_opened hinv.bound hgets.2 _)
    · exact hdie rfl
  | ipList =>
    obtain rfl := Option.some.inj h
    split
    next hgets =>
      -- nobody knows of the socket any more
      have hown' := (hown.opened .ipList).forget
      have hbound' := Files.lt_opened hinv.bound hgets.1.2 .ipList
      have hlen := hown'.length_entries
      have hle : files.entries.length + 1 ≤ limit := Files.length_le hbound'
      refine hinv.moves rfl (by simp) (by simp [Pc.Setup]) ?_ hown' hbound'
      simp [State.rest, State.handles, Files.objects] at hlen
      show ips + 1 + f.entries.length ≤ limit
      omega
    · exact hdie rfl
  | report =>
    obtain rfl := Option.some.inj h
    split
    · exact hinv.moves rfl (by simp) (by simp [Pc.Setup]) hinv.ips hown hinv.bound
    · exact hdie rfl
  | closeMaster =>
    obtain rfl := Option.some.inj h
    exact hinv.moves rfl (by simp) (by simp [Pc.Setup]) hinv.ips hown.close (Files.lt_close hinv.bound _)
  | closeUnknown =>
    obtain rfl := Option.some.inj h
    exact hinv.moves rfl (by simp) (by simp [Pc.Setup]) hinv.ips hown.close (Files.lt_close hinv.bound _)
  | listen =>
    obtain rfl := Option.some.inj h
    split
    · exact hinv.moves rfl (by simp) (by simp [Pc.Setup]) hinv.ips hown hinv.bound
    · exact hdie rfl
  | closePeer =>
    obtain rfl := Option.some.inj h
    exact hinv.moves rfl (by simp) (by simp [Pc.Setup]) hinv.ips hown.close
      (Files.lt_close hinv.bound _)
  | closeListener =>
    obtain rfl := Option.some.inj h
    exact hinv.moves rfl (by simp) (by simp [Pc.Setup]) hinv.ips hown.close (Files.lt_close hinv.bound _)
  | command => simp [State.call] at h
  | waitpid => simp [State.call] at h
  | accept => simp [State.call] at h
  | fork => simp [State.call] at h
  | died => simp [State.call] at h

/-- A child that is reaped has ended, and is counted no more. -/
theorem wait_eq_some {i : ℕ} (h : s.wait (some i) = some s') :
    ∃ ch, s.children[i]? = some ch ∧ ch.pc = .ended ∧
      s' = { s with
        pc := if s.srvCnt - 1 ≠ 0 then .waitpid else .closeListener
        srvCnt := s.srvCnt - 1
        children := s.children.set i { ch with pc := .reaped } } := by
  simp only [State.wait] at h
  split at h
  next ch hch =>
    split at h
    next hended =>
      exact ⟨ch, hch, hended, (Option.some.inj h).symm⟩
    · simp at h
  · simp at h

/-- A child is reaped. -/
theorem Inv.reap (hinv : Inv limit f s) (hpc : s.pc = .waitpid) {i : ℕ} {ch : Child} (hch : s.children[i]? = some ch)
    (hended : ch.pc = .ended) {pc : Pc} (hgoes : pc = .waitpid ∨ pc = .closeListener)
    (hsetup : pc.Setup → s.srvCnt - 1 = 0) :
    Inv limit f { s with
      pc := pc, srvCnt := s.srvCnt - 1, children := s.children.set i { ch with pc := .reaped } } := by
  have hgood := (hinv.child ch (List.mem_of_getElem? hch)).reaped hended
  obtain ⟨hchild, hshut, hclosing⟩ :=
    @Inv.replace limit f s hinv i ch { ch with pc := .reaped } [] hch rfl hgood (fun _ => by simp [ChildPc.Over])
      (by simp) (by simp)
  rw [List.append_nil] at hshut hclosing
  have hcnt := hinv.cnt
  have hreaped := countP_set (fun x : Child => decide (x.pc ≠ .reaped)) hch { ch with pc := .reaped }
  have hids := @map_set_of_eq _ _ _ _ { ch with pc := .reaped } _ Child.srvId hch rfl
  have hown : s.files.Owns [(s.lstnSd, .listener)] (List.replicate s.ips .ipList ++ f.objects) := by
    simpa [State.handles, State.rest, hpc] using hinv.own
  have hcur : s.current = [] := by simp [State.current, hpc]
  have hcur' (t : State) (ht : t.pc = pc) : t.current = [] := by
    rcases hgoes with rfl | rfl <;> simp [State.current, ht]
  refine ⟨?_, hinv.bound, hinv.ips, ?_, hsetup, ?_, hchild, hshut, hclosing⟩
  · rcases hgoes with rfl | rfl <;> exact hown
  · rw [hcur' _ rfl]
    rw [if_pos (by simp [hended]), if_neg (by simp)] at hreaped
    simp only [State.unreaped, hcur] at hcnt ⊢
    omega
  · rw [hids, hcur' _ rfl, ← hcur]
    exact hinv.ids

theorem inv_wait {reaped : Option ℕ} (hinv : Inv limit f s) (hpc : s.pc = .waitpid) (h : s.wait reaped = some s') :
    Inv limit f s' := by
  cases reaped with
  | none =>
    simp only [State.wait] at h
    split at h
    · obtain rfl := Option.some.inj h
      have hown := hinv.own
      simp only [State.handles, State.rest, hpc] at hown
      exact hinv.moves (by simp [State.current, hpc]) (by simp) (by simp [Pc.Setup]) hinv.ips hown hinv.bound
    · simp at h
  | some i =>
    obtain ⟨ch, hch, hended, rfl⟩ := wait_eq_some h
    split
    · exact hinv.reap hpc hch hended (.inl rfl) (fun h => absurd h (by decide))
    next hzero =>
      exact hinv.reap hpc hch hended (.inr rfl) (fun _ => not_not.mp hzero)

theorem inv_command {cmd : Option UInt32} (hinv : Inv limit f s) (h : step limit s (.command cmd) = some s') :
    Inv limit f s' := by
  have hown := hinv.own
  have hdie := hinv.die
  obtain ⟨pc, masterSd, lstnSd, peerSd, files, srvId, srvCnt, children, shut, failed, ips⟩ := s
  cases pc
  case command =>
    cases cmd with
    | none =>
      obtain rfl := Option.some.inj h
      exact hdie rfl
    | some cmd =>
      obtain rfl := Option.some.inj h
      split_ifs
      all_goals exact hinv.moves rfl (by simp) (by simp [Pc.Setup]) hinv.ips hown hinv.bound
  all_goals simp [step] at h

/-- A connection is accepted. -/
theorem Inv.accepts (hinv : Inv limit f s) (hpc : s.pc = .accept) (hlt : s.files.next < limit) :
    Inv limit f { s with
      pc := .fork
      peerSd := s.files.next
      files := s.files.opened (.peer (s.srvId + 1))
      srvId := s.srvId + 1
      srvCnt := s.srvCnt + 1 } where
  own := by
    have hown := hinv.own
    simp only [State.handles, State.rest, hpc] at hown
    exact hown.opened _
  bound := Files.lt_opened hinv.bound hlt _
  ips := hinv.ips
  cnt := by
    have hcnt := hinv.cnt
    rw [show s.current = [] by simp [State.current, hpc]] at hcnt
    show s.srvCnt + 1 = (s.unreaped + 1 : ℕ) + s.failed
    rw [hcnt]
    simp
    omega
  setup := fun h => absurd h (by simp [Pc.Setup])
  ids := by
    have hsub := (List.sublist_append_left _ _).trans hinv.ids
    rw [List.range'_concat, Nat.one_mul, Nat.add_comm 1]
    exact hsub.append (List.Sublist.refl _)
  child := hinv.child
  shut := hinv.shut
  closing := hinv.closing

/-- A child is forked, or `fork` fails. -/
theorem Inv.fork (hinv : Inv limit f s) (hpc : s.pc = .fork) (hf : ∀ c, File.peer c ∉ f.objects) (ok : Bool) :
    Inv limit f { s with
      pc := .closePeer
      children := s.children ++ if ok then [⟨.closeListener, s.srvId, s.peerSd, s.lstnSd, s.masterSd, s.files⟩] else []
      failed := if ok then s.failed else s.failed + 1 } := by
  have hown := hinv.own
  simp only [State.handles, State.rest, hpc] at hown
  have hcur : s.current = [s.srvId] := by simp [State.current, hpc]
  have hids := hinv.ids
  have hcnt := hinv.cnt
  rw [hcur] at hids hcnt
  have hnew : (⟨.closeListener, s.srvId, s.peerSd, s.lstnSd, s.masterSd, s.files⟩ : Child).Good :=
    ⟨_, hown.perm (List.Perm.swap _ _ _), by simp [hf]⟩
  have hsetup : Pc.Setup .closePeer → s.srvCnt = 0 := fun h => absurd h (by decide)
  cases ok with
  | false =>
    simp only [Bool.false_eq_true, if_false, List.append_nil]
    refine ⟨hown, hinv.bound, hinv.ips, ?_, hsetup, ?_, hinv.child, hinv.shut, hinv.closing⟩
    · show s.srvCnt = s.unreaped + (0 : ℕ) + (s.failed + 1 : ℕ)
      rw [hcnt, List.length_singleton]
      omega
    · exact (List.Sublist.append_left (List.nil_sublist _) _).trans hids
  | true =>
    simp only [if_true]
    refine ⟨hown, hinv.bound, hinv.ips, ?_, hsetup, ?_, ?_, ?_, ?_⟩
    · show s.srvCnt = (List.countP _ (_ ++ _) : ℕ) + (0 : ℕ) + s.failed
      rw [List.countP_append, hcnt]
      rfl
    · rw [List.map_append]
      exact (List.append_nil _).symm ▸ hids
    · intro x hx
      rcases List.mem_append.mp hx with hx | hx
      · exact hinv.child x hx
      · rw [List.mem_singleton.mp hx]
        exact hnew
    · intro c hc
      obtain ⟨x, hx, hover⟩ := hinv.shut c hc
      exact ⟨x, List.mem_append_left _ hx, hover⟩
    · intro x hx hpc
      rcases List.mem_append.mp hx with hx | hx
      · exact hinv.closing x hx hpc
      · rw [List.mem_singleton.mp hx] at hpc
        exact absurd hpc (by simp)

theorem inv_child {i : ℕ} {ok : Bool} (hinv : Inv limit f s) (h : step limit s (.child i ok) = some s') :
    Inv limit f s' := by
  simp only [step] at h
  split at h
  next ch hch =>
    obtain ⟨ch', hstep, rfl⟩ := Option.map_eq_some_iff.mp h
    have hgood := hinv.child ch (List.mem_of_getElem? hch)
    obtain ⟨hid, hreaped, hreaped', hover, hclosing⟩ := Child.step_cases hstep
    have hextra : ∀ c ∈ ch.shuts, ch'.srvId = c ∧ ch'.pc.Over := by
      intro c hc
      have hpc := (Child.mem_shuts hc).1
      rw [hgood.shuts hpc, List.mem_singleton] at hc
      rw [hc, hclosing.mpr hpc]
      exact ⟨hid, by decide⟩
    obtain ⟨hchild, hshut, hclosing⟩ := hinv.replace hch hid (Child.step_good hgood hstep) hover hextra (by
      intro hpc
      rw [hgood.shuts (hclosing.mp hpc), hid]
      exact List.mem_singleton_self _)
    have hcnt := countP_set (fun x : Child => decide (x.pc ≠ .reaped)) hch ch'
    refine ⟨hinv.own, hinv.bound, hinv.ips, ?_, hinv.setup, ?_, hchild, hshut, hclosing⟩
    · rw [if_pos (decide_eq_true hreaped), if_pos (decide_eq_true hreaped')] at hcnt
      have hold := hinv.cnt
      rw [State.unreaped, ← Nat.succ.inj hcnt] at hold
      exact hold
    · rw [map_set_of_eq hch hid]
      exact hinv.ids
  · simp at h

theorem inv_step {l : Label} (hf : ∀ c, File.peer c ∉ f.objects) (hinv : Inv limit f s) (h : step limit s l = some s') :
    Inv limit f s' := by
  cases l with
  | call ok => exact inv_call hinv h
  | command cmd => exact inv_command hinv h
  | waitpid reaped =>
    simp only [step] at h
    split at h
    next hpc =>
      exact inv_wait hinv hpc h
    · simp at h
  | accept res =>
    have hown := hinv.own
    cases hpc : s.pc
    case accept =>
      have hcur : s.current = [] := by simp [State.current, hpc]
      cases res with
      | none =>
        simp only [step, hpc] at h
        obtain rfl := Option.some.inj h
        simp only [State.handles, State.rest, hpc] at hown
        exact hinv.moves hcur (by simp) (by simp [Pc.Setup]) hinv.ips hown hinv.bound
      | some ok =>
        simp only [step, hpc] at h
        obtain rfl := Option.some.inj h
        split
        next hgets =>
          exact hinv.accepts hpc hgets.1.2
        · exact hinv.die hcur
    all_goals simp [step, hpc] at h
  | fork ok =>
    cases hpc : s.pc
    case fork =>
      simp only [step, hpc] at h
      obtain rfl := Option.some.inj h
      exact hinv.fork hpc hf ok
    all_goals simp [step, hpc] at h
  | child i ok => exact inv_child hinv h

/-! ## Whole runs -/

namespace Inv

variable (hinv : Inv limit f s)
include hinv

theorem unreaped_iff : s.srvCnt = s.current.length ↔ s.failed = 0 ∧ ∀ ch ∈ s.children, ch.pc = .reaped := by
  have hcnt := hinv.cnt
  have hnone : s.unreaped = 0 ↔ ∀ ch ∈ s.children, ch.pc = .reaped := by simp [State.unreaped, List.countP_eq_zero]
  rw [← hnone]
  omega

/-- `main` makes its control socket in a session of its own. -/
theorem alone (hf : ∀ a ∈ f.objects, a = .other) (hmaster : s.files.Holds .master) :
    s.failed = 0 ∧ ∀ ch ∈ s.children, ch.pc = .reaped := by
  rw [← hinv.unreaped_iff]
  rcases (hinv.own.holds_iff _).mp hmaster with hmem | hmem
  · have hsetup : s.pc.Setup ∧ s.current = [] := by
      unfold State.handles at hmem
      cases hpc : s.pc <;> simp [hpc] at hmem <;> simp [Pc.Setup, State.current, hpc]
    rw [hinv.setup hsetup.1, hsetup.2]
    rfl
  · unfold State.rest at hmem
    split at hmem
    · simp at hmem
    · rcases List.mem_append.mp hmem with hmem | hmem
      · exact absurd (List.eq_of_mem_replicate hmem) (by simp)
      · exact absurd (hf _ hmem) (by simp)

theorem holds_peer_iff (hf : ∀ c, File.peer c ∉ f.objects) (c : ℕ) :
    s.files.Holds (.peer c) ↔ (s.pc = .fork ∨ s.pc = .closePeer) ∧ s.srvId = c := by
  have hrest : File.peer c ∉ s.rest f := by
    unfold State.rest
    split <;> simp [hf]
  rw [hinv.own.holds_iff, or_iff_left hrest]
  unfold State.handles
  cases hpc : s.pc <;> simp [eq_comm]

/-- The peer of a connection that `main` has let go of sees its end when the child does not serve it any more. -/
theorem hangsUp_iff {c : ℕ} (hmain : ¬ s.files.Holds (.peer c)) :
    s.HangsUp c ↔ ∀ ch ∈ s.children, ch.srvId = c → ch.pc.Over := by
  constructor
  · rintro (hshut | ⟨-, hnone⟩) ch hch rfl
    · obtain ⟨x, hx, heq, hover⟩ := hinv.shut _ hshut
      -- a connection has one child at most
      have hnodup : (s.children.map Child.srvId).Nodup :=
        (List.nodup_range' 1).sublist ((List.sublist_append_left _ _).trans hinv.ids)
      rwa [← List.inj_on_of_nodup_map hnodup hx hch heq]
    · obtain ⟨rest, hown, -⟩ := hinv.child ch hch
      have hnot := hnone ch hch
      rw [hown.holds_iff, not_or] at hnot
      replace hnot := hnot.1
      unfold Child.handles at hnot
      cases hpc : ch.pc <;> simp [hpc] at hnot <;> simp [ChildPc.Over]
  · intro hall
    by_cases hclosing : ∃ ch ∈ s.children, ch.srvId = c ∧ ch.pc = .closePeer
    · obtain ⟨ch, hch, rfl, hpc⟩ := hclosing
      exact .inl (hinv.closing ch hch hpc)
    · refine .inr ⟨hmain, ?_⟩
      intro ch hch hholds
      obtain ⟨hid, hpc⟩ := (hinv.child ch hch).holds hholds
      exact hclosing ⟨ch, hch, hid, hpc (hall ch hch hid)⟩

/-- Reaping a child ends the session if and only if it was the last, and every `fork` has succeeded. -/
theorem ends_iff (hf : ∀ c, File.peer c ∉ f.objects) {i : ℕ} (h : step limit s (.waitpid (some i)) = some s') :
    s'.pc = .closeListener ↔ s.failed = 0 ∧ ∀ ch ∈ s'.children, ch.pc = .reaped := by
  have hinv' := inv_step hf hinv h
  simp only [step] at h
  split at h
  · obtain ⟨ch, hch, hended, rfl⟩ := wait_eq_some h
    rw [← hinv'.unreaped_iff]
    by_cases hlast : s.srvCnt - 1 = 0 <;> simp [State.current, hlast]
  · simp at h

end Inv

/-- **The sessions of the server.** In every state that the server comes to, started with the descriptors `f` under a limit:
    while `main` has a control socket, every child that it has ever forked has been reaped, and every `fork` has succeeded;
    reaping a child ends the session if and only if none is left and every `fork` has succeeded; between two sessions `main`
    has what it had at first and a socket for each call of `get_ip_list`, so that there are no more of these calls than
    descriptors; it has a connection open until it closes it behind `fork`; a connection has one child at most; and behind
    that close the peer sees the end of the connection if and only if its child, if it has one, no longer serves it. -/
theorem sessions (hbound : ∀ n ∈ f.numbers, n < limit) (hother : ∀ a ∈ f.objects, a = .other)
    (h : Reach (step limit) (start f) s) :
    (s.files.Holds .master → s.failed = 0 ∧ ∀ ch ∈ s.children, ch.pc = .reaped) ∧
      (∀ i s', step limit s (.waitpid (some i)) = some s' →
        (s'.pc = .closeListener ↔ s.failed = 0 ∧ ∀ ch ∈ s'.children, ch.pc = .reaped)) ∧
      (s.pc = .reset → s.files.objects.Perm (List.replicate s.ips .ipList ++ f.objects)) ∧
      s.ips + f.entries.length ≤ limit ∧
      (∀ c, s.files.Holds (.peer c) ↔ (s.pc = .fork ∨ s.pc = .closePeer) ∧ s.srvId = c) ∧
      (s.children.map Child.srvId).Sublist (List.range' 1 s.srvId) ∧
      ∀ c, ¬ s.files.Holds (.peer c) → (s.HangsUp c ↔ ∀ ch ∈ s.children, ch.srvId = c → ch.pc.Over) := by
  have hf (c : ℕ) : File.peer c ∉ f.objects := fun hc => absurd (hother _ hc) (by simp)
  have hinv : Inv limit f s := h.inv (inv_start hbound) fun _ _ _ hinv hs => inv_step hf hinv hs
  refine ⟨hinv.alone hother, fun i s' hs => hinv.ends_iff hf hs, ?_, hinv.ips, hinv.holds_peer_iff hf, ?_, ?_⟩
  · intro hpc
    have hobjects := hinv.own.objects
    simp only [State.handles, State.rest, hpc] at hobjects
    exact hobjects
  · exact (List.sublist_append_left _ _).trans hinv.ids
  · exact fun c => hinv.hangsUp_iff

/-- `stdin`, `stdout` and `stderr`. -/
def stdFiles : Files File := ⟨[(0, .other), (1, .other), (2, .other)], by decide⟩

/-- A session over TCP with one client, whose child dies in `echo_messages`, and the start of another session. -/
def oneSession : List Label :=
  [.call true, .command (some tcpConn), .call true, .call true, .call true, .call true, .call true, .waitpid none,
    .accept (some true), .fork true, .call true, .child 0 true, .child 0 true, .child 0 false, .waitpid (some 0), .call true,
    .call true]

/-- The new session has the control socket to itself, and a descriptor less. -/
theorem sessions_oneSession :
    let s := final (step 10) (start stdFiles) oneSession (by decide)
    (∀ ch ∈ s.children, ch.pc = .reaped) ∧ s.children.length = 1 ∧ s.files.entries.length = 5 ∧ s.HangsUp 1 := by
  intro s
  have hreach : Reach (step 10) (start stdFiles) s := reach_final _
  obtain ⟨halone, -, -, -, -, -, hhangs⟩ := sessions (by decide) (by decide) hreach
  have hreaped := (halone (by decide)).2
  refine ⟨hreaped, by decide, by decide, (hhangs 1 (by decide)).mpr ?_⟩
  intro ch hch _
  rw [hreaped ch hch]
  decide

end Sessions
end Benchmark
end Tipcutils
