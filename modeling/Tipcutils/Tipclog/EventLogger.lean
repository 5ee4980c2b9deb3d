import Mathlib.Data.Finset.Insert
import Mathlib.Data.Int.Notation
import Tipcutils.Lib.Lts
import Tipcutils.Tipc.Addr

/-!
# `Tipclog.EventLogger` — the loop of the event logger

`tipc_event_logger` waits in `select` for a signal or a topology event. `select` leaves in `fds` only the descriptors
that are ready, and the loop never sets them again, so a round that goes on watches what was ready before.
**`watches_iff`**: a run always watches both descriptors if and only if it never goes on after a `select`
that has found only one of them ready.

A step is one round, and its label is what the calls of this round return. Not modelled: what happens before the loop.
-/

namespace Tipcutils
namespace Tipclog

open Tipc Decimal

/-! ## The log -/

inductive Prio where
  | err
  | warning
  | info
deriving DecidableEq

structure Line where
  prio : Prio
  text : Text
deriving DecidableEq

/-- `struct tipc_event`, in host order, as far as it is read. -/
structure TipcEvent where
  event : UInt32
  foundLower : UInt32
  portRef : UInt32
  portNode : UInt32
  seqType : UInt32

/-- `TIPC_PUBLISHED`. -/
def tipcPublished : UInt32 := 1

/-- `TIPC_LINK_STATE`. -/
def tipcLinkState : UInt32 := 2

/-- The network plane of a bearer. -/
def plane (bearerId : UInt32) : Text := [Char.ofNat ((bearerId + 65).toNat % 256)]

/-- `log_link`; `linkname` is what the `ioctl` yields. `none` is the exit when it fails. -/
def logLink (e : TipcEvent) : Option Text → List Line × Bool
  | none => ([⟨.err, "ioctl".toList⟩], false)
  | some linkname =>
    let tail := " link <".toList ++ linkname ++ "> on network plane ".toList ++ plane e.portRef
    if e.event = tipcPublished then ([⟨.info, "Established".toList ++ tail⟩], true)
    else ([⟨.warning, "Lost".toList ++ tail⟩], true)

/-- `log_node`. -/
def logNode (ownNode : UInt32) (e : TipcEvent) : List Line :=
  let n := e.portNode
  if n = ownNode then []
  else if e.event = tipcPublished then
    [⟨.info, "Established contact with node <".toList ++ domainText n ++ ">".toList⟩]
  else [⟨.warning, "Lost contact with node node <".toList ++ domainText n ++ ">".toList⟩]

/-- `log_event`: what is logged, and whether the program goes on. -/
def logEvent (ownNode : UInt32) (e : TipcEvent) (linkname : Option Text) : List Line × Bool :=
  if e.seqType = tipcLinkState then logLink e linkname
  else if e.seqType = 0 then (logNode ownNode e, true)
  else ([⟨.err, "Unknown event received\n".toList⟩], true)

/-! ## The loop -/

/-- The two descriptors and the own node. -/
structure Daemon where
  signalFd : ℤ
  topsrvSd : ℤ
  ne : signalFd ≠ topsrvSd
  ownNode : UInt32

inductive Status where
  | running
  | returned
  | exited
deriving DecidableEq

structure State where
  fds : Finset ℤ
  status : Status
  log : List Line

/-- `SIGINT`, `SIGQUIT`, `SIGTERM`. -/
def termSignals : List ℤ := [2, 3, 15]

/-- What the calls of a round return: `select` fails, or it finds `ready`; then `sig` is what `daemon_signal_next`
    returns, `event` the event that is received, and `linkname` the result of the `ioctl`. The texts are those of
    `strerror` and `strsignal`. -/
inductive Label where
  | failed (eintr : Bool) (error : Text)
  | ready (fds : Finset ℤ) (sig : ℤ) (event : Option TipcEvent) (linkname : Option Text) (text : Text)

variable (d : Daemon)

def Daemon.fds : Finset ℤ := {d.signalFd, d.topsrvSd}

/-- At the loop. -/
def start : State :=
  ⟨d.fds, .running, [⟨.info, "TIPC network event logger started".toList⟩]⟩

/-- A line is logged. -/
def State.say (s : State) (prio : Prio) (text : Text) : State := { s with log := s.log ++ [⟨prio, text⟩] }

/-- The branch for a signal. -/
def State.onSignal (s : State) (sig : ℤ) (text : Text) : State :=
  if sig ≤ 0 then
    { s.say .err ("daemon_signal_next() failed: ".toList ++ text) with status := .returned }
  else if sig ∈ termSignals then
    { s.say .warning ("Interrupted by signal ".toList ++ text ++ ", shutting down".toList) with status := .returned }
  else s

/-- The branch for a topology event. -/
def State.onEvent (s : State) (event : Option TipcEvent) (linkname : Option Text) (text : Text) : State :=
  match event with
  | none => { s.say .err ("Failed to read topology event: ".toList ++ text) with status := .returned }
  | some e =>
    let (lines, ok) := logEvent d.ownNode e linkname
    { s with log := s.log ++ lines, status := if ok then .running else .exited }

/-- One round of `tipc_event_logger`. `select` finds something ready, among the descriptors it watches. -/
def step (s : State) : Label → Option State
  | .failed eintr error =>
    if s.status = .running then
      some (if eintr then s else { s.say .err ("select(): ".toList ++ error) with status := .returned })
    else none
  | .ready fds sig event linkname text =>
    if s.status = .running ∧ fds ⊆ s.fds ∧ fds ≠ ∅ then
      let s := { s with fds := fds }
      some (if d.signalFd ∈ fds then s.onSignal sig text
        else if d.topsrvSd ∈ fds then s.onEvent d event linkname text else s)
    else none

/-! ## The watched set -/

/-- `select` is called with exactly the two descriptors; then a termination signal ends the loop, and a topology event
    is logged. -/
structure Watches (s : State) : Prop where
  fds : s.fds = d.fds
  signal : ∀ sig ∈ termSignals, ∀ text, ∃ s', step d s (.ready {d.signalFd} sig none none text) = some s' ∧
    s'.status = .returned
  event : ∀ e linkname text, ∃ s', step d s (.ready {d.topsrvSd} 0 (some e) (some linkname) text) = some s' ∧
    s'.log = s.log ++ (logEvent d.ownNode e (some linkname)).1

/-- A round after which the loop goes on has left both descriptors in the set. -/
def BothReady (t : State × Label × State) : Prop :=
  match t.2.1 with
  | .failed _ _ => True
  | .ready fds _ _ _ _ => t.2.2.status = .running → fds = d.fds

instance : DecidablePred (BothReady d)
  | (_, .failed _ _, _) => .isTrue trivial
  | (_, .ready fds _ _ _ _, s') => inferInstanceAs (Decidable (s'.status = .running → fds = d.fds))

variable {d} {s s' : State}

theorem onSignal_fds (s : State) (sig : ℤ) (text : Text) : (s.onSignal sig text).fds = s.fds := by
  unfold State.onSignal
  split
  · rfl
  · split <;> rfl

theorem onEvent_fds (s : State) (event : Option TipcEvent) (linkname : Option Text) (text : Text) :
    (s.onEvent d event linkname text).fds = s.fds := by
  cases event <;> rfl

/-- What a round leaves in the set. -/
theorem step_fds {l : Label} (h : step d s l = some s') :
    s'.fds = match l with
      | .failed _ _ => s.fds
      | .ready fds _ _ _ _ => fds := by
  cases l with
  | failed eintr error =>
    obtain ⟨-, h⟩ := Option.ite_none_right_eq_some.mp h
    obtain rfl := Option.some.inj h
    cases eintr <;> rfl
  | ready fds sig event linkname text =>
    obtain ⟨-, h⟩ := Option.ite_none_right_eq_some.mp h
    obtain rfl := Option.some.inj h
    split
    · -- neither branch touches the set
      exact onSignal_fds _ sig text
    · split
      · exact onEvent_fds _ event linkname text
      · rfl

/-- A full set keeps the loop responsive. -/
theorem watches_of_fds (hrun : s.status = .running) (h : s.fds = d.fds) : Watches d s := by
  refine ⟨h, ?_, ?_⟩
  · intro sig hsig text
    -- `select` finds the signal descriptor, which is in the set
    have hready : s.status = .running ∧ {d.signalFd} ⊆ s.fds ∧ ({d.signalFd} : Finset ℤ) ≠ ∅ := by
      refine ⟨hrun, ?_, Finset.singleton_ne_empty _⟩
      rw [h, Finset.singleton_subset_iff]
      exact Finset.mem_insert_self _ _
    have hpos : ¬ sig ≤ 0 := by
      intro hle
      simp only [termSignals, List.mem_cons, List.not_mem_nil, or_false] at hsig
      omega
    refine ⟨_, if_pos hready, ?_⟩
    rw [if_pos (Finset.mem_singleton_self _), State.onSignal, if_neg hpos, if_pos hsig]
  · intro e linkname text
    -- `select` finds the topology server, and no signal
    have hready : s.status = .running ∧ {d.topsrvSd} ⊆ s.fds ∧ ({d.topsrvSd} : Finset ℤ) ≠ ∅ := by
      refine ⟨hrun, ?_, Finset.singleton_ne_empty _⟩
      rw [h, Finset.singleton_subset_iff]
      exact Finset.mem_insert_of_mem (Finset.mem_singleton_self _)
    have hne : d.signalFd ∉ ({d.topsrvSd} : Finset ℤ) := fun hmem => d.ne (Finset.mem_singleton.mp hmem)
    refine ⟨_, if_pos hready, ?_⟩
    rw [if_neg hne, if_pos (Finset.mem_singleton_self _)]
    rfl

/-- As long as the loop goes on with both, the set is full. -/
theorem fds_of_bothReady {tr : List (State × Label × State)} (h : Lts.Run (step d) (start d) tr s)
    (hb : ∀ t ∈ tr, BothReady d t) : ∀ t ∈ tr, t.2.2.status = .running → t.2.2.fds = d.fds := by
  have hinv := h.inv (I := fun s => s.status = .running → s.fds = d.fds) (C := BothReady d) (fun _ => rfl) ?_ hb
  · exact fun t ht => (hinv.2 t ht).2
  · intro s l s' _ hI hC hs hrun
    have hfds := step_fds hs
    cases l with
    | failed eintr error =>
      obtain ⟨hold, -⟩ := Option.ite_none_right_eq_some.mp hs
      rw [hfds]
      exact hI hold
    | ready fds sig event linkname text =>
      rw [hfds]
      exact hC hrun

/-- **When the loop watches both descriptors.** Every `select` of a run watches both, and with them a signal and an event
    are still handled, if and only if the run never goes on after a `select` that has not found both ready. -/
theorem watches_iff {tr : List (State × Label × State)} (h : Lts.Run (step d) (start d) tr s) :
    (∀ t ∈ tr, t.2.2.status = .running → Watches d t.2.2) ↔ ∀ t ∈ tr, BothReady d t := by
  constructor
  · rintro hw ⟨s₁, l, s₂⟩ ht
    obtain ⟨-, hs⟩ := h.step_of_mem ht
    cases l with
    | failed eintr error => trivial
    | ready fds sig event linkname text =>
      intro hrun
      -- what `select` left is what it is called with next
      rw [← (hw _ ht hrun).fds]
      exact (step_fds hs).symm
  · intro hb t ht hrun
    exact watches_of_fds hrun (fds_of_bothReady h hb t ht hrun)

/-! ## Two runs -/

def daemon : Daemon := ⟨3, 4, by decide, 0x01001001⟩

/-- Node `1.1.2` comes up. -/
def nodeUp : TipcEvent := ⟨1, 0x01001002, 0, 0x01001002, 0⟩

/-- A signal that does not end the loop comes together with an event. -/
def hangup : List Label := [.failed true [], .ready {3, 4} 1 none none []]

theorem hangup_exec : (Lts.exec (step daemon) (start daemon) hangup).isSome = true := by decide

theorem watches_iff_hangup : Watches daemon (Lts.final _ _ hangup hangup_exec) := by
  have hrun : Lts.Run (step daemon) (start daemon) (Lts.transitions (step daemon) (start daemon) hangup)
      (Lts.final _ _ hangup hangup_exec) :=
    Lts.run_of_exec (Option.some_get hangup_exec).symm
  obtain ⟨t, ht, hfinal⟩ := hrun.exists_last (by decide)
  rw [← hfinal]
  exact (watches_iff hrun).mpr (by decide) t ht (by rw [hfinal]; rfl)

/-- An event, and nothing else. -/
def oneEvent : List Label := [.ready {4} 0 (some nodeUp) none []]

theorem oneEvent_exec : (Lts.exec (step daemon) (start daemon) oneEvent).isSome = true := by decide

/-- After one event no signal is watched any more. -/
theorem watches_lost :
    ¬ ∀ (d : Daemon) (s : State), Lts.Reach (step d) (start d) s → s.status = .running → Watches d s := by
  intro h
  have hw := h daemon _ (Lts.reach_final oneEvent_exec) (by decide)
  exact absurd hw.fds (by decide)

end Tipclog
end Tipcutils
