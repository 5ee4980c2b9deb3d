import Mathlib.Algebra.Order.BigOperators.Group.Finset
import Tipcutils.Inventory.StatusTimer
import Tipcutils.Lib.Feed

/-!
# `Inventory.Pause` — the simulation is halted on all nodes

`stopSim` spawns a task that publishes the name of item 0 and waits for one message; `startSim` sends a message to the
name, and it reaches one of these tasks. Every node has its own name table, which learns of the tasks in any order and
at any time, and the topology server of the node tells its logging task when item 0 appears there and when it is gone.

A logging task is that of `Inventory.StatusTimer`; it may be started at any time, also while item 0 is published.
**`pause`** says what holds when all has been told: the open stores are halted together, as long as one
task of `stopSim` waits; and for that each `stopSim` needs a `startSim` of its own.

Not modelled: calls that fail.
-/

set_option linter.unusedSectionVars false

namespace Tipcutils
namespace Inventory
namespace Pause

open Function StatusTimer

/-! ## The tasks, the name tables and the stores -/

/-- `itemZeroTask`: not yet spawned, waiting, with the messages that have come in, or gone. -/
inductive ItemZero where
  | unborn
  | waiting (messages : ℕ)
  | gone
deriving DecidableEq

/-- All tasks of `stopSim`, what each node knows of them, and the logging task of each node. -/
structure State (ι : Type) where
  task : ℕ → ItemZero
  /-- the publications in the name table of a node -/
  visible : ι → Finset ℕ
  /-- the withdrawals that the node has seen -/
  withdrawn : ι → Finset ℕ
  logTask : ι → Option StatusTimer.State

/-- What may happen. -/
inductive Label (ι : Type) where
  | stopSim (k : ℕ)
  | startSim (k : ℕ)
  | restart (k : ℕ)
  | publish (i : ι) (k : ℕ)
  | withdraw (i : ι) (k : ℕ)
  | newSim (i : ι)
  | logTask (i : ι) (l : StatusTimer.Label)

variable {ι : Type} [DecidableEq ι]

def start : State ι := ⟨fun _ => .unborn, fun _ => ∅, fun _ => ∅, fun _ => none⟩

/-- The topology server of a node sends an event to the logging task. -/
def State.tell (s : State ι) (i : ι) (event : Event) : State ι :=
  { s with logTask := update s.logTask i ((s.logTask i).map fun st => { st with queue := st.queue ++ [event] }) }

/-- A logging task that has subscribed to item 0; it is told at once of a name that is there. -/
def State.newLogTask (s : State ι) (i : ι) : StatusTimer.State :=
  { StatusTimer.start with queue := if s.visible i = ∅ then [] else [.published] }

/-- A publication enters the name table. -/
def State.see (s : State ι) (i : ι) (k : ℕ) : State ι :=
  { s with visible := update s.visible i (insert k (s.visible i)) }

/-- A publication leaves the name table. -/
def State.forget (s : State ι) (i : ι) (k : ℕ) : State ι :=
  { s with
    visible := update s.visible i ((s.visible i).erase k)
    withdrawn := update s.withdrawn i (insert k (s.withdrawn i)) }

/-- One step. The topology server tells the first publication of the name, and the last withdrawal. -/
def step (printTrans : ι → Bool) (s : State ι) : Label ι → Option (State ι)
  | .stopSim k => if s.task k = .unborn then some { s with task := update s.task k (.waiting 0) } else none
  | .startSim k =>
    match s.task k with
    | .waiting n => some { s with task := update s.task k (.waiting (n + 1)) }
    | _ => none
  | .restart k =>
    -- one message is enough; those behind it are lost with the socket
    match s.task k with
    | .waiting (_ + 1) => some { s with task := update s.task k .gone }
    | _ => none
  | .publish i k =>
    if s.task k ≠ .unborn ∧ k ∉ s.visible i ∧ k ∉ s.withdrawn i then
      some ((if s.visible i = ∅ then s.tell i .published else s).see i k)
    else none
  | .withdraw i k =>
    if s.task k = .gone ∧ k ∈ s.visible i then
      some ((if (s.visible i).erase k = ∅ then s.tell i .withdrawn else s).forget i k)
    else none
  | .newSim i =>
    if (s.logTask i).all (fun st => st.pc = .exited) then
      some { s with logTask := update s.logTask i (some (s.newLogTask i)) }
    else none
  | .logTask i l =>
    match l with
    | .publish | .withdraw => none
    | l => ((s.logTask i).bind fun st => StatusTimer.step (printTrans i) st l).map fun st =>
        { s with logTask := update s.logTask i (some st) }

/-! ## What a logging task has been told -/

/-- The events change whether item 0 is there, and the expiry of a timer does not. -/
def item0 : Bool → Event → Option Bool
  | isThere, .timeout _ => some isThere
  | false, .published => some true
  | true, .withdrawn => some false
  | _, _ => none

/-- As long as the store is open, the task is halted if item 0 was there at the last event that it has read. -/
def Told (st : StatusTimer.State) (isThere : Bool) : Prop :=
  st.pc ≠ .exited → st.store.simState = .storeOpen → Feed.Follows item0 (decide (st.pc = .halted)) st.queue isThere

variable {pt : Bool} {st st' : StatusTimer.State} {isThere isThere' : Bool}

theorem told_tell {event : Event} (h : Told st isThere) (hevent : item0 isThere event = some isThere') :
    Told { st with queue := st.queue ++ [event] } isThere' :=
  fun hrun hopen => (h hrun hopen).push hevent

/-- A store that is open after a transaction has been open before. -/
theorem process_open {store : Store} {transaction : Option Transaction} {after : AfterTransaction}
    (h : process pt store transaction = some after) (hopen : after.store.simState = .storeOpen) :
    store.simState = .storeOpen := by
  have hswitch (st : Store) (hopen : (afterTransaction st).store.simState = .storeOpen) : st.simState = .storeOpen := by
    obtain ⟨-, -, hafter⟩ | hafter := afterTransaction_cases st
    · rw [hafter] at hopen
      nomatch hopen
    · rwa [hafter] at hopen
  cases transaction with
  | none =>
    obtain rfl := Option.some.inj h
    exact hopen
  | some transaction =>
    cases transaction with
    | failed =>
      obtain rfl := Option.some.inj h
      exact hswitch store hopen
    | received msg =>
      obtain ⟨r, hr, rfl⟩ := Option.map_eq_some_iff.mp h
      have hstate := hswitch r.store hopen
      rw [logTransaction_simState hr] at hstate
      split at hstate
      · nomatch hstate
      · nomatch hstate
      · exact hstate

/-- What follows the transaction in the inner loop. -/
theorem told_handle (hpc : st.pc = .waiting) (h : Told st isThere) : Told st.handle isThere := by
  unfold State.handle
  split
  · exact h
  · next event queue hqueue =>
    dsimp only
    split
    next hshut => exact fun _ hopen => absurd hopen hshut
    next hopen =>
      have hfollows := h (by rw [hpc]; decide) (not_not.mp hopen)
      rw [hqueue, hpc] at hfollows
      obtain ⟨view, hview, hrest⟩ := hfollows.pop
      cases event with
      | published =>
        obtain rfl := Option.some.inj hview
        exact fun _ _ => hrest
      | withdrawn => nomatch hview
      | timeout t =>
        obtain rfl := Option.some.inj hview
        dsimp only
        split
        · exact fun _ _ => hrest
        · intro _ _
          show Feed.Follows item0 (decide (st.pc = .halted)) queue isThere
          rwa [hpc]

theorem told_step {l : StatusTimer.Label} (hl : l ≠ .publish ∧ l ≠ .withdraw) (h : Told st isThere)
    (hs : StatusTimer.step pt st l = some st') : Told st' isThere := by
  cases l with
  | publish => exact absurd rfl hl.1
  | withdraw => exact absurd rfl hl.2
  | expire n =>
    obtain ⟨t, -, rfl⟩ := Option.map_eq_some_iff.mp hs
    exact told_tell h rfl
  | select transaction =>
    obtain ⟨hpc, after, hafter, rfl⟩ := step_select hs
    split
    · exact fun hrun _ => absurd rfl hrun
    · refine told_handle hpc ?_
      intro _ hopen
      exact h (by rw [hpc]; decide) (process_open hafter hopen)
  | recvHalted =>
    simp only [StatusTimer.step] at hs
    split at hs
    next queue hpc hqueue =>
      obtain rfl := Option.some.inj hs
      intro _ hopen
      have hfollows := h (by rw [hpc]; decide) hopen
      rw [hqueue, hpc] at hfollows
      obtain ⟨view, hview, hrest⟩ := hfollows.pop
      obtain rfl := Option.some.inj hview
      exact hrest
    next event queue hother hpc hqueue =>
      obtain rfl := Option.some.inj hs
      intro _ hopen
      have hfollows := h (by rw [hpc]; decide) hopen
      rw [hqueue, hpc] at hfollows
      obtain ⟨view, hview, hrest⟩ := hfollows.pop
      cases event with
      | published => cases hview
      | withdrawn => exact (hother rfl).elim
      | timeout t =>
        obtain rfl := Option.some.inj hview
        show Feed.Follows item0 (decide (st.pc = .halted)) queue isThere
        rwa [hpc]
    next => cases hs

/-! ## The invariant -/

/-- Item 0 is in a name table. -/
def listed (visible : Finset ℕ) : Bool := decide (visible ≠ ∅)

/-- The logging tasks are told of the name tables, and these follow the tasks of `stopSim`. -/
structure Inv (s : State ι) : Prop where
  told : ∀ i st, s.logTask i = some st → Told st (listed (s.visible i))
  born : ∀ i k, k ∈ s.visible i → s.task k ≠ .unborn
  gone : ∀ i k, k ∈ s.withdrawn i → s.task k = .gone

variable {printTrans : ι → Bool} {s s' : State ι} {l : Label ι} {i : ι} {k : ℕ}

theorem inv_start : Inv (start : State ι) where
  told := fun _ _ hst => absurd hst (Option.some_ne_none _).symm
  born := fun _ k hk => absurd hk (Finset.notMem_empty k)
  gone := fun _ k hk => absurd hk (Finset.notMem_empty k)

/-- A task that goes on: it is born, and what is gone stays gone. -/
theorem Inv.task (h : Inv s) {t : ItemZero} (hborn : t ≠ .unborn) (hgone : s.task k ≠ .gone) :
    Inv { s with task := update s.task k t } where
  told := h.told
  born := by
    intro i k' hk'
    dsimp only
    rcases eq_or_ne k' k with rfl | hne
    · rwa [update_self]
    · rw [update_of_ne hne]
      exact h.born i k' hk'
  gone := by
    intro i k' hk'
    have hold := h.gone i k' hk'
    have hne : k' ≠ k := by
      rintro rfl
      exact hgone hold
    rw [← hold]
    exact update_of_ne hne _ _

/-- A change at one node. -/
theorem Inv.node (h : Inv s) (i : ι) (logTask : Option StatusTimer.State) (visible withdrawn : Finset ℕ)
    (htold : ∀ st, logTask = some st → Told st (listed visible))
    (hborn : ∀ k ∈ visible, s.task k ≠ .unborn) (hgone : ∀ k ∈ withdrawn, s.task k = .gone) :
    Inv ⟨s.task, update s.visible i visible, update s.withdrawn i withdrawn, update s.logTask i logTask⟩ where
  told := by
    intro j st hst
    dsimp only at hst ⊢
    rcases eq_or_ne j i with rfl | hne
    · rw [update_self] at hst ⊢
      exact htold st hst
    · rw [update_of_ne hne] at hst ⊢
      exact h.told j st hst
  born := by
    intro j k hk
    dsimp only at hk ⊢
    rcases eq_or_ne j i with rfl | hne
    · rw [update_self] at hk
      exact hborn k hk
    · rw [update_of_ne hne] at hk
      exact h.born j k hk
  gone := by
    intro j k hk
    dsimp only at hk ⊢
    rcases eq_or_ne j i with rfl | hne
    · rw [update_self] at hk
      exact hgone k hk
    · rw [update_of_ne hne] at hk
      exact h.gone j k hk

/-- What the logging task has been told when one more event has come. -/
theorem told_map_tell {task : Option StatusTimer.State} {event : Event} (h : ∀ st, task = some st → Told st isThere)
    (hevent : item0 isThere event = some isThere') :
    ∀ st, task.map (fun st => { st with queue := st.queue ++ [event] }) = some st → Told st isThere' := by
  intro st' hst'
  obtain ⟨st, hst, rfl⟩ := Option.map_eq_some_iff.mp hst'
  exact told_tell (h st hst) hevent

/-- The logging task is told of the first publication, and of no other. -/
theorem Inv.see (h : Inv s) (hborn : s.task k ≠ .unborn) :
    Inv ((if s.visible i = ∅ then s.tell i .published else s).see i k) := by
  have hlisted : listed (insert k (s.visible i)) = true := decide_eq_true (Finset.insert_ne_empty _ _)
  have hall : ∀ k' ∈ insert k (s.visible i), s.task k' ≠ .unborn := by
    intro k' hk'
    rcases Finset.mem_insert.mp hk' with rfl | hold
    · exact hborn
    · exact h.born i k' hold
  split
  next hnone =>
    have hevent : item0 (listed (s.visible i)) .published = some (listed (insert k (s.visible i))) := by
      rw [hlisted, hnone]
      rfl
    have hnode := h.node i _ _ (s.withdrawn i) (told_map_tell (h.told i) hevent) hall (h.gone i)
    rwa [update_eq_self i s.withdrawn] at hnode
  next hsome =>
    have hsame : listed (s.visible i) = listed (insert k (s.visible i)) := by rw [hlisted, listed, decide_eq_true hsome]
    have hnode := h.node i (s.logTask i) (insert k (s.visible i)) (s.withdrawn i) (hsame ▸ h.told i) hall (h.gone i)
    rwa [update_eq_self i s.withdrawn, update_eq_self i s.logTask] at hnode

/-- It is told of the last withdrawal, and of no other. -/
theorem Inv.forget (h : Inv s) (hgone : s.task k = .gone) (hk : k ∈ s.visible i) :
    Inv ((if (s.visible i).erase k = ∅ then s.tell i .withdrawn else s).forget i k) := by
  have hlisted : listed (s.visible i) = true := decide_eq_true (Finset.ne_empty_of_mem hk)
  have hborn : ∀ k' ∈ (s.visible i).erase k, s.task k' ≠ .unborn :=
    fun k' hk' => h.born i k' (Finset.mem_of_mem_erase hk')
  have hall : ∀ k' ∈ insert k (s.withdrawn i), s.task k' = .gone := by
    intro k' hk'
    rcases Finset.mem_insert.mp hk' with rfl | hold
    · exact hgone
    · exact h.gone i k' hold
  split
  next hnone =>
    have hevent : item0 (listed (s.visible i)) .withdrawn = some (listed ((s.visible i).erase k)) := by
      rw [hlisted, hnone]
      rfl
    exact h.node i _ _ _ (told_map_tell (h.told i) hevent) hborn hall
  next hsome =>
    have hsame : listed (s.visible i) = listed ((s.visible i).erase k) := by rw [hlisted, listed, decide_eq_true hsome]
    have hnode := h.node i (s.logTask i) ((s.visible i).erase k) _ (hsame ▸ h.told i) hborn hall
    rwa [update_eq_self i s.logTask] at hnode

/-- A change of the logging task alone. -/
theorem Inv.logTask (h : Inv s) {st : StatusTimer.State} (hst : Told st (listed (s.visible i))) :
    Inv { s with logTask := update s.logTask i (some st) } := by
  have hnode := h.node i (some st) (s.visible i) (s.withdrawn i)
    (fun _ hst' => Option.some.inj hst' ▸ hst) (h.born i) (h.gone i)
  rwa [update_eq_self i s.visible, update_eq_self i s.withdrawn] at hnode

theorem Inv.step (h : Inv s) (hs : step printTrans s l = some s') : Inv s' := by
  cases l with
  | stopSim k =>
    obtain ⟨hk, hs⟩ := Option.ite_none_right_eq_some.mp hs
    obtain rfl := Option.some.inj hs
    exact h.task nofun (by rw [hk]; nofun)
  | startSim k =>
    simp only [Pause.step] at hs
    split at hs
    next hk =>
      obtain rfl := Option.some.inj hs
      exact h.task nofun (by rw [hk]; nofun)
    next => nomatch hs
  | restart k =>
    simp only [Pause.step] at hs
    split at hs
    next hk =>
      obtain rfl := Option.some.inj hs
      exact h.task nofun (by rw [hk]; nofun)
    next => nomatch hs
  | publish i k =>
    obtain ⟨⟨hk, -, -⟩, hs⟩ := Option.ite_none_right_eq_some.mp hs
    obtain rfl := Option.some.inj hs
    exact h.see hk
  | withdraw i k =>
    obtain ⟨⟨hk, hmem⟩, hs⟩ := Option.ite_none_right_eq_some.mp hs
    obtain rfl := Option.some.inj hs
    exact h.forget hk hmem
  | newSim i =>
    obtain ⟨-, hs⟩ := Option.ite_none_right_eq_some.mp hs
    obtain rfl := Option.some.inj hs
    refine h.logTask fun _ _ => ?_
    by_cases hnone : s.visible i = ∅
    · rw [State.newLogTask, if_pos hnone, hnone]
      rfl
    · rw [State.newLogTask, if_neg hnone, listed, decide_eq_true hnone]
      rfl
  | logTask i l =>
    have hmove (hl : l ≠ .publish ∧ l ≠ .withdraw)
        (hs : (((s.logTask i).bind fun st => StatusTimer.step (printTrans i) st l).map fun st =>
          { s with logTask := update s.logTask i (some st) }) = some s') : Inv s' := by
      obtain ⟨st', hst', rfl⟩ := Option.map_eq_some_iff.mp hs
      obtain ⟨st, hst, hstep⟩ := Option.bind_eq_some_iff.mp hst'
      exact h.logTask (told_step hl (h.told i st hst) hstep)
    cases l with
    | publish => nomatch hs
    | withdraw => nomatch hs
    | expire n => exact hmove ⟨nofun, nofun⟩ hs
    | select transaction => exact hmove ⟨nofun, nofun⟩ hs
    | recvHalted => exact hmove ⟨nofun, nofun⟩ hs

/-! ## What happens by itself -/

/-- What the system does without a command, a transaction or the expiry of a timer. -/
def Label.inner : Label ι → Bool
  | .restart _ | .publish _ _ | .withdraw _ _ | .logTask _ (.select none) | .logTask _ .recvHalted => true
  | _ => false

/-- One step of this kind. -/
def settle (printTrans : ι → Bool) (s : State ι) (l : Label ι) : Option (State ι) :=
  if l.inner then step printTrans s l else none

/-- All tasks that have been spawned. -/
def Born (tasks : Finset ℕ) (s : State ι) : Prop := ∀ k, s.task k ≠ .unborn → k ∈ tasks

/-- Whether the task has a message. -/
def ItemZero.pending : ItemZero → ℕ
  | .waiting (_ + 1) => 1
  | _ => 0

/-- What one node has before it: a task that it learns of, then the withdrawal, and the event that either may cause. -/
def nodeRank (tasks : Finset ℕ) (s : State ι) (i : ι) : ℕ :=
  4 * (tasks.filter fun k => k ∉ s.visible i ∧ k ∉ s.withdrawn i).card + 2 * (s.visible i).card +
    (s.logTask i).elim 0 fun st => st.queue.length

def rank [Fintype ι] (tasks : Finset ℕ) (s : State ι) : ℕ :=
  ∑ k ∈ tasks, (s.task k).pending + ∑ i, nodeRank tasks s i

variable {tasks : Finset ℕ}

/-- A change at one node. -/
theorem rank_of_node [Fintype ι] (htask : s'.task = s.task)
    (hother : ∀ j, j ≠ i → s'.visible j = s.visible j ∧ s'.withdrawn j = s.withdrawn j ∧ s'.logTask j = s.logTask j)
    (hi : nodeRank tasks s' i < nodeRank tasks s i) : rank tasks s' < rank tasks s := by
  rw [rank, rank, htask]
  apply Nat.add_lt_add_left
  apply Finset.sum_lt_sum
  · intro j _
    rcases eq_or_ne j i with rfl | hne
    · exact hi.le
    · obtain ⟨hvisible, hwithdrawn, hlogTask⟩ := hother j hne
      rw [nodeRank, nodeRank, hvisible, hwithdrawn, hlogTask]
  · exact ⟨i, Finset.mem_univ i, hi⟩

/-- What is told is one event. -/
theorem elim_tell_le (task : Option StatusTimer.State) (event : Event) :
    ((task.map fun st => { st with queue := st.queue ++ [event] }).elim 0 fun st => st.queue.length) ≤
      (task.elim 0 fun st => st.queue.length) + 1 := by
  cases task with
  | none => exact Nat.zero_le _
  | some st => exact (List.length_append ..).le

theorem nodeRank_see (hk : k ∈ tasks) (hunseen : k ∉ s.visible i ∧ k ∉ s.withdrawn i) :
    nodeRank tasks ((if s.visible i = ∅ then s.tell i .published else s).see i k) i < nodeRank tasks s i := by
  have hmem : k ∈ tasks.filter fun k => k ∉ s.visible i ∧ k ∉ s.withdrawn i := Finset.mem_filter.mpr ⟨hk, hunseen⟩
  have hfilter : (tasks.filter fun k' => k' ∉ insert k (s.visible i) ∧ k' ∉ s.withdrawn i) =
      (tasks.filter fun k => k ∉ s.visible i ∧ k ∉ s.withdrawn i).erase k := by
    ext k'
    simp only [Finset.mem_filter, Finset.mem_erase, Finset.mem_insert, not_or]
    tauto
  have hcard := Finset.card_erase_add_one hmem
  have hinsert := Finset.card_insert_of_notMem hunseen.1
  have htell := elim_tell_le (s.logTask i) .published
  split
  · simp only [nodeRank, State.see, State.tell, update_self, hfilter]
    omega
  · simp only [nodeRank, State.see, update_self, hfilter]
    omega

theorem nodeRank_forget (tasks : Finset ℕ) (hk : k ∈ s.visible i) :
    nodeRank tasks ((if (s.visible i).erase k = ∅ then s.tell i .withdrawn else s).forget i k) i <
      nodeRank tasks s i := by
  have hfilter : (tasks.filter fun k' => k' ∉ (s.visible i).erase k ∧ k' ∉ insert k (s.withdrawn i)) =
      tasks.filter fun k => k ∉ s.visible i ∧ k ∉ s.withdrawn i := by
    ext k'
    simp only [Finset.mem_filter, Finset.mem_erase, Finset.mem_insert, not_or, not_and]
    grind
  have hcard := Finset.card_erase_add_one hk
  have htell := elim_tell_le (s.logTask i) .withdrawn
  split
  · simp only [nodeRank, State.forget, State.tell, update_self, hfilter]
    omega
  · simp only [nodeRank, State.forget, update_self, hfilter]
    omega

/-- A logging task that reads an event has one less before it. -/
theorem queue_lt {l : StatusTimer.Label} (hl : l = .select none ∨ l = .recvHalted)
    (hs : StatusTimer.step pt st l = some st') : st'.queue.length < st.queue.length := by
  rcases hl with rfl | rfl
  · simp only [StatusTimer.step] at hs
    split at hs
    next hready =>
      obtain ⟨event, queue, hqueue⟩ := List.exists_cons_of_ne_nil (hready.2.resolve_left Bool.false_ne_true)
      obtain rfl := Option.some.inj hs
      have hhandle : st.handle.queue = queue := by
        simp only [State.handle, hqueue]
        split
        · rfl
        · cases event with
          | published => rfl
          | withdrawn => rfl
          | timeout t =>
            dsimp only
            split <;> rfl
      show st.handle.queue.length < st.queue.length
      rw [hhandle, hqueue]
      exact Nat.lt_succ_self _
    next => cases hs
  · simp only [StatusTimer.step] at hs
    split at hs
    next hqueue =>
      obtain rfl := Option.some.inj hs
      rw [hqueue]
      exact Nat.lt_succ_self _
    next hqueue =>
      obtain rfl := Option.some.inj hs
      rw [hqueue]
      exact Nat.lt_succ_self _
    next => cases hs

/-- What happens by itself comes to an end. -/
theorem settle_rank [Fintype ι] (h : Born tasks s) (hs : settle printTrans s l = some s') :
    Born tasks s' ∧ rank tasks s' < rank tasks s := by
  obtain ⟨hinner, hs⟩ := Option.ite_none_right_eq_some.mp hs
  have hmove (i : ι) (l : StatusTimer.Label) (hl : l = .select none ∨ l = .recvHalted)
      (hs : (((s.logTask i).bind fun st => StatusTimer.step (printTrans i) st l).map fun st =>
        { s with logTask := update s.logTask i (some st) }) = some s') :
      Born tasks s' ∧ rank tasks s' < rank tasks s := by
    obtain ⟨st', hst', rfl⟩ := Option.map_eq_some_iff.mp hs
    obtain ⟨st, hst, hstep⟩ := Option.bind_eq_some_iff.mp hst'
    refine ⟨h, rank_of_node (i := i) rfl (fun j hne => ⟨rfl, rfl, update_of_ne hne _ _⟩) ?_⟩
    have hlt := queue_lt hl hstep
    simp only [nodeRank, update_self, hst, Option.elim_some]
    omega
  cases l with
  | stopSim k => nomatch hinner
  | startSim k => nomatch hinner
  | newSim i => nomatch hinner
  | restart k =>
    simp only [step] at hs
    split at hs
    next n hk =>
      obtain rfl := Option.some.inj hs
      have hmem : k ∈ tasks := h k (by rw [hk]; nofun)
      refine ⟨?_, Nat.add_lt_add_right ?_ _⟩
      · intro k' hk'
        dsimp only at hk'
        rcases eq_or_ne k' k with rfl | hne
        · exact hmem
        · rw [update_of_ne hne] at hk'
          exact h k' hk'
      · apply Finset.sum_lt_sum
        · intro k' _
          dsimp only
          rcases eq_or_ne k' k with rfl | hne
          · rw [update_self]
            exact Nat.zero_le _
          · rw [update_of_ne hne]
        · refine ⟨k, hmem, ?_⟩
          dsimp only
          rw [update_self, hk]
          exact Nat.zero_lt_one
    next => nomatch hs
  | publish i k =>
    obtain ⟨⟨hk, hunseen⟩, hs⟩ := Option.ite_none_right_eq_some.mp hs
    obtain rfl := Option.some.inj hs
    have hlt := nodeRank_see (h k hk) hunseen
    split at hlt
    next hnone =>
      rw [if_pos hnone]
      exact ⟨h, rank_of_node rfl (fun j hne => ⟨update_of_ne hne _ _, rfl, update_of_ne hne _ _⟩) hlt⟩
    next hsome =>
      rw [if_neg hsome]
      exact ⟨h, rank_of_node rfl (fun j hne => ⟨update_of_ne hne _ _, rfl, rfl⟩) hlt⟩
  | withdraw i k =>
    obtain ⟨⟨-, hk⟩, hs⟩ := Option.ite_none_right_eq_some.mp hs
    obtain rfl := Option.some.inj hs
    have hlt := nodeRank_forget tasks hk
    split at hlt
    next hnone =>
      rw [if_pos hnone]
      exact ⟨h, rank_of_node rfl
        (fun j hne => ⟨update_of_ne hne _ _, update_of_ne hne _ _, update_of_ne hne _ _⟩) hlt⟩
    next hsome =>
      rw [if_neg hsome]
      exact ⟨h, rank_of_node rfl (fun j hne => ⟨update_of_ne hne _ _, update_of_ne hne _ _, rfl⟩) hlt⟩
  | logTask i l =>
    cases l with
    | publish => nomatch hinner
    | withdraw => nomatch hinner
    | expire n => nomatch hinner
    | recvHalted => exact hmove i _ (.inr rfl) hs
    | select transaction =>
      cases transaction with
      | none => exact hmove i _ (.inl rfl) hs
      | some transaction => nomatch hinner

/-! ## When nothing more happens by itself -/

theorem step_of_quiet (hquiet : ∀ l, settle printTrans s l = none) (hinner : l.inner = true) :
    step printTrans s l = none := by
  have h := hquiet l
  rwa [settle, if_pos hinner] at h

/-- An open store has read all that it has been told. -/
theorem queue_of_quiet (hquiet : ∀ l, settle printTrans s l = none) {st : StatusTimer.State}
    (hst : s.logTask i = some st) (hrun : st.pc ≠ .exited) : st.queue = [] := by
  have hnone (l : StatusTimer.Label) (hl : l = .select none ∨ l = .recvHalted) :
      StatusTimer.step (printTrans i) st l = none := by
    have hinner : (Label.logTask i l).inner = true := by rcases hl with rfl | rfl <;> rfl
    have h := step_of_quiet hquiet hinner
    rw [step, hst] at h
    · exact Option.map_eq_none_iff.mp h
    all_goals rcases hl with rfl | rfl <;> nofun
  by_contra hqueue
  cases hpc : st.pc with
  | waiting =>
    have h := hnone _ (.inl rfl)
    rw [StatusTimer.step, if_pos ⟨hpc, .inr hqueue⟩] at h
    cases h
  | halted =>
    have h := hnone _ (.inr rfl)
    obtain ⟨event, queue, hqueue⟩ := List.exists_cons_of_ne_nil hqueue
    rw [StatusTimer.step, hpc, hqueue] at h
    cases event <;> cases h
  | exited => exact hrun hpc

/-- A name table shows item 0 if and only if a task waits. -/
theorem visible_of_quiet (h : Inv s) (hquiet : ∀ l, settle printTrans s l = none) :
    s.visible i ≠ ∅ ↔ ∃ k n, s.task k = .waiting n := by
  constructor
  · intro hsome
    obtain ⟨k, hk⟩ := Finset.nonempty_iff_ne_empty.mpr hsome
    cases htask : s.task k with
    | unborn => exact absurd htask (h.born i k hk)
    | waiting n => exact ⟨k, n, htask⟩
    | gone =>
      have hnone : step printTrans s (.withdraw i k) = none := step_of_quiet hquiet rfl
      rw [step, if_pos ⟨htask, hk⟩] at hnone
      nomatch hnone
  · rintro ⟨k, n, htask⟩
    have hborn : s.task k ≠ .unborn := by rw [htask]; nofun
    have hstays : k ∉ s.withdrawn i := by
      intro hk
      have hgone := h.gone i k hk
      rw [htask] at hgone
      nomatch hgone
    by_contra hnone
    have hnot : k ∉ s.visible i := by
      rw [hnone]
      exact Finset.notMem_empty k
    have hpublish : step printTrans s (.publish i k) = none := step_of_quiet hquiet rfl
    rw [step, if_pos ⟨hborn, hnot, hstays⟩] at hpublish
    nomatch hpublish

theorem halted_of_quiet (h : Inv s) (hquiet : ∀ l, settle printTrans s l = none) {st : StatusTimer.State}
    (hst : s.logTask i = some st) (hrun : st.pc ≠ .exited) (hopen : st.store.simState = .storeOpen) :
    st.pc = .halted ↔ ∃ k n, s.task k = .waiting n := by
  have hfollows := h.told i st hst hrun hopen
  rw [queue_of_quiet hquiet hst hrun] at hfollows
  have heq : decide (st.pc = .halted) = decide (s.visible i ≠ ∅) := hfollows.eq_of_idle (List.forall_mem_nil _)
  rw [← visible_of_quiet h hquiet, ← decide_eq_decide]
  exact heq

/-! ## Commands -/

/-- The task that a `stopSim` spawns. -/
def Label.stopped : Label ι → Option ℕ
  | .stopSim k => some k
  | _ => none

/-- The task that the message of a `startSim` reaches. -/
def Label.started : Label ι → Option ℕ
  | .startSim k => some k
  | _ => none

/-- Every task has been spawned by a `stopSim` of its own, and has got its messages from `startSim`. -/
structure Commanded (s : State ι) (ls : List (Label ι)) : Prop where
  nodup : (ls.filterMap Label.stopped).Nodup
  stopped : ∀ k, k ∈ ls.filterMap Label.stopped ↔ s.task k ≠ .unborn
  started : ∀ k, (s.task k = .gone ∨ ∃ n, s.task k = .waiting (n + 1)) → k ∈ ls.filterMap Label.started

/-- A step that is no `stopSim`, and changes no task but `k`, which has got a message. -/
theorem Commanded.task {ls : List (Label ι)} (h : Commanded s ls) {t : ItemZero} (hborn : t ≠ .unborn)
    (hold : s.task k ≠ .unborn) (hstopped : l.stopped = none) (hstarted : k ∈ (l :: ls).filterMap Label.started) :
    Commanded { s with task := update s.task k t } (l :: ls) where
  nodup := by
    rw [List.filterMap_cons_none hstopped]
    exact h.nodup
  stopped := by
    intro k'
    rw [List.filterMap_cons_none hstopped, h.stopped k']
    dsimp only
    rcases eq_or_ne k' k with rfl | hne
    · rw [update_self]
      exact iff_of_true hold hborn
    · rw [update_of_ne hne]
  started := by
    intro k' hk'
    dsimp only at hk'
    rcases eq_or_ne k' k with rfl | hne
    · exact hstarted
    · rw [update_of_ne hne] at hk'
      exact (List.sublist_cons_self l ls).filterMap _ |>.subset (h.started k' hk')

/-- A step that is no command, and changes no task. -/
theorem Commanded.other {ls : List (Label ι)} (h : Commanded s ls) (hstopped : l.stopped = none)
    (hstarted : l.started = none) (htask : s'.task = s.task) : Commanded s' (l :: ls) where
  nodup := by
    rw [List.filterMap_cons_none hstopped]
    exact h.nodup
  stopped := by
    rw [List.filterMap_cons_none hstopped, htask]
    exact h.stopped
  started := by
    rw [List.filterMap_cons_none hstarted, htask]
    exact h.started

theorem Commanded.step {ls : List (Label ι)} (h : Commanded s ls) (hs : step printTrans s l = some s') :
    Commanded s' (l :: ls) := by
  cases l with
  | stopSim k =>
    obtain ⟨hk, hs⟩ := Option.ite_none_right_eq_some.mp hs
    obtain rfl := Option.some.inj hs
    have hfresh : k ∉ ls.filterMap Label.stopped := fun hmem => (h.stopped k).mp hmem hk
    refine ⟨List.nodup_cons.mpr ⟨hfresh, h.nodup⟩, ?_, ?_⟩
    · intro k'
      show k' ∈ k :: ls.filterMap Label.stopped ↔ update s.task k (.waiting 0) k' ≠ .unborn
      rcases eq_or_ne k' k with rfl | hne
      · rw [update_self]
        exact iff_of_true List.mem_cons_self nofun
      · rw [update_of_ne hne, List.mem_cons, h.stopped k', or_iff_right hne]
    · intro k' hk'
      dsimp only at hk'
      rcases eq_or_ne k' k with rfl | hne
      · rw [update_self] at hk'
        rcases hk' with hgone | ⟨n, hn⟩
        · nomatch hgone
        · nomatch hn
      · rw [update_of_ne hne] at hk'
        exact h.started k' hk'
  | startSim k =>
    simp only [Pause.step] at hs
    split at hs
    next hk =>
      obtain rfl := Option.some.inj hs
      exact h.task nofun (by rw [hk]; nofun) rfl List.mem_cons_self
    next => nomatch hs
  | restart k =>
    simp only [Pause.step] at hs
    split at hs
    next n hk =>
      obtain rfl := Option.some.inj hs
      exact h.task nofun (by rw [hk]; nofun) rfl (h.started k (.inr ⟨n, hk⟩))
    next => nomatch hs
  | publish i k =>
    obtain ⟨-, hs⟩ := Option.ite_none_right_eq_some.mp hs
    obtain rfl := Option.some.inj hs
    refine h.other rfl rfl ?_
    split <;> rfl
  | withdraw i k =>
    obtain ⟨-, hs⟩ := Option.ite_none_right_eq_some.mp hs
    obtain rfl := Option.some.inj hs
    refine h.other rfl rfl ?_
    split <;> rfl
  | newSim i =>
    obtain ⟨-, hs⟩ := Option.ite_none_right_eq_some.mp hs
    obtain rfl := Option.some.inj hs
    exact h.other rfl rfl rfl
  | logTask i l =>
    have hmove (hs : (((s.logTask i).bind fun st => StatusTimer.step (printTrans i) st l).map fun st =>
        { s with logTask := update s.logTask i (some st) }) = some s') : s'.task = s.task := by
      obtain ⟨st', -, rfl⟩ := Option.map_eq_some_iff.mp hs
      rfl
    refine h.other rfl rfl ?_
    cases l with
    | publish => nomatch hs
    | withdraw => nomatch hs
    | expire n => exact hmove hs
    | select transaction => exact hmove hs
    | recvHalted => exact hmove hs

/-- Where no task waits, there have been as many `startSim`s as `stopSim`s, or more. -/
theorem Commanded.length_le {ls : List (Label ι)} (h : Commanded s ls) (hnone : ∀ k n, s.task k ≠ .waiting n) :
    (ls.filterMap Label.stopped).length ≤ (ls.filterMap Label.started).length := by
  refine (List.subperm_of_subset h.nodup ?_).length_le
  intro k hk
  refine h.started k (.inl ?_)
  cases htask : s.task k with
  | unborn => exact absurd htask ((h.stopped k).mp hk)
  | waiting n => exact absurd htask (hnone k n)
  | gone => rfl

/-! ## Runs -/

/-- **The simulation is halted on all nodes.** Whatever has happened, what happens then by itself comes to an end; and
    when it has, an open store is halted if and only if a task of some `stopSim` waits. When none does, there have been
    as many `startSim`s as `stopSim`s, or more. -/
theorem pause [Fintype ι] (printTrans : ι → Bool) (ls : List (Label ι)) (s : State ι)
    (h : Lts.exec (step printTrans) start ls = some s) :
    (∃ bound, ∀ ls' s', Lts.exec (settle printTrans) s ls' = some s' → ls'.length ≤ bound ∧
      ((∀ l, settle printTrans s' l = none) → ∀ i st, s'.logTask i = some st → st.pc ≠ .exited →
        st.store.simState = .storeOpen → (st.pc = .halted ↔ ∃ k n, s'.task k = .waiting n))) ∧
    ((∀ k n, s.task k ≠ .waiting n) →
      (ls.filterMap Label.stopped).length ≤ (ls.filterMap Label.started).length) := by
  have hcommanded : Commanded s (ls.foldl (fun r l => l :: r) []) :=
    Lts.exec_record (fun _ _ _ _ h hs => h.step hs) ⟨List.nodup_nil, by simp [start], by simp [start]⟩ h
  have hinv : Inv s := (Lts.reach_of_exec h).inv inv_start fun _ _ _ h hs => h.step hs
  rw [List.foldl_flip_cons_eq_append', List.append_nil] at hcommanded
  refine ⟨⟨rank (ls.reverse.filterMap Label.stopped).toFinset s, ?_⟩, ?_⟩
  · intro ls' s' hs'
    have hborn : Born (ls.reverse.filterMap Label.stopped).toFinset s :=
      fun k hk => List.mem_toFinset.mpr ((hcommanded.stopped k).mpr hk)
    have hlen := Lts.exec_rank (fun _ _ _ h hs => settle_rank h hs) hborn hs'
    have hinv' : Inv s' := (Lts.reach_of_exec hs').inv hinv fun _ _ _ h hs =>
      h.step (Option.ite_none_right_eq_some.mp hs).2
    exact ⟨(Nat.le_add_right _ _).trans hlen, fun hquiet i st hst => halted_of_quiet hinv' hquiet hst⟩
  · intro hnone
    have hle := hcommanded.length_le hnone
    rwa [List.filterMap_reverse, List.filterMap_reverse, List.length_reverse, List.length_reverse] at hle

/-- A store on each of two nodes; two `stopSim`s are seen in different orders, and one of their tasks is restarted. -/
def twoStops : List (Label Bool) :=
  [.newSim true, .stopSim 0, .stopSim 1, .publish true 0, .logTask true (.select none), .publish false 1, .newSim false,
    .startSim 0, .restart 0, .publish true 1, .withdraw true 0, .logTask false (.select none), .publish false 0,
    .withdraw false 0]

theorem twoStops_runs : (Lts.exec (step fun _ => true) start twoStops).isSome = true := by decide

/-- The other one keeps both stores halted. -/
theorem pause_twoStops : ∃ bound, ∀ ls' s',
    Lts.exec (settle fun _ => true) (Lts.final _ _ twoStops twoStops_runs) ls' = some s' → ls'.length ≤ bound ∧
      ((∀ l, settle (fun _ => true) s' l = none) → ∀ i st, s'.logTask i = some st → st.pc ≠ .exited →
        st.store.simState = .storeOpen → (st.pc = .halted ↔ ∃ k n, s'.task k = .waiting n)) :=
  (pause (fun _ => true) twoStops _ (Option.some_get twoStops_runs).symm).1

end Pause
end Inventory
end Tipcutils
