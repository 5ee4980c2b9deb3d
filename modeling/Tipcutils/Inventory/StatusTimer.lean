import Tipcutils.Inventory.LogTask
import Tipcutils.Lib.Lts

/-!
# `Inventory.StatusTimer` — the status timer of the logging task

Each iteration of the outer loop of `simLogTask` issues a timer subscription; the inner loop is left when that timer
expires, or when item 0 is published. An iteration that item 0 has ended leaves its timer outstanding, and the expiries are
told apart by one byte, `usr_handle[0]`, which is counted up for every subscription.

**`stale_ignored_iff`** says when the expiries of earlier iterations are ignored: as long as none of them is received just
256 iterations after its own, or a multiple of it. **`stale_not_ignored`** is a run in which one is.

Not modelled: the output, and calls that fail, which end the task (but for those of `logTransaction`, which do not).
-/

namespace Tipcutils
namespace Inventory
namespace StatusTimer

open Lts

/-! ## The loops -/

/-- A subscription that the task has sent: which one it is, and its `usr_handle[0]`, which counts them in one byte. -/
structure Subscr where
  serial : ℕ
  usrHandle : UInt8
  counted : usrHandle = UInt8.ofNat serial

/-- The subscription for item 0; its `usr_handle[0]` is 0. -/
def Subscr.item0 : Subscr := ⟨0, 0, rfl⟩

/-- `subscr.usr_handle[0]++`. -/
def Subscr.next (u : Subscr) : Subscr where
  serial := u.serial + 1
  usrHandle := u.usrHandle + 1
  counted := by rw [u.counted, UInt8.ofNat_add]; rfl

/-- The events of the topology server; an expiry shows the subscription that it belongs to. -/
inductive Event where
  | published
  | withdrawn
  | timeout (t : Subscr)

/-- Where the task is. -/
inductive Pc where
  | waiting
  | halted
  | exited
deriving DecidableEq

/-- The task, its topology connection, and the timers that have not expired. -/
structure State where
  store : Store
  subscr : Subscr
  outstanding : List Subscr
  queue : List Event
  pc : Pc

/-- A transaction at the socket of the task; the connection, or the `recv`, may fail. -/
inductive Transaction where
  | failed
  | received (msg : TransMsg)

/-- What may happen: an event arrives, or one of the two loops gets on. -/
inductive Label where
  | publish
  | withdraw
  | expire (i : ℕ)
  | select (transaction : Option Transaction)
  | recvHalted

/-- The head of the outer loop: the next timer subscription is sent. -/
def State.issue (s : State) : State :=
  { s with subscr := s.subscr.next, outstanding := s.outstanding ++ [s.subscr.next], pc := .waiting }

/-- The task when it enters its loops. -/
def start : State := State.issue ⟨Store.initial, Subscr.item0, [], [], .waiting⟩

variable (printTrans : Bool)

/-- `logTransaction` and the `switch`, if there is a transaction. -/
def process (store : Store) : Option Transaction → Option AfterTransaction
  | none => some ⟨store, false, false⟩
  | some .failed => some (afterTransaction store)
  | some (.received msg) => (logTransaction printTrans store msg).map fun r => afterTransaction r.store

/-- What is behind the transaction in the inner loop. -/
def State.handle (s : State) : State :=
  match s.queue with
  | [] => s
  | event :: queue =>
    let s := { s with queue := queue }
    if s.store.simState ≠ .storeOpen then s
    else
      match event with
      | .published => { s with pc := .halted }
      | .timeout t => if t.usrHandle = s.subscr.usrHandle then s.issue else s
      | .withdrawn => s

/-- One iteration of the inner loop. -/
def State.iterate (s : State) (transaction : Option Transaction) : Option State :=
  (process printTrans s.store transaction).map fun after =>
    let s := { s with store := after.store }
    if after.exit then { s with pc := .exited } else s.handle

/-- The system, one step. -/
def step (s : State) : Label → Option State
  | .publish => some { s with queue := s.queue ++ [.published] }
  | .withdraw => some { s with queue := s.queue ++ [.withdrawn] }
  | .expire i =>
    s.outstanding[i]?.map fun t =>
      { s with outstanding := s.outstanding.eraseIdx i, queue := s.queue ++ [.timeout t] }
  | .select transaction =>
    -- `select` returns when there is something at one of the sockets
    if s.pc = .waiting ∧ (transaction.isSome ∨ s.queue ≠ []) then s.iterate printTrans transaction else none
  | .recvHalted =>
    match s.pc, s.queue with
    | .halted, .withdrawn :: queue => some { s with queue := queue }.issue
    | .halted, _ :: queue => some { s with queue := queue }
    | _, _ => none

/-! ## What the inner loop does with an expiry -/

/-- The inner loop is left on the expiry of `t`: the next iteration of the outer one has begun. -/
structure LeftOn (t : Subscr) (x : State × Label × State) : Prop where
  select : ∃ transaction, x.2.1 = .select transaction
  head : x.1.queue.head? = some (.timeout t)
  next : x.2.2.subscr = x.1.subscr.next

/-- The inner loop receives the expiry of `t`, with the store open behind the transaction. -/
structure Receives (t : Subscr) (x : State × Label × State) : Prop where
  isOpen : ∃ transaction after, x.2.1 = .select transaction ∧ process printTrans x.1.store transaction = some after ∧
    after.store.simState = .storeOpen
  head : x.1.queue.head? = some (.timeout t)

/-- The expiry of `t` is received 256 iterations behind the one of its subscription, or a multiple of it. -/
def Aliased (t : Subscr) (x : State × Label × State) : Prop :=
  Receives printTrans t x ∧ ∃ rounds, 0 < rounds ∧ x.1.subscr.serial = t.serial + 256 * rounds

variable {printTrans : Bool} {s s' : State} {l : Label} {t u : Subscr}

/-- The byte tells the subscriptions apart up to multiples of 256. -/
theorem usrHandle_eq_iff : t.usrHandle = u.usrHandle ↔ t.serial % 256 = u.serial % 256 := by
  rw [t.counted, u.counted, ← UInt8.toNat_inj, UInt8.toNat_ofNat', UInt8.toNat_ofNat']

theorem subscr_ext (h : t.serial = u.serial) : t = u := by
  obtain ⟨serial, usrHandle, rfl⟩ := t
  obtain ⟨serial', usrHandle', rfl⟩ := u
  obtain rfl : serial = serial' := h
  rfl

theorem next_ne (u : Subscr) : u.next ≠ u := fun h => Nat.succ_ne_self u.serial (congrArg Subscr.serial h)

/-- A task that goes on has an open store only where it does not exit. -/
theorem not_exit_of_open {store : Store} {transaction : Option Transaction} {after : AfterTransaction}
    (h : process printTrans store transaction = some after) (hopen : after.store.simState = .storeOpen) :
    after.exit = false := by
  have hswitch (st : Store) (hopen : (afterTransaction st).store.simState = .storeOpen) :
      (afterTransaction st).exit = false := by
    obtain ⟨-, -, hafter⟩ | hafter := afterTransaction_cases st
    · rw [hafter]
    · rw [hafter] at hopen ⊢
      exact decide_eq_false (by rw [hopen]; nofun)
  cases transaction with
  | none =>
    obtain rfl := Option.some.inj h
    rfl
  | some transaction =>
    cases transaction with
    | failed =>
      obtain rfl := Option.some.inj h
      exact hswitch store hopen
    | received msg =>
      obtain ⟨r, -, rfl⟩ := Option.map_eq_some_iff.mp h
      exact hswitch r.store hopen

/-- An iteration of the inner loop, with all that it rests on. -/
theorem step_select {transaction : Option Transaction} (h : step printTrans s (.select transaction) = some s') :
    s.pc = .waiting ∧ ∃ after, process printTrans s.store transaction = some after ∧
      s' = if after.exit then { s with store := after.store, pc := .exited }
        else State.handle { s with store := after.store } := by
  simp only [step] at h
  split at h
  · rename_i hready
    obtain ⟨after, hafter, rfl⟩ := Option.map_eq_some_iff.mp h
    exact ⟨hready.1, after, hafter, rfl⟩
  · nomatch h

/-- **The test of the inner loop.** It is left on an expiry if and only if it receives it, and the bytes are equal. -/
theorem leftOn_iff (h : step printTrans s l = some s') : LeftOn t (s, l, s') ↔
    Receives printTrans t (s, l, s') ∧ t.usrHandle = s.subscr.usrHandle := by
  constructor
  · rintro ⟨⟨transaction, rfl⟩, hhead, hnext⟩
    obtain ⟨-, after, hafter, rfl⟩ := step_select h
    obtain ⟨queue, hqueue⟩ := List.head?_eq_some_iff.mp hhead
    have hstays : s.subscr ≠ s.subscr.next := (next_ne s.subscr).symm
    simp only at hqueue hnext
    split at hnext
    · exact absurd hnext hstays
    · simp only [State.handle, hqueue] at hnext
      split at hnext
      · exact absurd hnext hstays
      · rename_i hopen
        split at hnext
        · rename_i hbyte
          exact ⟨⟨⟨transaction, after, rfl, hafter, not_not.mp hopen⟩, hhead⟩, hbyte⟩
        · exact absurd hnext hstays
  · rintro ⟨⟨⟨transaction, after, hl, hafter, hopen⟩, hhead⟩, hbyte⟩
    obtain rfl : l = .select transaction := hl
    refine ⟨⟨transaction, rfl⟩, hhead, ?_⟩
    obtain ⟨-, after', hafter', rfl⟩ := step_select h
    obtain rfl := Option.some.inj (hafter'.symm.trans hafter)
    obtain ⟨queue, hqueue⟩ := List.head?_eq_some_iff.mp hhead
    simp only at hqueue
    simp only [not_exit_of_open hafter hopen, Bool.false_eq_true, if_false, State.handle, hqueue, hopen, ne_eq,
      not_true_eq_false, hbyte, if_true]
    rfl

/-! ## The timers that are known -/

/-- The timers that have not expired, and the expiries that are waiting, are of this iteration or of earlier ones. -/
structure State.Known (s : State) : Prop where
  outstanding : ∀ t ∈ s.outstanding, t.serial ≤ s.subscr.serial
  queue : ∀ t, .timeout t ∈ s.queue → t.serial ≤ s.subscr.serial

theorem known_issue (h : s.Known) : s.issue.Known := by
  constructor
  · intro t ht
    rcases List.mem_append.mp ht with hold | hnew
    · exact (h.outstanding t hold).trans (Nat.le_succ _)
    · rw [List.mem_singleton.mp hnew]
      exact le_rfl
  · exact fun t ht => (h.queue t ht).trans (Nat.le_succ _)

/-- Events that are taken off leave the rest. -/
theorem known_queue {event : Event} {queue : List Event} (h : s.Known) (hqueue : s.queue = event :: queue) :
    State.Known { s with queue := queue } :=
  ⟨h.outstanding, fun t ht => h.queue t (hqueue ▸ List.mem_cons_of_mem event ht)⟩

theorem known_handle (h : s.Known) : s.handle.Known := by
  unfold State.handle
  split
  · exact h
  · rename_i event queue hqueue
    have htaken := known_queue h hqueue
    dsimp only
    split
    · exact htaken
    · cases event with
      | published => exact ⟨htaken.outstanding, htaken.queue⟩
      | withdrawn => exact htaken
      | timeout t =>
        dsimp only
        split
        · exact known_issue htaken
        · exact htaken

theorem known_step (h : s.Known) (hs : step printTrans s l = some s') : s'.Known := by
  have harrives (event : Event) (hevent : ∀ t, event = .timeout t → t.serial ≤ s.subscr.serial) (t : Subscr)
      (ht : .timeout t ∈ s.queue ++ [event]) : t.serial ≤ s.subscr.serial := by
    rcases List.mem_append.mp ht with hold | hnew
    · exact h.queue t hold
    · exact hevent t (List.mem_singleton.mp hnew).symm
  cases l with
  | publish =>
    obtain rfl := Option.some.inj hs
    exact ⟨h.outstanding, harrives .published nofun⟩
  | withdraw =>
    obtain rfl := Option.some.inj hs
    exact ⟨h.outstanding, harrives .withdrawn nofun⟩
  | expire i =>
    obtain ⟨t, ht, rfl⟩ := Option.map_eq_some_iff.mp hs
    have hmem := h.outstanding t (List.mem_of_getElem? ht)
    refine ⟨fun u hu => h.outstanding u (List.mem_of_mem_eraseIdx hu), harrives (.timeout t) ?_⟩
    rintro u heq
    obtain rfl := Event.timeout.inj heq
    exact hmem
  | select transaction =>
    obtain ⟨-, after, -, rfl⟩ := step_select hs
    split
    · exact ⟨h.outstanding, h.queue⟩
    · exact known_handle ⟨h.outstanding, h.queue⟩
  | recvHalted =>
    simp only [step] at hs
    split at hs
    · rename_i hqueue
      obtain rfl := Option.some.inj hs
      exact known_issue (known_queue h hqueue)
    · rename_i hqueue
      obtain rfl := Option.some.inj hs
      exact known_queue h hqueue
    · nomatch hs

theorem known_start : start.Known :=
  known_issue ⟨nofun, nofun⟩

/-! ## When the expiries of earlier iterations are ignored -/

/-- **When stale status timers are ignored:** the inner loop is left only on expiries of the timer subscription that the
    current iteration has issued, if and only if it receives none just 256 iterations behind its own, or a multiple of it. -/
theorem stale_ignored_iff (printTrans : Bool) (tr : List (State × Label × State)) (s : State)
    (h : Run (step printTrans) start tr s) :
    (∀ x ∈ tr, ∀ t, LeftOn t x → t = x.1.subscr) ↔ ∀ x ∈ tr, ∀ t, ¬ Aliased printTrans t x := by
  refine forall₃_congr fun x hx t => ?_
  obtain ⟨hreach, hstep⟩ := h.step_of_mem hx
  have hknown : x.1.Known := hreach.inv known_start fun _ _ _ hk hs => known_step hk hs
  rw [leftOn_iff hstep, Aliased, usrHandle_eq_iff, not_and, and_imp]
  refine forall_congr' fun hreceives => ?_
  have hle : t.serial ≤ x.1.subscr.serial := hknown.queue t (List.mem_of_mem_head? hreceives.head)
  constructor
  · rintro hcurrent ⟨rounds, hpos, hserial⟩
    have heq := congrArg Subscr.serial (hcurrent (by omega))
    omega
  · intro hnot hmod
    refine subscr_ext ?_
    -- the difference is a multiple of 256, and only 0 is left
    by_contra hne
    exact hnot ⟨(x.1.subscr.serial - t.serial) / 256, by omega, by omega⟩

/-- The first timer expires in its own iteration. -/
def firstExpiry : List Label := [.expire 0, .select none]

theorem firstExpiry_runs : (exec (step true) start firstExpiry).isSome = true := rfl

theorem stale_ignored_iff_first :
    (∀ x ∈ transitions (step true) start firstExpiry, ∀ t, LeftOn t x → t = x.1.subscr) ↔
      ∀ x ∈ transitions (step true) start firstExpiry, ∀ t, ¬ Aliased true t x :=
  stale_ignored_iff true _ _ (run_of_exec (Option.some_get firstExpiry_runs).symm)

/-! ## A run in which the byte comes round -/

/-- The state at the head of the inner loop, with nothing to do, and the first timer outstanding. -/
structure State.Idle (s : State) : Prop where
  pc : s.pc = .waiting
  queue : s.queue = []
  isOpen : s.store.simState = .storeOpen
  outstanding : s.outstanding.head? = some start.subscr

/-- Item 0 comes and goes. -/
theorem restart (printTrans : Bool) (h : s.Idle) :
    exec (step printTrans) s [.publish, .select none, .withdraw, .recvHalted] = some s.issue ∧ s.issue.Idle := by
  obtain ⟨store, subscr, outstanding, queue, pc⟩ := s
  obtain ⟨hpc, hqueue, hopen, houtstanding⟩ := h
  dsimp only at hpc hqueue hopen houtstanding
  subst hpc hqueue
  constructor
  · simp [exec, step, State.iterate, process, State.handle, hopen, State.issue]
  · exact ⟨rfl, rfl, hopen, by rw [State.issue, List.head?_append, houtstanding]; rfl⟩

/-- It may do so any number of times before the first timer expires. -/
theorem restarts (printTrans : Bool) (n : ℕ) :
    ∃ tr s, Run (step printTrans) start tr s ∧ s.Idle ∧ s.subscr.serial = n + 1 := by
  induction n with
  | zero => exact ⟨[], start, .nil, ⟨rfl, rfl, rfl, rfl⟩, rfl⟩
  | succ n ih =>
    obtain ⟨tr, s, hrun, hidle, hserial⟩ := ih
    obtain ⟨hexec, hidle'⟩ := restart printTrans hidle
    exact ⟨_, s.issue, hrun.append_exec hexec, hidle', congrArg (· + 1) hserial⟩

/-- **A stale timer that is not ignored:** item 0 comes and goes 256 times before the first timer expires. -/
theorem stale_not_ignored : ¬ ∀ (printTrans : Bool) (tr : List (State × Label × State)) (s : State),
    Run (step printTrans) start tr s → ∀ x ∈ tr, ∀ t, LeftOn t x → t = x.1.subscr := by
  intro h
  obtain ⟨tr, s, hrun, ⟨hpc, hqueue, hopen, houtstanding⟩, hserial⟩ := restarts true 256
  obtain ⟨outstanding, hfirst⟩ := List.head?_eq_some_iff.mp houtstanding
  -- the first timer expires, and the inner loop takes its expiry
  have hexpire : step true s (.expire 0) = some { s with outstanding := outstanding, queue := [.timeout start.subscr] } := by
    rw [step, hfirst, hqueue]
    rfl
  obtain ⟨s', hselect⟩ : ∃ s', step true { s with outstanding := outstanding, queue := [.timeout start.subscr] }
      (.select none) = some s' :=
    ⟨_, if_pos ⟨hpc, .inr (List.cons_ne_nil _ _)⟩⟩
  have hleft : LeftOn start.subscr ({ s with outstanding := outstanding, queue := [.timeout start.subscr] },
      Label.select none, s') :=
    (leftOn_iff hselect).mpr ⟨⟨⟨none, _, rfl, rfl, hopen⟩, rfl⟩, usrHandle_eq_iff.mpr (by rw [hserial]; rfl)⟩
  have hcurrent := h true _ s' ((hrun.snoc hexpire).snoc hselect) _ (List.mem_append_right _ List.mem_cons_self) _ hleft
  have hone : 1 = s.subscr.serial := congrArg Subscr.serial hcurrent
  omega

end StatusTimer
end Inventory
end Tipcutils
