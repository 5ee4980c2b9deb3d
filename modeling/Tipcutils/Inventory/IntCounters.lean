import Tipcutils.Inventory.LifeCycle

/-!
# `Inventory.IntCounters` — the counters as C `int`s

`Inventory.LogTask` counts in ℤ. Here every value that `logTransaction` stores in a static variable or sends back as an
acknowledgement goes through an `int` (`asInt`), and `stepInt` is the cluster with these counters. Each admission of
a customer moves `customerTotal` up and nothing moves it down, so a store can count 2³¹ - 1 of them.

**`step_of_stepInt`** says that a cluster in range moves as the one over ℤ does, and **`intAccounting`** brings the
accounts over: they hold in every run in which fewer than 2³¹ customers and fewer than 2³¹ items are admitted to
each store. **`accounting_overflows`** goes one further: the customer that is admitted as number 2³¹ turns
`customerTotal` negative, and its acknowledgement sends it away.
-/

set_option linter.unusedSectionVars false

namespace Tipcutils
namespace Inventory

open Function

/-! ## `int` values -/

/-- What an `int` holds after `v` is stored in it. -/
def asInt (v : ℤ) : ℤ := v.bmod (2 ^ 32)

@[simp] theorem asInt_add (v k : ℤ) : asInt (asInt v + k) = asInt (v + k) := Int.bmod_add_bmod

@[simp] theorem asInt_sub (v k : ℤ) : asInt (asInt v - k) = asInt (v - k) := Int.bmod_sub_bmod

@[simp] theorem asInt_asInt (v : ℤ) : asInt (asInt v) = asInt v := Int.bmod_bmod

theorem asInt_of_lt {v : ℤ} (hlo : -2 ^ 31 ≤ v) (hhi : v < 2 ^ 31) : asInt v = v := by
  apply Int.bmod_eq_of_le <;> omega

/-- One entry of an array of `int`s moves. -/
theorem asInt_update (f : ItemIx → ℤ) (i : ItemIx) {v w : ℤ} (h : asInt v = asInt w) :
    (fun j => asInt (update (fun j => asInt (f j)) i v j)) = fun j => asInt (update f i w j) := by
  funext j
  by_cases hj : j = i
  · subst hj
    simpa using h
  · simp [hj]

theorem asInt_update_add (f : ItemIx → ℤ) (i : ItemIx) (k : ℤ) :
    (fun j => asInt (update (fun j => asInt (f j)) i (asInt (f i) + k) j)) = fun j => asInt (update f i (f i + k) j) :=
  asInt_update f i (asInt_add (f i) k)

theorem asInt_update_sub (f : ItemIx → ℤ) (i : ItemIx) (k : ℤ) :
    (fun j => asInt (update (fun j => asInt (f j)) i (asInt (f i) - k) j)) = fun j => asInt (update f i (f i - k) j) :=
  asInt_update f i (asInt_sub (f i) k)

/-- The counters in `int`s. -/
def Counters.asInts (b : Counters) : Counters where
  itemCount := fun i => asInt (b.itemCount i)
  itemsInStore := asInt b.itemsInStore
  itemsSold := fun i => asInt (b.itemsSold i)
  customerCount := fun i => asInt (b.customerCount i)
  customersInStore := asInt b.customersInStore
  customerTotal := asInt b.customerTotal
  customerSales := asInt b.customerSales
  customerExits := asInt b.customerExits
  customerRetries := asInt b.customerRetries

/-- The statics in `int`s. -/
def Store.asInts (st : Store) : Store where
  toCounters := st.toCounters.asInts
  simState := st.simState
  simErrors := asInt st.simErrors
  simWarnings := asInt st.simWarnings

/-- `printf` shows a new customer its number as an `int`. -/
def Shown.asInts : Shown → Shown
  | .custWants customerID itemID waitTime => .custWants (asInt customerID) itemID waitTime
  | line => line

/-- What handling a transaction stores, sends and shows, in `int`s. -/
def Logged.asInts (r : Logged) : Logged := ⟨r.store.asInts, asInt r.ackCode, r.shown.map Shown.asInts⟩

/-- `logTransaction` on `int` variables: it makes at most one addition to each. -/
def logTransactionInt (printTrans : Bool) (st : Store) (msg : TransMsg) : Option Logged :=
  (logTransaction printTrans st msg).map Logged.asInts

/-- The store admits the task that sends the transaction, if it has this code. -/
def Store.countsIn (st : Store) (code : Code) (msg : TransMsg) : Bool :=
  decide (msg.code = code) && decide (st.simState = .storeOpen)

namespace Cluster

variable {σ ι κ : Type}

/-- The cluster with its counters in `int`s. -/
def asInts (s : Cluster σ ι κ) : Cluster σ ι κ :=
  { s with log := fun t => ⟨(s.log t).store.asInts, (s.log t).pc⟩ }

variable [DecidableEq σ] [DecidableEq ι] [DecidableEq κ]

/-- One move of the cluster with `int` counters. -/
def stepInt (m : Sim σ ι κ) (s : Cluster σ ι κ) : Label σ ι κ → Option (Cluster σ ι κ)
  | .log w received =>
    let t := m.home w
    match (s.log t).pc, s.pending w with
    | .select, some msg =>
      (logTransactionInt (m.printTrans t) (s.log t).store msg).map fun r =>
        (s.setLog t ⟨r.store, .switch⟩).answer w (.handled (s.log t).store.simState r.ackCode received)
    | _, _ => none
  | l => step m s l

/-- In the transition store `t` handles a transaction with this code and admits the task that has sent it. -/
def countsIn (code : Code) (m : Sim σ ι κ) (t : σ) (e : Transition σ ι κ) : Bool :=
  match e.2.1 with
  | .log w _ => decide (m.home w = t) && (e.1.pending w).any ((e.1.log t).store.countsIn code)
  | _ => false

/-- The tasks that store `t` has admitted by transactions with this code. -/
def admissions (code : Code) (m : Sim σ ι κ) (t : σ) (tr : List (Transition σ ι κ)) : ℕ :=
  tr.countP (countsIn code m t)

/-- Every store has admitted fewer than 2³¹ customers and fewer than 2³¹ items. -/
def FewAdmitted (m : Sim σ ι κ) (tr : List (Transition σ ι κ)) : Prop :=
  ∀ t, admissions .simCustIn m t tr < 2 ^ 31 ∧ admissions .simItemIn m t tr < 2 ^ 31

end Cluster

/-! ## One transaction -/

/-- What `logTransaction` stores and sends, in `int`s. -/
def Logged.stored (r : Logged) : Store × ℤ := (r.store.asInts, asInt r.ackCode)

/-- On `int` variables a transaction stores and sends what it does on integers. -/
theorem logTransaction_asInts (pt : Bool) (st : Store) (msg : TransMsg) :
    (logTransaction pt st.asInts msg).map Logged.stored = (logTransaction pt st msg).map Logged.stored := by
  have hidem : st.asInts.asInts = st.asInts := by
    simp [Store.asInts, Counters.asInts]
  have hstate : st.asInts.simState = st.simState := rfl
  have hshut : shutAck st.asInts = shutAck st := rfl
  obtain ⟨code, text⟩ := msg
  cases code with
  | simDone => simp [logTransaction, Logged.stored, Store.asInts, Counters.asInts]
  | simKill => simp [logTransaction, Logged.stored, Store.asInts, Counters.asInts]
  | simError => simp [logTransaction, Logged.stored, Store.asInts, Counters.asInts]
  | simWarn => simp [logTransaction, Logged.stored, Store.asInts, Counters.asInts]
  | simInfo => simp [logTransaction, Logged.stored, Store.asInts, Counters.asInts]
  | simItemIn =>
    simp only [logTransaction, hstate]
    split
    · simp [Logged.stored, hidem]
    · rcases Decimal.scanInts 1 text with _ | ⟨itemID, _ | _⟩
      · rfl
      · dsimp only
        cases itemIndex itemID with
        | none => rfl
        | some i => simp [Logged.stored, Store.asInts, Counters.asInts, asInt_update_add]
      · rfl
  | simItemOut =>
    simp only [logTransaction, hstate, hshut]
    split
    · simp [Logged.stored, Store.asInts, Counters.asInts]
    · rcases strchr text ' ' with _ | ⟨blank, buyer⟩
      · rfl
      · rcases Decimal.scanInts 1 (text.takeWhile (· != ' ')) with _ | ⟨itemID, _ | _⟩
        · rfl
        · dsimp only
          cases itemIndex itemID with
          | none => rfl
          | some i => simp [Logged.stored, Store.asInts, Counters.asInts, asInt_update_add, asInt_update_sub]
        · rfl
  | simCustIn =>
    simp only [logTransaction, hstate]
    split
    · simp [Logged.stored, hidem]
    · rcases Decimal.scanInts 2 text with _ | ⟨itemID, _ | ⟨waitTime, _ | _⟩⟩
      · rfl
      · rfl
      · dsimp only
        cases itemIndex itemID with
        | none => rfl
        | some i => simp [Logged.stored, Store.asInts, Counters.asInts, asInt_update_add]
      · rfl
  | simCustOut =>
    simp only [logTransaction, hshut]
    rcases Decimal.scanInts 4 text with _ | ⟨customerID, _ | ⟨itemID, _ | ⟨numRetries, rest⟩⟩⟩
    · rfl
    · rfl
    · rfl
    · dsimp only
      cases itemIndex itemID with
      | none => rfl
      | some i =>
        cases strchr text '<' <;> by_cases hretries : numRetries = 0 <;>
          simp [Logged.stored, Store.asInts, Counters.asInts, asInt_update_sub, hretries]

/-- The customers and the items admitted so far bound the counters. -/
structure Counters.Within (b : Counters) (customers items : ℕ) : Prop where
  customerTotal : b.customerTotal = customers
  itemsInStore : b.itemsInStore ≤ items
  itemsBooked : ∀ i, b.itemsSold i + b.itemCount i ≤ items

theorem update_add_apply (f : ItemIx → ℤ) (i j : ItemIx) (k : ℤ) :
    update f i (f i + k) j = f j + if j = i then k else 0 := by
  by_cases hj : j = i
  · subst hj
    simp
  · simp [hj]

/-- A transaction moves the bounds only by admitting a task. -/
theorem Counters.Within.transaction {pt : Bool} {st : Store} {msg : TransMsg} {r : Logged} {customers items : ℕ}
    (hb : st.toCounters.Within customers items) (h : logTransaction pt st msg = some r) :
    r.store.toCounters.Within (customers + (st.countsIn .simCustIn msg).toNat)
      (items + (st.countsIn .simItemIn msg).toNat) := by
  obtain ⟨code, text⟩ := msg
  cases code <;> simp only [logTransaction] at h
  case simItemIn =>
    split at h
    · rename_i hshut
      cases h
      simpa [Store.countsIn, hshut] using hb
    · rename_i hopen
      split at h
      · obtain ⟨j, -, rfl⟩ := Option.map_eq_some_iff.mp h
        have hopen : st.simState = .storeOpen := not_not.mp hopen
        refine ⟨by simpa [Store.countsIn] using hb.customerTotal, ?_, fun i => ?_⟩
        · simpa [Store.countsIn, hopen] using hb.itemsInStore
        · have hbooked := hb.itemsBooked i
          simp only [update_add_apply, Store.countsIn, hopen]
          split <;> simp <;> omega
      · cases h
  case simItemOut =>
    have hin := hb.itemsInStore
    split at h
    · cases h
      refine ⟨by simpa [Store.countsIn] using hb.customerTotal, ?_, by simpa [Store.countsIn] using hb.itemsBooked⟩
      simp [Store.countsIn]
      omega
    · split at h
      · cases h
      · split at h
        · obtain ⟨j, -, rfl⟩ := Option.map_eq_some_iff.mp h
          refine ⟨by simpa [Store.countsIn] using hb.customerTotal, ?_, fun i => ?_⟩
          · simp [Store.countsIn]
            omega
          · have hbooked := hb.itemsBooked i
            simp only [sub_eq_add_neg, update_add_apply]
            split <;> simp [Store.countsIn] <;> omega
        · cases h
  case simCustIn =>
    split at h
    · rename_i hshut
      cases h
      simpa [Store.countsIn, hshut] using hb
    · rename_i hopen
      split at h
      · obtain ⟨j, -, rfl⟩ := Option.map_eq_some_iff.mp h
        have hopen : st.simState = .storeOpen := not_not.mp hopen
        refine ⟨?_, by simpa [Store.countsIn] using hb.itemsInStore, by simpa [Store.countsIn] using hb.itemsBooked⟩
        simpa [Store.countsIn, hopen] using hb.customerTotal
      · cases h
  case simCustOut =>
    split at h
    · obtain ⟨j, -, rfl⟩ := Option.map_eq_some_iff.mp h
      split <;> exact ⟨by simpa [Store.countsIn] using hb.customerTotal, by simpa [Store.countsIn] using hb.itemsInStore,
        by simpa [Store.countsIn] using hb.itemsBooked⟩
    · cases h
  all_goals
    cases h
    exact ⟨by simpa [Store.countsIn] using hb.customerTotal, by simpa [Store.countsIn] using hb.itemsInStore,
      by simpa [Store.countsIn] using hb.itemsBooked⟩

/-- An acknowledgement is 0, `SIM_KILL` or the number of the customer admitted. -/
theorem logTransaction_ackCode {pt : Bool} {st : Store} {msg : TransMsg} {r : Logged}
    (h : logTransaction pt st msg = some r) :
    r.ackCode = 0 ∨ r.ackCode = Code.simKill.val ∨ r.ackCode = r.store.customerTotal := by
  have hshut : shutAck st = 0 ∨ shutAck st = Code.simKill.val := by
    unfold shutAck
    split
    · exact .inl rfl
    · exact .inr rfl
  obtain ⟨code, text⟩ := msg
  cases code <;> simp only [logTransaction] at h
  case simItemIn =>
    split at h
    · cases h; exact .inr (.inl rfl)
    · split at h
      · obtain ⟨j, -, rfl⟩ := Option.map_eq_some_iff.mp h; exact .inl rfl
      · cases h
  case simItemOut =>
    split at h
    · cases h; exact .inr (.inl rfl)
    · split at h
      · cases h
      · split at h
        · obtain ⟨j, -, rfl⟩ := Option.map_eq_some_iff.mp h
          exact hshut.imp_right .inl
        · cases h
  case simCustIn =>
    split at h
    · cases h; exact .inr (.inl rfl)
    · split at h
      · obtain ⟨j, -, rfl⟩ := Option.map_eq_some_iff.mp h; exact .inr (.inr rfl)
      · cases h
  case simCustOut =>
    split at h
    · obtain ⟨j, -, rfl⟩ := Option.map_eq_some_iff.mp h
      split <;> exact hshut.imp_right .inl
    · cases h
  all_goals (cases h; exact .inl rfl)

/-! ## One move -/

namespace Cluster

variable {σ ι κ : Type} [DecidableEq σ] [DecidableEq ι] [DecidableEq κ] {m : Sim σ ι κ} {s s' z : Cluster σ ι κ}
  {l : Label σ ι κ} {w : Sender σ ι κ} {t : σ}

theorem asInts_initial : (initial : Cluster σ ι κ).asInts = initial := rfl

theorem asInts_answer (s : Cluster σ ι κ) (w : Sender σ ι κ) (r : LogReply) :
    (s.answer w r).asInts = s.asInts.answer w r := by
  cases w <;> rfl

theorem asInts_setLog (s : Cluster σ ι κ) (t : σ) (l : LogTask) :
    (s.setLog t l).asInts = s.asInts.setLog t ⟨l.store.asInts, l.pc⟩ := by
  unfold asInts setLog
  congr 1
  funext u
  by_cases hu : u = t
  · subst hu
    simp
  · simp [hu]

theorem asInts_pending (s : Cluster σ ι κ) (w : Sender σ ι κ) : s.asInts.pending w = s.pending w := by
  cases w <;> rfl

/-- The `switch` looks at `customersInStore` only, and sees the same in range. -/
theorem afterTransaction_asInts {st : Store} (h : asInt st.customersInStore = st.customersInStore) :
    afterTransaction st.asInts =
      ⟨(afterTransaction st).store.asInts, (afterTransaction st).spawnJanitor, (afterTransaction st).exit⟩ := by
  have hcount : st.asInts.customersInStore = st.customersInStore := h
  have hstate : st.asInts.simState = st.simState := rfl
  unfold afterTransaction
  rw [hstate, hcount]
  cases st.simState with
  | storeClosing =>
      dsimp only
      by_cases hcust : st.customersInStore = 0
      · simp only [if_pos hcust]
        rfl
      · simp only [if_neg hcust]
  | storeOpen | storeClosed | storeEmpty => rfl

/-- A transaction handled on `int`s is handled on integers, with the same values in `int`s. -/
theorem stepInt_log {received : Bool} (h : stepInt m z.asInts (.log w received) = some s') :
    ∃ msg r, (z.log (m.home w)).pc = .select ∧ z.pending w = some msg ∧
      logTransaction (m.printTrans (m.home w)) (z.log (m.home w)).store msg = some r ∧
      s' = (z.setLog (m.home w) ⟨r.store, .switch⟩).asInts.answer w
        (.handled (z.log (m.home w)).store.simState (asInt r.ackCode) received) := by
  simp only [stepInt, asInts_pending] at h
  split at h
  · rename_i msg hpc hmsg
    obtain ⟨ri, hri, rfl⟩ := Option.map_eq_some_iff.mp h
    obtain ⟨r₀, hr₀, rfl⟩ := Option.map_eq_some_iff.mp hri
    have hstored := logTransaction_asInts (m.printTrans (m.home w)) (z.log (m.home w)).store msg
    have hr₀' : logTransaction (m.printTrans (m.home w)) (z.log (m.home w)).store.asInts msg = some r₀ := hr₀
    rw [hr₀', Option.map_some] at hstored
    obtain ⟨r, hr, heq⟩ := Option.map_eq_some_iff.mp hstored.symm
    obtain ⟨hstore, hack⟩ := Prod.mk.inj heq
    refine ⟨msg, r, hpc, hmsg, hr, ?_⟩
    rw [asInts_setLog, hstore, hack]
    rfl
  · cases h

/-- **A move on `int` counters that are in range is a move on integers.** -/
theorem step_of_stepInt (hin : ∀ t, asInt (z.log t).store.customersInStore = (z.log t).store.customersInStore)
    (hack : ∀ w received msg r, l = .log w received → z.pending w = some msg →
      logTransaction (m.printTrans (m.home w)) (z.log (m.home w)).store msg = some r → asInt r.ackCode = r.ackCode)
    (h : stepInt m z.asInts l = some s') : ∃ z', step m z l = some z' ∧ s' = z'.asInts := by
  cases l with
  | item x act =>
      obtain ⟨k, hk, rfl⟩ := step_item h
      exact ⟨_, Option.map_eq_some_iff.mpr ⟨k, hk, rfl⟩, rfl⟩
  | cust c act =>
      obtain ⟨k, hsees, hk, rfl⟩ := step_cust h
      refine ⟨{ z with cust := update z.cust c k, item := z.requested m c act }, ?_, rfl⟩
      have hsees' : z.custSees m c act = true := hsees
      simp only [step, hsees', if_true]
      exact Option.map_eq_some_iff.mpr ⟨k, hk, rfl⟩
  | janitor u j act =>
      obtain ⟨pc, pc', hpc, hpc', rfl⟩ := step_janitor h
      refine ⟨{ z with jan := update z.jan u ((z.jan u).set j pc'), item := z.faked u j pc act }, ?_, rfl⟩
      have hsees : z.janSees act = true := by
        by_contra hno
        have hnone : step m z.asInts (.janitor u j act) = none := if_neg hno
        exact absurd (hnone.symm.trans h) (Option.some_ne_none _).symm
      simp only [step, hsees, if_true]
      exact Option.bind_eq_some_iff.mpr ⟨pc, hpc, Option.map_eq_some_iff.mpr ⟨pc', hpc', rfl⟩⟩
  | log w received =>
      obtain ⟨msg, r, hpc, hmsg, hr, rfl⟩ := stepInt_log h
      refine ⟨(z.setLog (m.home w) ⟨r.store, .switch⟩).answer w
        (.handled (z.log (m.home w)).store.simState r.ackCode received), ?_, ?_⟩
      · simp [step, hpc, hmsg, hr]
      · rw [hack w received msg r rfl hmsg hr, asInts_answer]
  | drop w =>
      obtain ⟨hpc, hmsg, rfl⟩ := step_drop h
      obtain ⟨msg, hmsg⟩ := Option.ne_none_iff_exists'.mp hmsg
      rw [asInts_pending] at hmsg
      have hpc' : (z.log (m.home w)).pc = .select := hpc
      refine ⟨(z.setLog (m.home w) ⟨(z.log (m.home w)).store, .switch⟩).answer w .unhandled, ?_, ?_⟩
      · simp only [step, hpc', hmsg]
      · rw [asInts_answer, asInts_setLog]
        rfl
  | fail w =>
      obtain ⟨hmsg, rfl⟩ := step_fail (m := m) h
      obtain ⟨msg, hmsg⟩ := Option.ne_none_iff_exists'.mp hmsg
      rw [asInts_pending] at hmsg
      refine ⟨z.answer w .unhandled, ?_, (asInts_answer z w .unhandled).symm⟩
      simp only [step, hmsg]
  | switch u =>
      obtain ⟨hpc, rfl⟩ := step_switch (m := m) h
      have hpc' : (z.log u).pc = .switch := hpc
      refine ⟨_, by simp only [step, hpc']; rfl, ?_⟩
      have hsw : afterTransaction (z.asInts.log u).store = _ := afterTransaction_asInts (hin u)
      rw [hsw]
      have hlog := asInts_setLog z u ⟨(afterTransaction (z.log u).store).store,
        if (afterTransaction (z.log u).store).exit then .exited else .select⟩
      exact congrArg (fun c : Cluster σ ι κ => { c with
        jan := if (afterTransaction (z.log u).store).spawnJanitor
          then update z.jan u (z.jan u ++ [JanPc.enter]) else z.jan }) hlog.symm

/-! ## Runs -/

section Runs

variable {code : Code} {tr : List (Transition σ ι κ)} {e : Transition σ ι κ}

theorem admissions_snoc : admissions code m t (tr ++ [e]) = admissions code m t tr + (countsIn code m t e).toNat := by
  unfold admissions
  rw [List.countP_append, List.countP_singleton]
  cases countsIn code m t e <;> rfl

theorem FewAdmitted.of_snoc (h : FewAdmitted m (tr ++ [e])) : FewAdmitted m tr := by
  intro t
  obtain ⟨hcust, hitem⟩ := h t
  rw [admissions_snoc] at hcust hitem
  omega

variable [Fintype ι] [Fintype κ]

/-- The bounds after a move of the cluster over ℤ. -/
theorem within_step {customers items : ℕ} {z' : Cluster σ ι κ}
    (hb : (z.log t).store.toCounters.Within customers items) (h : step m z l = some z') :
    (z'.log t).store.toCounters.Within (customers + (countsIn .simCustIn m t (z.asInts, l, s')).toNat)
      (items + (countsIn .simItemIn m t (z.asInts, l, s')).toNat) := by
  cases l with
  | item x act =>
      obtain ⟨k, -, rfl⟩ := step_item h
      exact hb
  | cust c act =>
      obtain ⟨k, -, -, rfl⟩ := step_cust h
      exact hb
  | janitor u j act =>
      obtain ⟨pc, pc', -, -, rfl⟩ := step_janitor h
      exact hb
  | log w received =>
      obtain ⟨msg, r, -, hmsg, hr, rfl⟩ := step_log h
      have hcounts (code : Code) : countsIn code m t (z.asInts, .log w received, s') =
          (decide (m.home w = t) && (z.log t).store.countsIn code msg) := by
        simp only [countsIn, asInts_pending, hmsg, Option.any_some]
        rfl
      rw [hcounts, hcounts, answer_log]
      by_cases hw : m.home w = t
      · subst hw
        simpa [setLog] using hb.transaction hr
      · simpa [setLog, hw, update_of_ne (Ne.symm hw)] using hb
  | drop w =>
      obtain ⟨-, -, rfl⟩ := step_drop h
      rw [answer_log]
      have hsame := counters_setLog (s := z) (u := m.home w) (l := ⟨(z.log (m.home w)).store, .switch⟩) rfl t
      rw [hsame]
      exact hb
  | fail w =>
      obtain ⟨-, rfl⟩ := step_fail h
      rw [answer_log]
      exact hb
  | switch u =>
      obtain ⟨-, rfl⟩ := step_switch h
      have hsame := counters_setLog (s := z) (u := u) (l := ⟨(afterTransaction (z.log u).store).store,
        if (afterTransaction (z.log u).store).exit then .exited else .select⟩) (afterTransaction_counters _) t
      show ((z.setLog u _).log t).store.toCounters.Within _ _
      rw [hsame]
      exact hb

/-- Nobody is in the store who has not been counted in. -/
theorem Accounts.customersInStore_le (h : Accounts m z t) :
    (z.log t).store.customersInStore ≤ (z.log t).store.customerTotal := by
  have hbalance := h.balance
  obtain ⟨-, -, hsales, hexits, -⟩ := h.customersNonneg
  omega

/-- **The accounts of counters in range are those of the `int`s.** -/
theorem Accounts.asInts (h : Accounts m z t) {customers items : ℕ} (hcust : customers < 2 ^ 31) (hitem : items < 2 ^ 31)
    (hb : (z.log t).store.toCounters.Within customers items) : Accounts m z.asInts t := by
  have hle := h.customersInStore_le
  have hbalance := h.balance
  obtain ⟨htotal, hinStore, hbooked⟩ := hb
  obtain ⟨hstock, hitems⟩ := h.itemsNonneg
  obtain ⟨hvisitors, htotal0, hsales, hexits, hwaiting⟩ := h.customersNonneg
  have hcount (i : ItemIx) : (z.log t).store.customerCount i ≤ (z.log t).store.customersInStore :=
    h.customers ▸ Finset.single_le_sum (fun j _ => hwaiting j) (Finset.mem_univ i)
  have hstore : (z.asInts.log t).store.toCounters =
      { (z.log t).store.toCounters with customerRetries := asInt (z.log t).store.customerRetries } := by
    show (z.log t).store.toCounters.asInts = _
    unfold Counters.asInts
    congr 1
    · funext i
      have := hbooked i
      have := hitems i
      exact asInt_of_lt (by omega) (by omega)
    · exact asInt_of_lt (by omega) (by omega)
    · funext i
      have := hbooked i
      have := hitems i
      exact asInt_of_lt (by omega) (by omega)
    · funext i
      have := hcount i
      have := hwaiting i
      exact asInt_of_lt (by omega) (by omega)
    all_goals exact asInt_of_lt (by omega) (by omega)
  constructor <;> rw [hstore]
  · exact h.waiting
  · exact h.soldAndLeft
  · exact h.stock
  · exact h.customers
  · exact h.balance
  · exact h.items
  · exact h.itemsNonneg
  · exact h.customersNonneg

/-- The state `z` of the cluster over ℤ stands behind the state `s` that the run `tr` has reached. -/
structure Follows (m : Sim σ ι κ) (tr : List (Transition σ ι κ)) (s z : Cluster σ ι κ) :
    Prop where
  reach : Reachable m z
  same : s = z.asInts
  within : ∀ t, (z.log t).store.toCounters.Within (admissions .simCustIn m t tr) (admissions .simItemIn m t tr)

theorem follows_initial (m : Sim σ ι κ) : Follows m [] initial initial where
  reach := .refl
  same := asInts_initial.symm
  within := fun _ => ⟨rfl, le_rfl, fun _ => le_rfl⟩

theorem Follows.snoc (h : Follows m tr s z) (hs : stepInt m s l = some s') (hfew : FewAdmitted m (tr ++ [(s, l, s')])) :
    ∃ z', Follows m (tr ++ [(s, l, s')]) s' z' := by
  obtain ⟨hr, rfl, hb⟩ := h
  have hvisitors (t : σ) : asInt (z.log t).store.customersInStore = (z.log t).store.customersInStore := by
    have hle := (accounting hr t).customersInStore_le
    have hnonneg := (accounting hr t).customersNonneg.1
    have htotal := (hb t).customerTotal
    have hcust := (hfew.of_snoc t).1
    exact asInt_of_lt (by omega) (by omega)
  have hafter {z' : Cluster σ ι κ} (hz' : step m z l = some z') (t : σ) : (z'.log t).store.toCounters.Within
      (admissions .simCustIn m t (tr ++ [(z.asInts, l, s')])) (admissions .simItemIn m t (tr ++ [(z.asInts, l, s')])) := by
    rw [admissions_snoc, admissions_snoc]
    exact within_step (hb t) hz'
  have hack (w received msg r) (hl : l = .log w received) (hmsg : z.pending w = some msg)
      (hlt : logTransaction (m.printTrans (m.home w)) (z.log (m.home w)).store msg = some r) :
      asInt r.ackCode = r.ackCode := by
    subst hl
    obtain ⟨msg', r', hpc, hmsg', hlt', -⟩ := stepInt_log hs
    obtain rfl := Option.some.inj (hmsg'.symm.trans hmsg)
    obtain rfl := Option.some.inj (hlt'.symm.trans hlt)
    have hz' : step m z (.log w received) = some ((z.setLog (m.home w) ⟨r'.store, .switch⟩).answer w
        (.handled (z.log (m.home w)).store.simState r'.ackCode received)) := by
      simp [step, hpc, hmsg, hlt]
    have htotal := (hafter hz' (m.home w)).customerTotal
    have hself : (((z.setLog (m.home w) ⟨r'.store, .switch⟩).answer w
        (.handled (z.log (m.home w)).store.simState r'.ackCode received)).log (m.home w)).store = r'.store := by
      simp [setLog]
    rw [hself] at htotal
    have hcust := (hfew (m.home w)).1
    obtain hack | hack | hack := logTransaction_ackCode hlt
    · rw [hack]
      rfl
    · rw [hack]
      rfl
    · exact asInt_of_lt (by omega) (by omega)
  obtain ⟨z', hz', rfl⟩ := step_of_stepInt hvisitors hack hs
  exact ⟨z', hr.tail hz', rfl, hafter hz'⟩

/-- A run that admits few tasks is followed to its end. -/
theorem exists_follows (h : Lts.Run (stepInt m) initial tr s) (hfew : FewAdmitted m tr) : ∃ z, Follows m tr s z := by
  induction h with
  | nil => exact ⟨_, follows_initial m⟩
  | snoc _ hs ih =>
      obtain ⟨z, hz⟩ := ih hfew.of_snoc
      exact hz.snoc hs hfew

/-- **Store accounting on `int` counters.** In every run in which each store admits fewer than 2³¹ customers and fewer
    than 2³¹ items, for any number of tasks, `killSim` calls and failures. -/
theorem intAccounting (h : Lts.Run (stepInt m) initial tr s) (hfew : FewAdmitted m tr) (t : σ) : Accounts m s t := by
  obtain ⟨z, hr, rfl, hb⟩ := exists_follows h hfew
  exact (accounting hr t).asInts (hfew t).1 (hfew t).2 (hb t)

end Runs

end Cluster

/-! ## A run of two stores -/

theorem intAccounting_twoStores :
    (Lts.final (Cluster.stepInt twoStores) .initial twoStoresSale (by decide)).Accounts twoStores false :=
  Cluster.intAccounting (Lts.run_of_exec (Option.some_get _).symm) (by unfold Cluster.FewAdmitted; decide) false

/-! ## A run of 2³¹ customers -/

/-- One store without items, and `n` customers that come for the same number. -/
def crowd (n : ℕ) (i : ItemIx) : Sim Unit Empty (Fin n) where
  node _ := 0x01001001
  printTrans _ := false
  itemHome x := x.elim
  itemNo x := x.elim
  custHome _ := ()
  custNo _ := i
  waitTime _ := 1000
  taskID _ := 1

/-- The store is open and has admitted `k` customers, and the others have not come yet. -/
structure Crowded {n : ℕ} (k : ℕ) (s : Cluster Unit Empty (Fin n)) : Prop where
  select : (s.log ()).pc = .select
  storeOpen : (s.log ()).store.simState = .storeOpen
  total : (s.log ()).store.customerTotal = asInt k
  outside : ∀ c, k ≤ c.val → s.cust c = .initial

/-- The next customer arrives and the store counts it. -/
theorem Crowded.next (i : ItemIx) {n k : ℕ} {s : Cluster Unit Empty (Fin n)} (h : Crowded k s) (hk : k < n) :
    ∃ s', Lts.exec (Cluster.stepInt (crowd n i)) s
        [.cust ⟨k, hk⟩ .arrive, .log (.cust ⟨k, hk⟩) true, .switch ()] = some s' ∧ Crowded (k + 1) s' := by
  obtain ⟨hpc, hopen, htotal, hout⟩ := h
  set c : Fin n := ⟨k, hk⟩
  have hc : s.cust c = .initial := hout c le_rfl
  have hothers (d : Fin n) (hd : k + 1 ≤ d.val) : d ≠ c := fun heq => by
    rw [heq] at hd
    exact absurd hd (Nat.not_succ_le_self k)
  -- the customer reports its arrival
  let arrived : CustTask Empty :=
    { CustTask.initial with pc := .logging ⟨.simCustIn, custInText (itemIDOf i) 1000⟩ .admitted }
  let s₁ : Cluster Unit Empty (Fin n) := { s with cust := update s.cust c arrived }
  have h₁ : Cluster.stepInt (crowd n i) s (.cust c .arrive) = some s₁ := by
    have harrive : (s.cust c).step ((crowd n i).custArgs c) .arrive = some arrived := by
      rw [hc]
      rfl
    have hsees : s.custSees (crowd n i) c .arrive = true := rfl
    simp only [Cluster.stepInt, Cluster.step, hsees, if_true, harrive]
    rfl
  -- the store counts it
  obtain ⟨shown, hr⟩ := logTransaction_custIn_open false i hopen 1000
  set st : Store := (s.log ()).store
  let st' : Store := { st with
    customersInStore := st.customersInStore + 1
    customerCount := update st.customerCount i (st.customerCount i + 1)
    customerTotal := st.customerTotal + 1 }
  let s₂ : Cluster Unit Empty (Fin n) := (s₁.setLog () ⟨st'.asInts, .switch⟩).answer (.cust c)
    (.handled st.simState (asInt (st.customerTotal + 1)) true)
  have h₂ : Cluster.stepInt (crowd n i) s₁ (.log (.cust c) true) = some s₂ := by
    have hmsg : s₁.pending (.cust c) = some ⟨.simCustIn, custInText (itemIDOf i) 1000⟩ := by
      simp [Cluster.pending, s₁, arrived, CustTask.pending]
    have hpc₁ : (s₁.log ()).pc = .select := hpc
    have hint : logTransactionInt false st ⟨.simCustIn, custInText (itemIDOf i) 1000⟩ =
        some (Logged.asInts ⟨st', st.customerTotal + 1, shown⟩) := by
      rw [logTransactionInt, hr]
      rfl
    have hint₁ : logTransactionInt ((crowd n i).printTrans ()) (s₁.log ()).store
        ⟨.simCustIn, custInText (itemIDOf i) 1000⟩ = some (Logged.asInts ⟨st', st.customerTotal + 1, shown⟩) := hint
    have hhome : (crowd n i).home (.cust c) = () := rfl
    simp only [Cluster.stepInt, hhome, hpc₁, hmsg, hint₁]
    rfl
  -- and waits for the next one
  let s₃ : Cluster Unit Empty (Fin n) := s₂.setLog () ⟨st'.asInts, .select⟩
  have hlog₂ : s₂.log () = ⟨st'.asInts, .switch⟩ := by
    simp [s₂, Cluster.setLog]
  have h₃ : Cluster.stepInt (crowd n i) s₂ (.switch ()) = some s₃ := by
    have hafter : afterTransaction st'.asInts = ⟨st'.asInts, false, false⟩ := by
      have hopen' : st'.asInts.simState = .storeOpen := hopen
      simp [afterTransaction, hopen']
    simp only [Cluster.stepInt, Cluster.step, hlog₂, hafter]
    rfl
  have hlog₃ : s₃.log () = ⟨st'.asInts, .select⟩ := by
    simp [s₃, Cluster.setLog]
  refine ⟨s₃, ?_, ?_, ?_, ?_, fun d hd => ?_⟩
  · simp only [Lts.exec, h₁, h₂, h₃, Option.bind_some]
  · rw [hlog₃]
  · rw [hlog₃]
    exact hopen
  · rw [hlog₃]
    show asInt (st.customerTotal + 1) = asInt ((k + 1 : ℕ) : ℤ)
    rw [htotal, asInt_add, Nat.cast_succ]
  · show update s₁.cust c _ d = _
    rw [update_of_ne (hothers d hd)]
    show update s.cust c _ d = _
    rw [update_of_ne (hothers d hd)]
    exact hout d (Nat.le_of_succ_le hd)

theorem exists_crowded (i : ItemIx) {n : ℕ} (k : ℕ) (hk : k ≤ n) :
    ∃ s : Cluster Unit Empty (Fin n), Lts.Reach (Cluster.stepInt (crowd n i)) .initial s ∧ Crowded k s := by
  induction k with
  | zero => exact ⟨_, .refl, rfl, rfl, rfl, fun _ _ => rfl⟩
  | succ k ih =>
      obtain ⟨s, hr, hs⟩ := ih (Nat.le_of_succ_le hk)
      obtain ⟨s', hexec, hs'⟩ := hs.next i hk
      exact ⟨s', Lts.exec_reach hr hexec, hs'⟩

/-- The customer that a store admits as number 2³¹ turns its total negative. -/
theorem accounting_overflows : ∃ s : Cluster Unit Empty (Fin (2 ^ 31)),
    Lts.Reach (Cluster.stepInt (crowd (2 ^ 31) 2)) .initial s ∧ ¬ s.Accounts (crowd (2 ^ 31) 2) () := by
  obtain ⟨s, hr, hs⟩ := exists_crowded 2 (2 ^ 31) le_rfl
  refine ⟨s, hr, fun h => ?_⟩
  have htotal := h.customersNonneg.2.1
  rw [hs.total] at htotal
  exact absurd htotal (by decide)

end Inventory
end Tipcutils
