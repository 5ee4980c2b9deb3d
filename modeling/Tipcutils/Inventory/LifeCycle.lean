import Tipcutils.Inventory.Accounting

/-!
# `Inventory.LifeCycle` — the life of a store, over whole runs

`simState` is written in two places: `SIM_KILL` and `SIM_DONE` set it in `logTransaction` whatever it was,
and the `switch` of `simLogTask` closes the store and spawns the janitor. So a `SIM_KILL` that is handled while
the janitor of a closed store is at work takes the state back to `STORE_CLOSING`, and the `switch` closes the
store again with a second janitor (**`lifeCycle_second_kill`**).

**`lifeCycle_iff`**: a run follows the life cycle exactly when no `SIM_KILL` is handled while the store is
closed. The invariant behind it is `Stage`: the state tells how many janitors have been spawned.
-/

set_option linter.unusedSectionVars false

namespace Tipcutils
namespace Inventory

open Function

variable {σ ι κ : Type}

namespace Cluster

/-- The state of store `t`. -/
def simState (s : Cluster σ ι κ) (t : σ) : StoreState := (s.log t).store.simState

/-- A transition of the cluster. -/
abbrev Transition (σ ι κ : Type) : Type := Cluster σ ι κ × Label σ ι κ × Cluster σ ι κ

/-- The transition admits an item or a customer to store `t`. -/
def Admits (m : Sim σ ι κ) (t : σ) (e : Transition σ ι κ) : Prop :=
  (∃ x, m.itemHome x = t ∧ (e.1.item x).admitted = false ∧ (e.2.2.item x).admitted = true) ∨
    ∃ c, m.custHome c = t ∧ (e.1.cust c).admitted = false ∧ (e.2.2.cust c).admitted = true

/-- The life cycle of store `t` along the transitions of a run. -/
structure LifeCycle (m : Sim σ ι κ) (t : σ) (tr : List (Transition σ ι κ)) : Prop where
  forward : ∀ e ∈ tr, (e.1.simState t).val ≤ (e.2.2.simState t).val
  shut : ∀ e ∈ tr, e.1.simState t ≠ .storeOpen → ¬ Admits m t e
  empty : ∀ e ∈ tr, StoreState.storeClosed.val ≤ (e.2.2.simState t).val →
    (e.2.2.log t).store.customersInStore = 0
  oneJanitor : ∀ e ∈ tr, (e.2.2.jan t).length ≤ 1

/-- `logTransaction` of store `t` handles a `SIM_KILL`. -/
def killsAt [DecidableEq σ] (t : σ) : Label σ ι κ → Bool
  | .log (.kill u) _ => decide (u = t)
  | _ => false

/-- The transition does not handle a `SIM_KILL` in a closed store. -/
def NotLateKill [DecidableEq σ] (t : σ) (e : Transition σ ι κ) : Prop :=
  e.1.simState t = .storeClosed → killsAt t e.2.1 = false

instance [DecidableEq σ] (t : σ) (e : Transition σ ι κ) : Decidable (NotLateKill t e) :=
  inferInstanceAs (Decidable (_ → _))

/-- What the state of store `t` says about its janitors and customers. -/
structure Stage (t : σ) (s : Cluster σ ι κ) : Prop where
  janitors : (s.jan t).length = if (s.simState t).val < StoreState.storeClosed.val then 0 else 1
  customers : StoreState.storeClosed.val ≤ (s.simState t).val → (s.log t).store.customersInStore = 0
  -- after `SIM_DONE` the logging task never returns to `select`
  leaving : s.simState t = .storeEmpty → (s.log t).pc ≠ .select

variable [Fintype ι] [Fintype κ] [DecidableEq σ] [DecidableEq ι] [DecidableEq κ]
  {m : Sim σ ι κ} {s s' : Cluster σ ι κ} {t : σ}

theorem stage_initial (t : σ) : Stage t (initial : Cluster σ ι κ) :=
  ⟨rfl, fun h => absurd h (by show ¬ 2 ≤ 0; decide), fun h => nomatch h⟩

theorem Stage.congr (h : Stage t s) (hlog : (s'.log t).store = (s.log t).store)
    (hpc : (s'.log t).pc = .select → (s.log t).pc = .select) (hjan : (s'.jan t).length = (s.jan t).length) :
    Stage t s' := by
  have hst : s'.simState t = s.simState t := by simp only [simState, hlog]
  refine ⟨by rw [hjan, hst, h.janitors], ?_, ?_⟩
  · rw [hst, hlog]
    exact h.customers
  · rw [hst]
    exact fun he hsel => h.leaving he (hpc hsel)

@[simp] theorem answer_jan_length (s : Cluster σ ι κ) (w : Sender σ ι κ) (r : LogReply) (t : σ) :
    ((s.answer w r).jan t).length = (s.jan t).length := by
  cases w with
  | janitor u j =>
      by_cases hu : t = u
      · subst hu
        simp [answer]
      · simp [answer, hu]
  | item | cust | kill => rfl

theorem customersInStore_nonneg (h : Reachable m s) (t : σ) : 0 ≤ (s.log t).store.customersInStore :=
  (books h t).2.customersInStore ▸ Int.natCast_nonneg _

/-- A store that has a janitor is closed. -/
theorem Stage.closed_of_janitor (h : Stage t s) (hj : s.jan t ≠ []) :
    StoreState.storeClosed.val ≤ (s.simState t).val := by
  by_contra hlt
  have hlen := h.janitors
  rw [if_pos (not_le.mp hlt)] at hlen
  exact hj (List.length_eq_zero_iff.mp hlen)

/-- A store whose logging task is at `select`, and which is not closed, has no janitor yet. -/
theorem Stage.early (h : Stage t s) (hpc : (s.log t).pc = .select) (hne : s.simState t ≠ .storeClosed) :
    (s.simState t).val < StoreState.storeClosed.val := by
  cases hst : s.simState t with
  | storeOpen | storeClosing => decide
  | storeClosed => exact absurd hst hne
  | storeEmpty => exact absurd hpc (h.leaving hst)

/-- A store without customers that is closed keeps its zero. -/
theorem empty_of_logged (hr' : Reachable m s') {pt : Bool} {msg : TransMsg} {r : Logged}
    (hlt : logTransaction pt (s.log t).store msg = some r) (hlog : (s'.log t).store = r.store)
    (hclosed : StoreState.storeClosed.val ≤ (s.simState t).val) (hzero : (s.log t).store.customersInStore = 0) :
    (s'.log t).store.customersInStore = 0 := by
  have hopen : s.simState t ≠ .storeOpen := by
    intro hopen
    rw [hopen] at hclosed
    exact absurd hclosed (by decide)
  have hle := logTransaction_customersInStore_le hopen hlt
  have hge := customersInStore_nonneg hr' t
  rw [hlog] at hge ⊢
  exact le_antisymm (hzero ▸ hle) hge

/-- The transaction of `w` moves the state of its store forward, unless it is a late `SIM_KILL`. -/
theorem Stage.logged (h : Stage t s) (hr : Reachable m s) {w : Sender σ ι κ} {received : Bool}
    (hw : m.home w = t) (hkill : NotLateKill t (s, .log w received, s'))
    (hs : step m s (.log w received) = some s') :
    Stage t s' ∧ (s.simState t).val ≤ (s'.simState t).val := by
  obtain ⟨msg, r, hpc, hp, hlt, hs'⟩ := step_log hs
  rw [hw] at hpc hlt hs'
  have hlog : s'.log t = ⟨r.store, .switch⟩ := by
    rw [hs', answer_log]
    exact update_self _ _ _
  have hjan : (s'.jan t).length = (s.jan t).length := by
    rw [hs', answer_jan_length]
    rfl
  have hstate : s'.simState t = r.store.simState := by simp only [simState, hlog]
  have hsend := sender_of_pending hr hp
  have hnext := logTransaction_simState hlt
  have hzero (hclosed : StoreState.storeClosed.val ≤ (s.simState t).val) : (s'.log t).store.customersInStore = 0 :=
    empty_of_logged (hr.tail hs) hlt (by rw [hlog]) hclosed (h.customers hclosed)
  have hswitch : (s'.log t).pc ≠ .select := by simp [hlog]
  cases hcode : msg.code with
  | simKill =>
      rw [hcode] at hnext
      obtain ⟨u, rfl⟩ := hsend.1 hcode
      obtain rfl : u = t := hw
      have hearly := h.early hpc fun hc => by simpa [killsAt] using hkill hc
      have hjan0 := h.janitors
      rw [if_pos hearly] at hjan0
      have hs1 : s'.simState u = .storeClosing := hstate.trans hnext
      refine ⟨⟨?_, fun hge => ?_, fun _ => hswitch⟩, ?_⟩
      · rw [hjan, hjan0, hs1]
        rfl
      · rw [hs1] at hge
        exact absurd hge (by decide)
      · rw [hs1]
        exact Nat.lt_succ_iff.mp hearly
  | simDone =>
      rw [hcode] at hnext
      obtain ⟨u, j, rfl⟩ := hsend.2 hcode
      obtain rfl : u = t := hw
      have hjne : s.jan u ≠ [] := by
        intro hnil
        simp [pending, hnil] at hp
      have hclosed := h.closed_of_janitor hjne
      have hjan1 := h.janitors
      rw [if_neg (not_lt.mpr hclosed)] at hjan1
      have hs1 : s'.simState u = .storeEmpty := hstate.trans hnext
      refine ⟨⟨?_, fun _ => hzero hclosed, fun _ => hswitch⟩, ?_⟩
      · rw [hjan, hjan1, hs1]
        rfl
      · rw [hs1]
        cases s.simState u <;> decide
  | simError | simWarn | simInfo | simItemIn | simItemOut | simCustIn | simCustOut =>
      rw [hcode] at hnext
      have hs1 : s'.simState t = s.simState t := hstate.trans hnext
      refine ⟨⟨by rw [hjan, hs1, h.janitors], ?_, fun _ => hswitch⟩, by rw [hs1]⟩
      rw [hs1]
      exact hzero

/-- The `switch` moves the state of its store forward. -/
theorem Stage.switched (h : Stage t s) (hs : step m s (.switch t) = some s') :
    Stage t s' ∧ (s.simState t).val ≤ (s'.simState t).val := by
  have hjan := step_switch_jan hs t
  obtain ⟨hpc, hs'⟩ := step_switch hs
  have hlog : s'.log t = ⟨(afterTransaction (s.log t).store).store,
      if (afterTransaction (s.log t).store).exit then .exited else .select⟩ := by
    rw [hs']
    exact update_self _ _ _
  rcases afterTransaction_cases (s.log t).store with ⟨hst, hcust, hafter⟩ | hafter
  · rw [hafter] at hlog hjan
    have hs0 : s.simState t = .storeClosing := hst
    have hs1 : s'.simState t = .storeClosed := by simp only [simState, hlog]
    have hjan0 := h.janitors
    rw [hs0, if_pos (by decide)] at hjan0
    have hjan1 : (s'.jan t).length = 1 := by
      rw [hs', hafter]
      simp [hjan0]
    refine ⟨⟨?_, fun _ => ?_, fun he => ?_⟩, ?_⟩
    · rw [hjan1, hs1]
      rfl
    · rw [hlog]
      exact hcust
    · rw [hs1] at he
      cases he
    · rw [hs0, hs1]
      decide
  · rw [hafter] at hlog
    have hs1 : s'.simState t = s.simState t := by simp only [simState, hlog]
    have hjan1 : s'.jan t = s.jan t := by
      rw [hs', hafter]
      rfl
    refine ⟨⟨by rw [hjan1, hs1, h.janitors], ?_, fun he => ?_⟩, by rw [hs1]⟩
    · rw [hs1, hlog]
      exact h.customers
    · rw [hs1] at he
      have he' : (s.log t).store.simState = .storeEmpty := he
      simp [hlog, he']

/-- **The step lemma.** -/
theorem Stage.step (h : Stage t s) (hr : Reachable m s) {l : Label σ ι κ} (hkill : NotLateKill t (s, l, s'))
    (hs : step m s l = some s') : Stage t s' ∧ (s.simState t).val ≤ (s'.simState t).val := by
  have hsame (hlog : (s'.log t).store = (s.log t).store)
      (hpc : (s'.log t).pc = .select → (s.log t).pc = .select) (hjan : (s'.jan t).length = (s.jan t).length) :
      Stage t s' ∧ (s.simState t).val ≤ (s'.simState t).val :=
    ⟨h.congr hlog hpc hjan, by simp only [simState, hlog, le_refl]⟩
  cases l with
  | item x act =>
      obtain ⟨_, -, rfl⟩ := step_item hs
      exact hsame rfl id rfl
  | cust c act =>
      obtain ⟨_, -, -, rfl⟩ := step_cust hs
      exact hsame rfl id rfl
  | janitor u j act =>
      obtain ⟨_, pc', -, -, rfl⟩ := step_janitor hs
      refine hsame rfl id ?_
      by_cases hu : t = u
      · subst hu
        simp
      · simp [hu]
  | log w received =>
      by_cases hw : m.home w = t
      · exact h.logged hr hw hkill hs
      · obtain ⟨_, _, -, -, -, rfl⟩ := step_log hs
        have hlog : ∀ l : LogTask, update s.log (m.home w) l t = s.log t := 
          fun l => update_of_ne (Ne.symm hw) l s.log
        refine hsame ?_ ?_ ?_ <;> simp [setLog, hlog]
  | drop w =>
      obtain ⟨-, -, rfl⟩ := step_drop hs
      by_cases hw : t = m.home w
      · subst hw
        refine hsame ?_ ?_ ?_ <;> simp [setLog]
      · refine hsame ?_ ?_ ?_ <;> simp [setLog, hw]
  | fail w =>
      obtain ⟨-, rfl⟩ := step_fail hs
      refine hsame ?_ ?_ ?_ <;> simp
  | switch u =>
      by_cases hu : u = t
      · subst hu
        exact h.switched hs
      · obtain ⟨-, hs'⟩ := step_switch hs
        have hlog : s'.log t = s.log t := by
          rw [hs']
          exact update_of_ne (Ne.symm hu) _ _
        refine hsame (by rw [hlog]) (by rw [hlog]; exact id) ?_
        rcases step_switch_jan hs t with hjan | ⟨htu, -, -⟩
        · rw [hjan]
        · exact absurd htu.symm hu

/-! ## Admissions -/

/-- Only the handling of its own transaction changes what is recorded about an item. -/
theorem item_history_step {l : Label σ ι κ} {x : ι} (hs : step m s l = some s')
    (hl : ∀ received, l ≠ .log (.item x) received) : (s.item x).SameHistory (s'.item x) := by
  have hchange := item_change hs x
  generalize s'.item x = t at hchange ⊢
  cases hchange with
  | same => exact ⟨rfl, rfl⟩
  | own _ ht => exact ItemTask.step_history ht
  | request _ => exact ItemTask.connect_history _ _
  | unhandled => exact ItemTask.unhandled_history _
  | handled r hlog => exact absurd hlog (hl _)

/-- Only the handling of its own transaction changes what is recorded about a customer. -/
theorem cust_history_step (hr : Reachable m s) {l : Label σ ι κ} {c : κ} (hs : step m s l = some s')
    (hl : ∀ received, l ≠ .log (.cust c) received) : (s.cust c).SameHistory (s'.cust c) := by
  have hchange := cust_change hs c
  generalize s'.cust c = t at hchange ⊢
  cases hchange with
  | same _ => exact ⟨rfl, rfl, fun _ => rfl⟩
  | own _ ht => exact CustTask.step_history (cust_ok hr c) ht
  | reply _ _ => exact CustTask.deliver_history _ _ _ _
  | unhandled _ => exact CustTask.unhandled_history _
  | handled r hlog => exact absurd hlog (hl _)

/-- A store that is not open admits no item. -/
theorem item_admitted_of_shut (hr : Reachable m s) {l : Label σ ι κ} (hs : step m s l = some s') {x : ι}
    (hopen : s.simState (m.itemHome x) ≠ .storeOpen) (hnew : (s'.item x).admitted = true) :
    (s.item x).admitted = true := by
  by_cases hl : ∀ received, l ≠ .log (.item x) received
  · rw [← (item_history_step hs hl).1]
    exact hnew
  · obtain ⟨received, rfl⟩ := not_forall_not.mp hl
    obtain ⟨msg, r, -, hp, hlt, rfl⟩ := step_log hs
    obtain ⟨k, hpc⟩ := item_pc_of_pending hp
    have hok := item_ok hr x
    simp only [ItemTask.Ok, hpc] at hok
    have hrec : ((s.item x).answered
        (.handled (s.log (m.home (.item x))).store.simState r.ackCode received)).admitted = true := by
      simpa [answer, setLog] using hnew
    rw [(ItemTask.answered_history hpc _).1] at hrec
    cases k with
    | admitted =>
        obtain ⟨rfl, -⟩ := hok
        obtain rfl := Option.some.inj ((logTransaction_itemIn_shut _ hopen _).symm.trans hlt)
        simp [ItemTask.record, Code.val] at hrec
    | fail | retry | sold => exact hrec

/-- A store that is not open admits no customer. -/
theorem cust_admitted_of_shut (hr : Reachable m s) {l : Label σ ι κ} (hs : step m s l = some s') {c : κ}
    (hopen : s.simState (m.custHome c) ≠ .storeOpen) (hnew : (s'.cust c).admitted = true) :
    (s.cust c).admitted = true := by
  by_cases hl : ∀ received, l ≠ .log (.cust c) received
  · rw [← (cust_history_step hr hs hl).1]
    exact hnew
  · obtain ⟨received, rfl⟩ := not_forall_not.mp hl
    obtain ⟨msg, r, -, hp, hlt, rfl⟩ := step_log hs
    obtain ⟨k, hpc⟩ := cust_pc_of_pending hp
    have hok := (cust_ok hr c).pcOk
    simp only [CustTask.PcOk, hpc] at hok
    have hrec : ((s.cust c).answered
        (.handled (s.log (m.home (.cust c))).store.simState r.ackCode received)).admitted = true := by
      simpa [answer, setLog] using hnew
    rw [(CustTask.answered_history hpc _).1] at hrec
    cases k with
    | admitted =>
        obtain ⟨rfl, -⟩ := hok
        obtain rfl := Option.some.inj ((logTransaction_custIn_shut _ hopen _).symm.trans hlt)
        simp [CustTask.record, Code.val] at hrec
    | fail | retry | left => exact hrec

/-- **A store that is not open admits nobody.** -/
theorem not_admits (hr : Reachable m s) {l : Label σ ι κ} (hs : step m s l = some s')
    (hopen : s.simState t ≠ .storeOpen) : ¬ Admits m t (s, l, s') := by
  rintro (⟨x, hx, hold, hnew⟩ | ⟨c, hc, hold, hnew⟩)
  · subst hx
    have hadmitted := item_admitted_of_shut hr hs hopen hnew
    exact Bool.false_ne_true (hold.symm.trans hadmitted)
  · subst hc
    have hadmitted := cust_admitted_of_shut hr hs hopen hnew
    exact Bool.false_ne_true (hold.symm.trans hadmitted)

/-! ## Whole runs -/

/-- **The life cycle of a store.** Along every run, the store follows its life cycle exactly when no `SIM_KILL`
    is handled while it is closed. (`customersInStore` is over ℤ, which is its `int` below 2³¹ admissions.) -/
theorem lifeCycle_iff {tr : List (Transition σ ι κ)} (h : Lts.Run (step m) initial tr s) (t : σ) :
    LifeCycle m t tr ↔ ∀ e ∈ tr, NotLateKill t e := by
  constructor
  · rintro ⟨hforward, -⟩ ⟨u, l, u'⟩ he (hclosed : u.simState t = .storeClosed)
    -- a `SIM_KILL` in a closed store takes the state back
    rw [← Bool.not_eq_true]
    intro hlabel
    have hs : step m u l = some u' := (h.step_of_mem he).2
    have hback : (u.simState t).val ≤ (u'.simState t).val := hforward _ he
    obtain ⟨received, rfl⟩ : ∃ received, l = .log (.kill t) received := by
      unfold killsAt at hlabel
      split at hlabel
      · rename_i received heq
        obtain rfl := of_decide_eq_true hlabel
        exact ⟨received, heq⟩
      · cases hlabel
    obtain ⟨msg, r, -, hp, hlt, rfl⟩ := step_log hs
    obtain rfl := Option.some.inj hp
    have hnext : r.store.simState = .storeClosing := logTransaction_simState hlt
    have hclosing : ((u.setLog t ⟨r.store, .switch⟩).answer (.kill t)
        (.handled (u.log t).store.simState r.ackCode received)).simState t = .storeClosing := by
      simpa [simState, answer, setLog] using hnext
    simp only [Sim.home] at hback
    rw [hclosed, hclosing] at hback
    exact absurd hback (by decide)
  · intro hkill
    have hstage := (h.inv (I := Stage t) (C := NotLateKill t) (stage_initial t)
      (fun u l u' hr hst hk hs => (hst.step hr hk hs).1) hkill).2
    have hstep : ∀ e ∈ tr, Reachable m e.1 ∧ step m e.1 e.2.1 = some e.2.2 := fun e he => h.step_of_mem he
    refine ⟨?_, ?_, fun e he => (hstage e he).2.customers, ?_⟩
    · intro e he
      exact ((hstage e he).1.step (hstep e he).1 (hkill e he) (hstep e he).2).2
    · intro e he
      exact not_admits (hstep e he).1 (hstep e he).2
    · intro e he
      rw [(hstage e he).2.janitors]
      split <;> omega

end Cluster

/-! ## A late `SIM_KILL` -/

/-- `killSim` twice in an empty store, the second time before the janitor is done. -/
def killTwice : List (Label Bool Unit Unit) :=
  [.log (.kill false) true, .switch false, .log (.kill false) true, .switch false]

/-- The state goes back from `STORE_CLOSED` to `STORE_CLOSING`, and there are two janitors in the end. -/
theorem lifeCycle_second_kill : ∃ tr s, Lts.Run (Cluster.step twoStores) .initial tr s ∧
    (s.jan false).length = 2 ∧ ¬ Cluster.LifeCycle twoStores false tr := by
  have hrun : Lts.Run (Cluster.step twoStores) .initial (Lts.transitions (Cluster.step twoStores) .initial killTwice)
      (Lts.final (Cluster.step twoStores) .initial killTwice (by decide)) :=
    Lts.run_of_exec (Option.some_get _).symm
  have hback : (Lts.transitions (Cluster.step twoStores) .initial killTwice).any
      (fun e => decide ((e.2.2.simState false).val < (e.1.simState false).val)) = true := by decide
  refine ⟨_, _, hrun, by decide, ?_⟩
  intro hlife
  obtain ⟨e, he, hlt⟩ := List.any_eq_true.mp hback
  exact absurd (hlife.forward e he) (not_le.mpr (of_decide_eq_true hlt))

/-- One `SIM_KILL`, and the janitor ends the simulation: the store follows its life cycle to `STORE_EMPTY`. -/
def killOnce : List (Label Bool Unit Unit) :=
  [.log (.kill false) true, .switch false, .janitor false 0 (.subscribe none),
    .janitor false 0 (.event .timeout), .janitor false 0 .finish, .log (.janitor false 0) true, .switch false]

theorem lifeCycle_iff_killOnce :
    Cluster.LifeCycle twoStores false (Lts.transitions (Cluster.step twoStores) .initial killOnce) := by
  have hrun : Lts.Run (Cluster.step twoStores) .initial (Lts.transitions (Cluster.step twoStores) .initial killOnce)
      (Lts.final (Cluster.step twoStores) .initial killOnce (by decide)) :=
    Lts.run_of_exec (Option.some_get _).symm
  exact (Cluster.lifeCycle_iff hrun false).mpr (by decide)

end Inventory
end Tipcutils
