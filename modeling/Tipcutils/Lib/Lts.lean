import Mathlib.Data.List.Basic
import Mathlib.Tactic.TypeStar

/-!
# `Lib.Lts` — labelled transition systems given by a partial step function

A system is a function `step : S → L → Option S`: the label says who moves and how the environment
answers, and `none` says that the label is not enabled. Everything a system can do is then executable
(`exec`), and everything proved about it is one of eight rules:

* **`Reach.inv`** — an invariant that holds initially and is kept by every step holds in every reachable state;
* **`Run.inv`** — the same along a run whose transitions all meet a side condition, with the run's
  transitions at hand;
* **`Run.iff_forall`** — a property that no step regains holds at the end of a run if and only if the
  transitions all meet the side condition that keeps it;
* **`Run.le_and_forall`** — a measure that no transition lets gain on another one has kept up with it at the end of a run
  only if no transition has let it fall behind;
* **`exec_record`** — an invariant that ties the states to a record of the labels so far;
* **`exec_rank`** — a rank that every step lowers bounds the length of every execution;
* **`exists_exec_stuck`** — where the executions are bounded, one of them comes to a state without a step;
* **`reach_of_exec`** — an executed label sequence ends in a reachable state (so a concrete run is
  evaluated, not derived).

Nothing here mentions a concrete program.
-/

namespace Tipcutils
namespace Lts

variable {S L : Type*} {step : S → L → Option S} {init s s' : S}

/-! ## Execution and reachability -/

/-- Execute a label sequence; `none` as soon as a label is not enabled. -/
def exec (step : S → L → Option S) : S → List L → Option S
  | s, [] => some s
  | s, l :: ls => (step s l).bind fun s' => exec step s' ls

/-- The states reachable from `init`. -/
inductive Reach (step : S → L → Option S) (init : S) : S → Prop where
  | refl : Reach step init init
  | tail {s s' : S} {l : L} : Reach step init s → step s l = some s' → Reach step init s'

/-- A property of every initial state that each step keeps holds in every reachable state. -/
theorem Reach.inv {I : S → Prop} (h0 : I init)
    (hstep : ∀ s l s', I s → step s l = some s' → I s') (h : Reach step init s) : I s := by
  induction h with
  | refl => exact h0
  | tail _ hs ih => exact hstep _ _ _ ih hs

/-- As `Reach.inv`, where the step may use an invariant that is already established. -/
theorem Reach.inv_of {J I : S → Prop} (hJ : ∀ s, Reach step init s → J s) (h0 : I init)
    (hstep : ∀ s l s', J s → I s → step s l = some s' → I s') (h : Reach step init s) : I s := by
  induction h with
  | refl => exact h0
  | tail hr hs ih => exact hstep _ _ _ (hJ _ hr) ih hs

theorem exec_reach {ls : List L} (hr : Reach step init s) (h : exec step s ls = some s') :
    Reach step init s' := by
  induction ls generalizing s with
  | nil =>
      obtain rfl : s = s' := Option.some.inj h
      exact hr
  | cons l ls ih =>
      obtain ⟨t, ht, hrest⟩ := Option.bind_eq_some_iff.mp h
      exact ih (hr.tail ht) hrest

/-- **The rule for records.** A relation between the states and a record of the labels that each step keeps holds at the
    end of an execution. -/
theorem exec_record {R : Type*} {I : S → R → Prop} {record : R → L → R} {r : R} {ls : List L}
    (hstep : ∀ s r l s', I s r → step s l = some s' → I s' (record r l)) (h0 : I s r) (h : exec step s ls = some s') :
    I s' (ls.foldl record r) := by
  induction ls generalizing s r with
  | nil =>
      obtain rfl : s = s' := Option.some.inj h
      exact h0
  | cons l ls ih =>
      obtain ⟨t, ht, hrest⟩ := Option.bind_eq_some_iff.mp h
      exact ih (hstep _ _ _ _ h0 ht) hrest

/-- **The rule for ranks.** Where every step keeps an invariant and lowers a rank, no execution is longer than the rank it
    starts with. -/
theorem exec_rank {I : S → Prop} {rank : S → ℕ} {ls : List L}
    (hstep : ∀ s l s', I s → step s l = some s' → I s' ∧ rank s' < rank s) (h0 : I s) (h : exec step s ls = some s') :
    ls.length + rank s' ≤ rank s := by
  induction ls generalizing s with
  | nil =>
      obtain rfl : s = s' := Option.some.inj h
      exact Nat.le_of_eq (Nat.zero_add _)
  | cons l ls ih =>
      obtain ⟨t, ht, hrest⟩ := Option.bind_eq_some_iff.mp h
      obtain ⟨hI, hlt⟩ := hstep _ _ _ h0 ht
      have hle := ih hI hrest
      rw [List.length_cons]
      omega

theorem exec_concat {ls : List L} {l : L} {t : S} (h : exec step s ls = some s') (hs : step s' l = some t) :
    exec step s (ls ++ [l]) = some t := by
  induction ls generalizing s with
  | nil =>
      obtain rfl : s = s' := Option.some.inj h
      exact Option.bind_eq_some_iff.mpr ⟨t, hs, rfl⟩
  | cons l' ls ih =>
      obtain ⟨u, hu, hrest⟩ := Option.bind_eq_some_iff.mp h
      exact Option.bind_eq_some_iff.mpr ⟨u, hu, ih hrest⟩

/-- **The rule for ends.** Where the executions are bounded, one of them comes to a state without a step. -/
theorem exists_exec_stuck {n : ℕ} (h : ∀ ls s', exec step s ls = some s' → ls.length ≤ n) :
    ∃ ls s', exec step s ls = some s' ∧ ∀ l, step s' l = none := by
  by_contra hgoes
  -- then there are executions of every length
  have hlong (k : ℕ) : ∃ ls s', exec step s ls = some s' ∧ ls.length = k := by
    induction k with
    | zero => exact ⟨[], s, rfl, rfl⟩
    | succ k ih =>
        obtain ⟨ls, s', hs', hk⟩ := ih
        obtain ⟨l, hl⟩ := not_forall.mp fun hstuck => hgoes ⟨ls, s', hs', hstuck⟩
        obtain ⟨t, ht⟩ := Option.ne_none_iff_exists'.mp hl
        exact ⟨ls ++ [l], t, exec_concat hs' ht, by rw [List.length_append, hk, List.length_singleton]⟩
  obtain ⟨ls, s', hs', hk⟩ := hlong (n + 1)
  have hle := h ls s' hs'
  omega

/-- The end of an executed label sequence is reachable. -/
theorem reach_of_exec {ls : List L} (h : exec step init ls = some s) : Reach step init s :=
  exec_reach .refl h

/-- The end of a label sequence that can be executed. -/
def final (step : S → L → Option S) (init : S) (ls : List L) (h : (exec step init ls).isSome = true) : S :=
  (exec step init ls).get h

theorem reach_final {ls : List L} (h : (exec step init ls).isSome = true) :
    Reach step init (final step init ls h) :=
  reach_of_exec (Option.some_get h).symm

/-! ## Runs, with their transitions -/

/-- `Run step init tr s`: from `init`, the transitions `tr` (state, label, next state) lead to `s`. -/
inductive Run (step : S → L → Option S) (init : S) : List (S × L × S) → S → Prop where
  | nil : Run step init [] init
  | snoc {tr : List (S × L × S)} {s s' : S} {l : L} :
      Run step init tr s → step s l = some s' → Run step init (tr ++ [(s, l, s')]) s'

theorem Run.reach {tr : List (S × L × S)} (h : Run step init tr s) : Reach step init s := by
  induction h with
  | nil => exact .refl
  | snoc _ hs ih => exact ih.tail hs

/-- Every transition of a run is a step taken from a reachable state. -/
theorem Run.step_of_mem {tr : List (S × L × S)} {t : S × L × S} (h : Run step init tr s) (ht : t ∈ tr) :
    Reach step init t.1 ∧ step t.1 t.2.1 = some t.2.2 := by
  induction h with
  | nil => exact absurd ht (by simp)
  | snoc hr hs ih =>
      rcases List.mem_append.mp ht with hmem | hlast
      · exact ih hmem
      · rw [List.mem_singleton.mp hlast]
        exact ⟨hr.reach, hs⟩

/-- **The run rule.** If `I` holds initially and is kept by every transition that meets `C`, then along a run
    whose transitions all meet `C` it holds in the last state and before and after each transition. -/
theorem Run.inv {I : S → Prop} {C : S × L × S → Prop} {tr : List (S × L × S)} (h0 : I init)
    (hstep : ∀ s l s', Reach step init s → I s → C (s, l, s') → step s l = some s' → I s')
    (h : Run step init tr s) (hC : ∀ t ∈ tr, C t) : I s ∧ ∀ t ∈ tr, I t.1 ∧ I t.2.2 := by
  induction h with
  | nil => exact ⟨h0, fun t ht => absurd ht (by simp)⟩
  | @snoc tr s s' l hr hs ih =>
      obtain ⟨hI, hall⟩ := ih fun t ht => hC t (List.mem_append_left _ ht)
      have hI' : I s' := hstep s l s' hr.reach hI (hC _ (by simp)) hs
      refine ⟨hI', ?_⟩
      intro t ht
      rcases List.mem_append.mp ht with hmem | hlast
      · exact hall t hmem
      · rw [List.mem_singleton.mp hlast]
        exact ⟨hI, hI'⟩

/-- **The rule for what is lost for good.** No step regains `P`, and a step that keeps it meets `C`; the invariant `I`,
    which gives `P`, holds initially and is kept by the steps that meet `C`. Then `P` holds at the end of a run if
    and only if its transitions all meet `C`. -/
theorem Run.iff_forall {P I : S → Prop} {C : S × L × S → Prop} {tr : List (S × L × S)} (h0 : I init)
    (hP : ∀ s, I s → P s) (hlost : ∀ s l s', step s l = some s' → P s' → P s)
    (hC : ∀ s l s', I s → step s l = some s' → P s' → C (s, l, s'))
    (hI : ∀ s l s', I s → step s l = some s' → C (s, l, s') → I s') (h : Run step init tr s) :
    P s ↔ ∀ t ∈ tr, C t := by
  constructor
  · intro hs
    -- along the run `P` gives `C`, and `C` keeps `I`
    have hall : I s ∧ ∀ t ∈ tr, C t := by
      induction h with
      | nil => exact ⟨h0, fun t ht => absurd ht (by simp)⟩
      | @snoc tr s s' l _ hstep ih =>
          obtain ⟨hIs, hall⟩ := ih (hlost s l s' hstep hs)
          have hlast := hC s l s' hIs hstep hs
          refine ⟨hI s l s' hIs hstep hlast, ?_⟩
          intro t ht
          rcases List.mem_append.mp ht with hmem | heq
          · exact hall t hmem
          · rw [List.mem_singleton.mp heq]
            exact hlast
    exact hall.2
  · intro hall
    exact hP s (h.inv h0 (fun s l s' _ hIs hCs hstep => hI s l s' hIs hstep hCs) hall).1

/-- If no transition lets `f` gain on `g`, then `f` stays below `g`; and where it has kept up with `g` to the end, no
    transition has let it fall behind. -/
theorem Run.le_and_forall {f g : S → ℕ} {C : S × L × S → Prop} {tr : List (S × L × S)} (h0 : f init ≤ g init)
    (h : Run step init tr s)
    (hstep : ∀ t ∈ tr, f t.2.2 + g t.1 ≤ f t.1 + g t.2.2 ∧ (f t.2.2 + g t.1 = f t.1 + g t.2.2 → C t)) :
    f s ≤ g s ∧ (f s = g s → ∀ t ∈ tr, C t) := by
  induction h with
  | nil => exact ⟨h0, fun _ t ht => absurd ht List.not_mem_nil⟩
  | snoc _ _ ih =>
      obtain ⟨hle, hall⟩ := ih fun t ht => hstep t (List.mem_append_left _ ht)
      obtain ⟨hgain, hlast⟩ := hstep _ (List.mem_append_right _ (List.mem_singleton_self _))
      dsimp only at hgain hlast
      refine ⟨by omega, ?_⟩
      intro heq t ht
      rcases List.mem_append.mp ht with hmem | hmem
      · exact hall (by omega) t hmem
      · rw [List.mem_singleton.mp hmem]
        exact hlast (by omega)

/-- A run that makes a step ends with a transition to its last state. -/
theorem Run.exists_last {tr : List (S × L × S)} (h : Run step init tr s) (hne : tr ≠ []) : ∃ t ∈ tr, t.2.2 = s := by
  cases h with
  | nil => exact absurd rfl hne
  | snoc _ _ => exact ⟨_, List.mem_append_right _ (List.mem_singleton_self _), rfl⟩

/-- The transitions of an executed label sequence. -/
def transitions (step : S → L → Option S) : S → List L → List (S × L × S)
  | _, [] => []
  | s, l :: ls =>
    match step s l with
    | none => []
    | some s' => (s, l, s') :: transitions step s' ls

theorem Run.append_exec {tr : List (S × L × S)} {ls : List L} (hr : Run step init tr s)
    (h : exec step s ls = some s') : Run step init (tr ++ transitions step s ls) s' := by
  induction ls generalizing s tr with
  | nil =>
      obtain rfl : s = s' := Option.some.inj h
      simpa [transitions] using hr
  | cons l ls ih =>
      obtain ⟨t, ht, hrest⟩ := Option.bind_eq_some_iff.mp h
      have := ih (hr.snoc ht) hrest
      simpa [transitions, ht] using this

/-- An executed label sequence is a run. -/
theorem run_of_exec {ls : List L} (h : exec step init ls = some s) :
    Run step init (transitions step init ls) s := by
  simpa using Run.append_exec .nil h

end Lts
end Tipcutils
