import Mathlib.Algebra.BigOperators.Group.List.Basic
import Mathlib.Algebra.GroupWithZero.Nat
import Mathlib.Data.List.Basic

/-!
# `Lib.Gaps` — the gaps in a sequence of numbers of which some are missing

A receiver of numbered messages expects one number after the other and notes how far each number that arrives is ahead.
Of numbers that go up, the gaps sum to what is missing before the last number (**`gaps_sum`**).

Nothing here mentions a concrete program.
-/

namespace Tipcutils

/-- The numbers go up, from `e` on. -/
def Rising : ℕ → List ℕ → Prop
  | _, [] => True
  | e, n :: ns => e ≤ n ∧ Rising (n + 1) ns

/-- How far each number is ahead of the expected one, where `e` is expected first. -/
def gaps : ℕ → List ℕ → List ℕ
  | _, [] => []
  | e, n :: ns => (n - e) :: gaps (n + 1) ns

/-- The number that is expected in the end. -/
def expected : ℕ → List ℕ → ℕ
  | e, [] => e
  | _, n :: ns => expected (n + 1) ns

variable {e n : ℕ} {ns : List ℕ}

/-- **What is missing is what the gaps sum to.** -/
theorem gaps_sum (h : Rising e ns) : e + (gaps e ns).sum + ns.length = expected e ns := by
  induction ns generalizing e with
  | nil => rfl
  | cons n ns ih =>
    have hrest := ih h.2
    have hle := h.1
    rw [gaps, List.sum_cons, List.length_cons, expected, ← hrest]
    omega

theorem expected_of_getLast? (h : ns.getLast? = some n) : expected e ns = n + 1 := by
  induction ns generalizing e with
  | nil => nomatch h
  | cons m ns ih =>
    cases ns with
    | nil =>
      obtain rfl := Option.some.inj h
      rfl
    | cons m' ns => exact @ih (m + 1) h

/-- The last number is the greatest. -/
theorem Rising.le_getLast {m : ℕ} (h : Rising e ns) (hlast : ns.getLast? = some n) (hm : m ∈ ns) : m ≤ n := by
  induction ns generalizing e m with
  | nil => nomatch hm
  | cons k ns ih =>
    cases ns with
    | nil =>
      obtain rfl := Option.some.inj hlast
      exact Nat.le_of_eq (List.mem_singleton.mp hm)
    | cons k' ns =>
      have hlast' : (k' :: ns).getLast? = some n := hlast
      rcases List.mem_cons.mp hm with rfl | hm
      · have hnext := h.2.1
        have hle := ih h.2 hlast' List.mem_cons_self
        omega
      · exact ih h.2 hlast' hm

theorem Rising.mono {e' : ℕ} (h : Rising e ns) (hle : e' ≤ e) : Rising e' ns := by
  cases ns with
  | nil => trivial
  | cons n ns => exact ⟨Nat.le_trans hle h.1, h.2⟩

/-- Some of the numbers from `e` on, in their order. -/
theorem Rising.of_sublist {c : ℕ} (h : ns.Sublist (List.range' e c)) : Rising e ns := by
  induction c generalizing e ns with
  | zero =>
    rw [List.sublist_nil.mp h]
    trivial
  | succ c ih =>
    rw [List.range'_succ] at h
    cases h with
    | cons _ h => exact (ih h).mono (Nat.le_succ e)
    | cons_cons _ h => exact ⟨Nat.le_refl e, ih h⟩

/-- No gap is no addend. -/
theorem sum_filter_ne_zero (ns : List ℕ) : (ns.filter fun n => n ≠ 0).sum = ns.sum := by
  induction ns with
  | nil => rfl
  | cons n ns ih =>
    by_cases hn : n = 0
    · simp only [hn, ne_eq, not_true_eq_false, decide_false, List.filter_cons, Bool.false_eq_true, if_false, List.sum_cons,
        Nat.zero_add]
      exact ih
    · simp only [hn, ne_eq, not_false_eq_true, decide_true, List.filter_cons, if_true, List.sum_cons]
      exact congrArg (n + ·) ih

/-- How many numbers are missing before the last one. -/
def missing (ns : List ℕ) : ℕ :=
  match ns.getLast? with
  | none => 0
  | some n => ((List.range n).filter (· ∉ ns)).length

/-- **Of numbers from 0 on, some of which are missing, the gaps sum to those that are missing before the last one.** -/
theorem gaps_sum_eq_missing {c : ℕ} (h : ns.Sublist (List.range c)) : (gaps 0 ns).sum = missing ns := by
  have hrising := Rising.of_sublist (List.range_eq_range' ▸ h)
  have hsum := gaps_sum hrising
  unfold missing
  cases hlast : ns.getLast? with
  | none =>
    rw [List.getLast?_eq_none_iff] at hlast
    rw [hlast]
    rfl
  | some n =>
    rw [expected_of_getLast? hlast] at hsum
    have hmem : n ∈ ns := List.mem_of_getLast? hlast
    have hle : ∀ m ∈ ns, m ≤ n := fun m hm => hrising.le_getLast hlast hm
    -- the numbers up to `n` are those that are there and those that are missing
    have hthere : ((List.range (n + 1)).filter (· ∈ ns)).length = ns.length := by
      apply List.Perm.length_eq
      rw [List.perm_ext_iff_of_nodup (List.nodup_range.filter _) (h.nodup List.nodup_range)]
      intro m
      simp only [List.mem_filter, List.mem_range, decide_eq_true_eq]
      exact and_iff_right_of_imp fun hm => Nat.lt_succ_of_le (hle m hm)
    have hall := (List.range (n + 1)).length_eq_length_filter_add (· ∈ ns)
    have hmissing : (List.range (n + 1)).filter (fun m => !decide (m ∈ ns)) = (List.range n).filter (· ∉ ns) := by
      rw [List.range_succ, List.filter_append]
      simp [hmem]
    rw [List.length_range, hthere, hmissing] at hall
    show _ = ((List.range n).filter (· ∉ ns)).length
    omega

end Tipcutils
