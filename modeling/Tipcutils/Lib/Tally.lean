import Mathlib.Algebra.BigOperators.Ring.Finset
import Mathlib.Algebra.BigOperators.Group.Finset.Sigma
import Mathlib.Algebra.Order.BigOperators.Group.Finset
import Mathlib.Data.Fintype.BigOperators
import Mathlib.Logic.Function.Basic
import Mathlib.Tactic.SplitIfs

/-!
# `Lib.Tally` — counting the members of a finite family that are in a given state

A family of parties is a function `f : α → β` (each party's state). `tally p f` is the number of parties `a`
with `p a (f a)`. A step of one party is a `Function.update`, so everything a counting invariant needs is the
effect of one update on a tally:

* **`tally_update`** — the exchange law: the old contribution out, the new one in;
* **`sum_tally_fiber`** — a tally split by a key is the sum of the parts.

`census K q f` is the tally of a fixed group `K` of parties whose state passes the test `q`; **`census_update`**
is its exchange law over ℤ, in the form in which a counter moves, and **`update_eq_census`** the same for counters
by a key. Where a total reaches what its parties can contribute at most, every party has contributed it
(**`eq_of_sum_range_eq`**). The totals over the first `n` parties move by one with a party that counts one more
(**`sum_range_update_succ`**).

Nothing here mentions a concrete program.
-/

namespace Tipcutils

open Finset Function

variable {α β : Type*} [Fintype α]

/-- The number of parties `a` whose state `f a` satisfies `p a`. -/
def tally (p : α → β → Prop) [∀ a, DecidablePred (p a)] (f : α → β) : ℕ :=
  (univ.filter fun a => p a (f a)).card

section Basic

variable {p q : α → β → Prop} [∀ a, DecidablePred (p a)] [∀ a, DecidablePred (q a)] {f g : α → β}

theorem tally_eq_sum : tally p f = ∑ a, if p a (f a) then 1 else 0 := by
  simp [tally]

theorem tally_congr (h : ∀ a, p a (f a) ↔ q a (g a)) : tally p f = tally q g := by
  unfold tally
  congr 1
  ext a
  simp [h a]

theorem tally_eq_zero (h : ∀ a, ¬ p a (f a)) : tally p f = 0 := by
  simp [tally, h]

/-- A property that is one of two exclusive ones is counted by the sum of their tallies. -/
theorem tally_or {r : α → β → Prop} [∀ a, DecidablePred (r a)]
    (hr : ∀ a, r a (f a) ↔ p a (f a) ∨ q a (f a)) (hpq : ∀ a, ¬ (p a (f a) ∧ q a (f a))) :
    tally r f = tally p f + tally q f := by
  rw [tally_eq_sum, tally_eq_sum, tally_eq_sum, ← sum_add_distrib]
  refine sum_congr rfl fun a _ => ?_
  have h1 := hr a
  have h2 := hpq a
  by_cases hp : p a (f a) <;> by_cases hq : q a (f a) <;> simp_all

end Basic

/-! ## One party moves -/

section Update

variable [DecidableEq α] {p : α → β → Prop} [∀ a, DecidablePred (p a)] (f : α → β) (a : α) (b : β)

/-- **The exchange law.** Replacing party `a`'s state by `b` takes its old contribution out and puts the new one in. -/
theorem tally_update :
    tally p (update f a b) + (if p a (f a) then 1 else 0) = tally p f + (if p a b then 1 else 0) := by
  have hrest : ∑ x ∈ univ.erase a, (if p x (update f a b x) then 1 else 0)
      = ∑ x ∈ univ.erase a, (if p x (f x) then 1 else 0) :=
    sum_congr rfl fun x hx => by rw [update_of_ne (ne_of_mem_erase hx)]
  rw [tally_eq_sum, tally_eq_sum, ← add_sum_erase univ _ (mem_univ a), hrest,
    ← add_sum_erase univ (fun x => if p x (f x) then 1 else 0) (mem_univ a), update_self]
  omega

end Update

/-! ## Splitting a tally by a key -/

/-- A tally is the sum, over the values of a key, of the tallies of the parties with that key. -/
theorem sum_tally_fiber {γ : Type*} [Fintype γ] [DecidableEq γ] (key : α → γ) (p : α → β → Prop)
    [∀ a, DecidablePred (p a)] (f : α → β) :
    ∑ k, tally (fun a b => key a = k ∧ p a b) f = tally p f := by
  unfold tally
  rw [card_eq_sum_card_fiberwise (f := key) (t := univ) (fun a _ => mem_coe.mpr (mem_univ _))]
  refine sum_congr rfl fun k _ => ?_
  rw [filter_filter]
  congr 1
  ext a
  simp [and_comm]

/-! ## A group of parties and a test -/

/-- The number of parties in `K` whose state passes the test `q`. -/
def census (K : α → Prop) [DecidablePred K] (q : β → Bool) (f : α → β) : ℕ :=
  tally (fun a b => K a ∧ q b = true) f

section Census

variable {K : α → Prop} [DecidablePred K] {q : β → Bool} {f g : α → β}

theorem census_congr (h : ∀ a, K a → q (f a) = q (g a)) : census K q f = census K q g := by
  refine tally_congr fun a => and_congr_right fun ha => ?_
  rw [h a ha]

theorem census_eq_zero (h : ∀ a, K a → q (f a) = false) : census K q f = 0 :=
  tally_eq_zero fun a ha => by simp [h a ha.1] at ha

/-- A test that is one of two exclusive ones is counted by the sum. -/
theorem census_add {q₁ q₂ : β → Bool} (hq : ∀ a, K a → q (f a) = (q₁ (f a) || q₂ (f a)))
    (hex : ∀ a, K a → (q₁ (f a) && q₂ (f a)) = false) :
    census K q f = census K q₁ f + census K q₂ f := by
  refine tally_or (fun a => ?_) fun a => ?_
  · constructor
    · rintro ⟨ha, h⟩
      rw [hq a ha, Bool.or_eq_true] at h
      exact h.imp (⟨ha, ·⟩) (⟨ha, ·⟩)
    · rintro (⟨ha, h⟩ | ⟨ha, h⟩)
      · exact ⟨ha, by rw [hq a ha, h, Bool.true_or]⟩
      · exact ⟨ha, by rw [hq a ha, h, Bool.or_true]⟩
  · rintro ⟨⟨ha, h₁⟩, -, h₂⟩
    have := hex a ha
    rw [h₁, h₂] at this
    exact absurd this (by decide)

/-- **The exchange law of a census.** -/
theorem census_update [DecidableEq α] (f : α → β) (a : α) (b : β) :
    (census K q (update f a b) : ℤ) =
      census K q f + if K a then (if q b then 1 else 0) - (if q (f a) then 1 else 0) else 0 := by
  have := tally_update (p := fun a b => K a ∧ q b = true) f a b
  unfold census
  by_cases hK : K a
  · simp only [hK, true_and] at this
    simp only [if_pos hK]
    split_ifs at this ⊢ <;> omega
  · simp only [hK, false_and, if_false] at this
    simp only [if_neg hK]
    omega

/-- Counters that count the group by a key still do after one party has moved, if the counter of its key moves with it. -/
theorem update_eq_census [DecidableEq α] {γ : Type*} [DecidableEq γ] {key : α → γ} {count : γ → ℤ} {f : α → β} {a : α}
    {b : β} {n : ℤ} (hcount : ∀ i, count i = census (fun a => K a ∧ key a = i) q f) (hK : K a)
    (hn : n = count (key a) + ((if q b then 1 else 0) - (if q (f a) then 1 else 0))) (i : γ) :
    update count (key a) n i = census (fun a => K a ∧ key a = i) q (update f a b) := by
  rw [census_update]
  by_cases hi : key a = i
  · subst hi
    have hmem : K a ∧ key a = key a := ⟨hK, rfl⟩
    rw [update_self, hn, hcount, if_pos hmem]
  · have hnot : ¬ (K a ∧ key a = i) := fun h => hi h.2
    rw [update_of_ne (Ne.symm hi), hcount, if_neg hnot, add_zero]

/-- A census split by a key is the sum of the parts. -/
theorem sum_census {γ : Type*} [Fintype γ] [DecidableEq γ] (key : α → γ) :
    ∑ k, census (fun a => K a ∧ key a = k) q f = census K q f := by
  have := sum_tally_fiber key (fun a b => K a ∧ q b = true) f
  unfold census
  rw [← this]
  refine sum_congr rfl fun k _ => tally_congr fun a => ?_
  rw [and_assoc, and_left_comm]

end Census

/-! ## Totals over the first `n` parties -/

section Totals

variable {γ : Type*} {conn : ℕ → γ} {c' : γ} {count : γ → ℕ} {f : ℕ → ℕ} {i n K : ℕ}

/-- What holds of the first `n` parties still does when one of them moves, if it holds of that one. -/
theorem forall_lt_update (P : γ → Prop) (h : ∀ j < n, P (conn j)) (hP : P (conn i) → P c') :
    ∀ j < n, P (update conn i c' j) :=
  (forall_update_iff conn fun j c => j < n → P c).mpr ⟨fun hi => hP (h i hi), fun j _ hj => h j hj⟩

/-- One party counts one more. -/
theorem sum_range_update_succ (hi : i < n) (hc : count c' = count (conn i) + 1) :
    ∑ j ∈ range n, count (update conn i c' j) = ∑ j ∈ range n, count (conn j) + 1 := by
  have hmem : i ∈ range n := mem_range.mpr hi
  have hrest : ∑ j ∈ (range n).erase i, count (update conn i c' j) = ∑ j ∈ (range n).erase i, count (conn j) := by
    apply sum_congr rfl
    intro j hj
    rw [update_of_ne (ne_of_mem_erase hj)]
  rw [← add_sum_erase _ _ hmem, ← add_sum_erase _ (fun j => count (conn j)) hmem, hrest, update_self, hc]
  omega

/-- One party moves that counts as before. -/
theorem sum_range_update_eq (hc : count c' = count (conn i)) :
    ∑ j ∈ range n, count (update conn i c' j) = ∑ j ∈ range n, count (conn j) :=
  sum_congr rfl fun j _ => (forall_update_iff conn fun j c => count c = count (conn j)).mpr ⟨hc, fun _ _ => rfl⟩ j

/-- One party moves that counts less then. -/
theorem sum_range_update_lt (hi : i < n) (hc : count c' < count (conn i)) :
    ∑ j ∈ range n, count (update conn i c' j) < ∑ j ∈ range n, count (conn j) := by
  apply sum_lt_sum
  · intro j _
    exact (forall_update_iff conn fun j c => count c ≤ count (conn j)).mpr ⟨Nat.le_of_lt hc, fun _ _ => Nat.le_refl _⟩ j
  · exact ⟨i, mem_range.mpr hi, by rw [update_self]; exact hc⟩

/-- One more party. -/
theorem sum_range_update_new (conn : ℕ → γ) (c' : γ) (count : γ → ℕ) (n : ℕ) :
    ∑ j ∈ range (n + 1), count (update conn n c' j) = ∑ j ∈ range n, count (conn j) + count c' := by
  rw [sum_range_succ, update_self]
  congr 1
  apply sum_congr rfl
  intro j hj
  rw [update_of_ne (Nat.ne_of_lt (mem_range.mp hj))]

theorem sum_range_of_eq (h : ∀ j < n, f j = K) : ∑ j ∈ range n, f j = n * K := by
  rw [sum_congr rfl fun j hj => h j (mem_range.mp hj)]
  simp

/-- A total that has not reached its bound leaves some party behind. -/
theorem exists_le_of_sum_range (hsum : ∑ j ∈ range n, f j = n * K + i) (hi : i < n) : ∃ j < n, f j ≤ K := by
  obtain ⟨j, hj, hlt⟩ := exists_lt_of_sum_lt (f := f) (g := fun _ => K + 1) (s := range n) (by
    rw [hsum, sum_range_of_eq (fun _ _ => rfl), Nat.mul_succ]
    exact Nat.add_lt_add_left hi _)
  exact ⟨j, mem_range.mp hj, Nat.le_of_lt_succ hlt⟩

/-- A total that reaches its bound is reached by every party. -/
theorem eq_of_sum_range_eq (hle : ∀ j < n, f j ≤ K) (hsum : ∑ j ∈ range n, f j = n * K) : ∀ j < n, f j = K := by
  have hall := (sum_eq_sum_iff_of_le fun j hj => hle j (mem_range.mp hj)).mp (by simp [hsum])
  exact fun j hj => hall j (mem_range.mpr hj)

end Totals

end Tipcutils
