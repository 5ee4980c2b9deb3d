import Mathlib.Data.Nat.Notation

/-!
# `Lib.LastLeast` — the last of the least entries of a list

A loop that keeps the best entry so far, and takes a new one that is at least as good, ends with the last of the least
entries (**`LastLeast.concat`**), and there is only one of these (**`LastLeast.unique`**).

Nothing here mentions a concrete program.
-/

namespace Tipcutils

/-- `p` is the last of the entries with the least key. -/
def LastLeast {α : Type} (key : α → ℕ) (l : List α) (p : α) : Prop :=
  ∃ before after, l = before ++ p :: after ∧ (∀ q ∈ before, key p ≤ key q) ∧ ∀ q ∈ after, key p < key q

variable {α : Type} {key : α → ℕ} {l : List α} {p q : α}

theorem LastLeast.singleton (key : α → ℕ) (p : α) : LastLeast key [p] p := ⟨[], [], rfl, nofun, nofun⟩

theorem LastLeast.le (h : LastLeast key l p) (hq : q ∈ l) : key p ≤ key q := by
  obtain ⟨before, after, rfl, hbefore, hafter⟩ := h
  rw [List.mem_append, List.mem_cons] at hq
  obtain hq | rfl | hq := hq
  · exact hbefore q hq
  · omega
  · exact Nat.le_of_lt (hafter q hq)

/-- One more entry. -/
theorem LastLeast.concat (h : LastLeast key l p) (q : α) : LastLeast key (l ++ [q]) (if key q ≤ key p then q else p) := by
  split
  next hle => exact ⟨l, [], rfl, fun r hr => Nat.le_trans hle (h.le hr), nofun⟩
  next hlt =>
    obtain ⟨before, after, rfl, hbefore, hafter⟩ := h
    refine ⟨before, after ++ [q], by simp, hbefore, fun r hr => ?_⟩
    rcases List.mem_append.mp hr with hr | hr
    · exact hafter r hr
    · rw [List.mem_singleton.mp hr]
      exact Nat.not_le.mp hlt

theorem LastLeast.unique (hp : LastLeast key l p) (hq : LastLeast key l q) : p = q := by
  obtain ⟨before, after, rfl, hbefore, hafter⟩ := hp
  obtain ⟨before', after', heq, hbefore', hafter'⟩ := hq
  rcases List.append_eq_append_iff.mp heq with ⟨mid, rfl, hmid⟩ | ⟨mid, rfl, hmid⟩
  · cases mid with
    | nil => exact (List.cons.inj hmid).1
    | cons r mid =>
      -- `q` is behind `p`
      obtain ⟨rfl, rfl⟩ := List.cons.inj hmid
      have hlt := hafter q (by simp)
      have hle := hbefore' p (by simp)
      omega
  · cases mid with
    | nil => exact (List.cons.inj hmid).1.symm
    | cons r mid =>
      obtain ⟨rfl, rfl⟩ := List.cons.inj hmid
      have hlt := hafter' p (by simp)
      have hle := hbefore q (by simp)
      omega

end Tipcutils
