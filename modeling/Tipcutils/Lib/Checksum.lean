import Tipcutils.Lib.Wire

/-!
# `Lib.Checksum` — altered entries, and what an exclusive-or checksum makes of one

`Altered l l'` says that `l'` is `l` with exactly one entry changed; `differences l l'` counts the changed entries. The
exclusive-or of octets notices any single change (**`Altered.xorSum_ne`**).

Nothing here mentions a concrete program.
-/

namespace Tipcutils

/-- `l'` is `l` with exactly one entry changed. -/
def Altered {α : Type} (l l' : List α) : Prop := ∃ a x y b, x ≠ y ∧ l = a ++ x :: b ∧ l' = a ++ y :: b

section
variable {α : Type} {l l' l₁ l₂ : List α}

theorem Altered.length_eq (h : Altered l l') : l'.length = l.length := by
  obtain ⟨a, x, y, b, -, rfl, rfl⟩ := h
  simp

theorem Altered.ne (h : Altered l l') : l' ≠ l := by
  obtain ⟨a, x, y, b, hne, rfl, rfl⟩ := h
  intro heq
  exact hne (List.cons.inj (List.append_cancel_left heq)).1.symm

/-- The change is in one of the two parts. -/
theorem Altered.of_append (h : Altered (l₁ ++ l₂) l') :
    (∃ l₁', Altered l₁ l₁' ∧ l' = l₁' ++ l₂) ∨ ∃ l₂', Altered l₂ l₂' ∧ l' = l₁ ++ l₂' := by
  obtain ⟨a, x, y, b, hne, heq, rfl⟩ := h
  rcases List.append_eq_append_iff.mp heq with ⟨a', rfl, rfl⟩ | ⟨c, rfl, hc⟩
  · exact .inr ⟨a' ++ y :: b, ⟨a', x, y, b, hne, rfl, rfl⟩, List.append_assoc _ _ _⟩
  · cases c with
    | nil => exact .inr ⟨y :: b, ⟨[], x, y, b, hne, hc.symm, rfl⟩, by simp⟩
    | cons x' c =>
      obtain ⟨rfl, rfl⟩ := List.cons.inj hc
      exact .inl ⟨a ++ y :: c, ⟨a, x, y, c, hne, rfl, rfl⟩, by simp⟩

end

/-! ## Counting the changes -/

/-- At how many places two lists have different entries. -/
def differences {α : Type} [DecidableEq α] (l l' : List α) : ℕ := (l.zip l').countP fun p => p.1 ≠ p.2

section
variable {α : Type} [DecidableEq α] {l l' l₁ l₂ : List α}

theorem differences_cons (x y : α) (l l' : List α) :
    differences (x :: l) (y :: l') = (if x ≠ y then 1 else 0) + differences l l' := by
  unfold differences
  rw [List.zip_cons_cons, List.countP_cons, Nat.add_comm]
  simp

theorem differences_append (h : l₁.length = l₂.length) (l l' : List α) :
    differences (l₁ ++ l) (l₂ ++ l') = differences l₁ l₂ + differences l l' := by
  unfold differences
  rw [List.zip_append h, List.countP_append]

@[simp] theorem differences_self (l : List α) : differences l l = 0 := by
  induction l with
  | nil => rfl
  | cons x l ih => rw [differences_cons, ih, if_neg (not_not_intro rfl)]

end

/-! ## The checksum -/

/-- The exclusive-or of all octets. -/
def xorSum (l : Octets) : UInt8 := l.foldl (· ^^^ ·) 0

theorem foldl_xor (l : Octets) (x : UInt8) : l.foldl (· ^^^ ·) x = x ^^^ xorSum l := by
  induction l generalizing x with
  | nil => exact UInt8.xor_zero.symm
  | cons y l ih =>
    have hcons : xorSum (y :: l) = y ^^^ xorSum l := by
      rw [xorSum, List.foldl_cons, UInt8.zero_xor]
      exact ih y
    rw [List.foldl_cons, ih, hcons, UInt8.xor_assoc]

theorem xorSum_append (l₁ l₂ : Octets) : xorSum (l₁ ++ l₂) = xorSum l₁ ^^^ xorSum l₂ := by
  rw [xorSum, List.foldl_append, foldl_xor]
  rfl

theorem xorSum_cons (x : UInt8) (l : Octets) : xorSum (x :: l) = x ^^^ xorSum l := by
  rw [xorSum, List.foldl_cons, foldl_xor, UInt8.zero_xor]

theorem Altered.xorSum_ne {l l' : Octets} (h : Altered l l') : xorSum l' ≠ xorSum l := by
  obtain ⟨a, x, y, b, hne, rfl, rfl⟩ := h
  rw [xorSum_append, xorSum_append, xorSum_cons, xorSum_cons]
  intro heq
  exact hne ((UInt8.xor_left_inj _).mp ((UInt8.xor_right_inj _).mp heq)).symm

end Tipcutils
