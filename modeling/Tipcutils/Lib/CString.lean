import Mathlib.Data.List.TakeWhile
import Mathlib.Logic.Function.Basic
import Tipcutils.Lib.Decimal

/-!
# `Lib.CString` — the strings that a call leaves in a buffer

A call that writes to a buffer is the list of its stores: what is stored, and at which offset from the pointer that it was
given. `applyAll` is the memory behind this pointer afterwards. `StringAt m t` says that a C string with the text `t`
begins there; there is at most one (**`StringAt.unique`**).

* **`stringAt_snprintf`** — `snprintf` leaves as much of the text as fits with the terminator;
* **`stringAt_strncpy`** — `strncpy`, with a terminator behind the buffer, leaves one character more.

Nothing here mentions a concrete program.
-/

namespace Tipcutils
namespace CString

/-! ## Stores -/

section
variable {α : Type*} {t : List α} {m : ℕ → α}

/-- The memory after the stores. -/
def applyAll (stores : List (α × ℕ)) (m : ℕ → α) : ℕ → α := stores.foldl (fun m s => Function.update m s.2 s.1) m

/-- All stores are in the first `len` elements. -/
def Within (len : ℕ) (stores : List (α × ℕ)) : Prop := ∀ s ∈ stores, s.2 < len

theorem applyAll_cons (s : α × ℕ) (stores : List (α × ℕ)) (m : ℕ → α) :
    applyAll (s :: stores) m = applyAll stores (Function.update m s.2 s.1) := rfl

theorem applyAll_append (stores stores' : List (α × ℕ)) (m : ℕ → α) :
    applyAll (stores ++ stores') m = applyAll stores' (applyAll stores m) := List.foldl_append

theorem Within.mono {len len' : ℕ} {stores : List (α × ℕ)} (h : Within len stores) (hlen : len ≤ len') :
    Within len' stores := fun s hs => Nat.lt_of_lt_of_le (h s hs) hlen

theorem within_cons {len : ℕ} {s : α × ℕ} {stores : List (α × ℕ)} :
    Within len (s :: stores) ↔ s.2 < len ∧ Within len stores := List.forall_mem_cons

theorem within_singleton {len : ℕ} {s : α × ℕ} : Within len [s] ↔ s.2 < len := List.forall_mem_singleton

theorem within_append {len : ℕ} {stores stores' : List (α × ℕ)} :
    Within len (stores ++ stores') ↔ Within len stores ∧ Within len stores' := List.forall_mem_append

/-- What is not stored to is as it was. -/
theorem applyAll_of_forall_ne {stores : List (α × ℕ)} {j : ℕ} (h : ∀ s ∈ stores, s.2 ≠ j) : applyAll stores m j = m j := by
  induction stores generalizing m with
  | nil => rfl
  | cons s stores ih =>
    rw [applyAll_cons, ih fun s' hs' => h s' (List.mem_cons_of_mem _ hs'),
      Function.update_of_ne (h s List.mem_cons_self).symm]

/-- A copy of `t`, element by element. -/
theorem applyAll_zipIdx (t : List α) (i : ℕ) (m : ℕ → α) {j : ℕ} (hj : j < t.length) :
    applyAll (t.zipIdx i) m (i + j) = t[j] := by
  induction t generalizing i j m with
  | nil => nomatch hj
  | cons a t ih =>
    rw [List.zipIdx_cons, applyAll_cons]
    cases j with
    | zero =>
      have hafter : ∀ s ∈ t.zipIdx (i + 1), s.2 ≠ i := by
        intro s hs
        have hle := List.le_snd_of_mem_zipIdx hs
        omega
      exact (applyAll_of_forall_ne hafter).trans (Function.update_self i a m)
    | succ j =>
      have hrest := ih (i + 1) (Function.update m i a) (Nat.lt_of_succ_lt_succ hj)
      rwa [Nat.add_assoc, Nat.add_comm 1] at hrest

theorem within_zipIdx {len : ℕ} (h : t.length ≤ len) : Within len t.zipIdx := by
  intro s hs
  have hlt := List.snd_lt_of_mem_zipIdx hs
  omega

end

/-! ## Strings -/

/-- The terminator. -/
def nul : Char := .ofNat 0

/-- The text of the string in an array. -/
def cText (a : Text) : Text := a.takeWhile (· ≠ nul)

/-- A string with the text `t` begins at the pointer. -/
structure StringAt (m : ℕ → Char) (t : Text) : Prop where
  get : ∀ i (h : i < t.length), m i = t[i]
  terminated : m t.length = nul
  noNul : nul ∉ t

/-- The longest prefix that has no more than `n` characters. -/
structure LongestPrefix (full : Text) (n : ℕ) (t : Text) : Prop where
  pre : t <+: full
  fits : t.length ≤ n
  longest : ∀ t', t' <+: full → t'.length ≤ n → t'.length ≤ t.length

variable {m : ℕ → Char} {t t' full : Text} {n len : ℕ}

theorem longestPrefix_iff : LongestPrefix full n t ↔ t = full.take n := by
  constructor
  · intro h
    have hlen := h.longest _ (List.take_prefix n full) (List.length_take_le n full)
    rw [List.prefix_iff_eq_take.mp h.pre]
    refine List.take_eq_take_iff.mpr ?_
    have hfits := h.fits
    rw [List.length_take] at hlen
    omega
  · rintro rfl
    refine ⟨List.take_prefix n full, List.length_take_le n full, fun t' hpre hfits => ?_⟩
    rw [List.length_take]
    exact Nat.le_min.mpr ⟨hfits, hpre.length_le⟩

theorem cText_of_notMem (h : nul ∉ t) : cText t = t := by
  refine List.takeWhile_eq_self_iff.mpr fun c hc => ?_
  rw [decide_eq_true_eq]
  rintro rfl
  exact h hc

theorem nul_notMem_cText (a : Text) : nul ∉ cText a := by
  intro h
  have hne := List.mem_takeWhile_imp h
  rw [decide_eq_true_eq] at hne
  exact hne rfl

/-- A string is not longer than another one at the same place. -/
theorem StringAt.length_le (h : StringAt m t) (h' : StringAt m t') : t.length ≤ t'.length := by
  by_contra hlt
  have hnul := h.get t'.length (Nat.not_le.mp hlt)
  rw [h'.terminated] at hnul
  exact h.noNul (hnul ▸ List.getElem_mem _)

theorem StringAt.unique (h : StringAt m t) (h' : StringAt m t') : t = t' := by
  refine List.ext_getElem (Nat.le_antisymm (h.length_le h') (h'.length_le h)) fun i hi hi' => ?_
  rw [← h.get i hi, ← h'.get i hi']

/-- A store behind the string. -/
theorem StringAt.update (h : StringAt m t) (hn : t.length < n) (c : Char) : StringAt (Function.update m n c) t := by
  refine ⟨fun i hi => ?_, ?_, h.noNul⟩
  · rw [Function.update_of_ne (by omega), h.get i hi]
  · rw [Function.update_of_ne (by omega), h.terminated]

/-- A copied array begins with a string. -/
theorem stringAt_zipIdx (h : nul ∉ t) (rest : Text) : StringAt (applyAll (t ++ nul :: rest).zipIdx m) t := by
  have hget (j : ℕ) (hj : j < (t ++ nul :: rest).length) :
      applyAll (t ++ nul :: rest).zipIdx m j = (t ++ nul :: rest)[j] := by
    have hcopy := applyAll_zipIdx (t ++ nul :: rest) 0 m hj
    rwa [Nat.zero_add] at hcopy
  refine ⟨fun i hi => ?_, ?_, h⟩
  · rw [hget i (by rw [List.length_append]; omega), List.getElem_append_left hi]
  · rw [hget t.length (by simp), List.getElem_append_right (Nat.le_refl _)]
    simp

/-! ## `snprintf` and `strncpy` -/

/-- The stores of `snprintf(buf, len, ...)` for the text `t`. -/
def snprintf (len : ℕ) (t : Text) : List (Char × ℕ) :=
  match len with
  | 0 => []
  | n + 1 => (t.take n ++ [nul]).zipIdx

/-- The stores of `strncpy(buf, src, len)`: the string is cut, or padded. -/
def strncpy (len : ℕ) (src : Text) : List (Char × ℕ) :=
  ((cText src).take len ++ List.replicate (len - (cText src).length) nul).zipIdx

theorem within_snprintf (len : ℕ) (t : Text) : Within len (snprintf len t) := by
  cases len with
  | zero => exact fun s hs => nomatch hs
  | succ n =>
    refine within_zipIdx ?_
    rw [List.length_append, List.length_take, List.length_singleton]
    omega

theorem within_strncpy (len : ℕ) (src : Text) : Within len (strncpy len src) := by
  refine within_zipIdx ?_
  rw [List.length_append, List.length_take, List.length_replicate]
  omega

/-- `snprintf` leaves the longest prefix that fits. -/
theorem stringAt_snprintf (hlen : 1 ≤ len) (h : nul ∉ t) : StringAt (applyAll (snprintf len t) m) (t.take (len - 1)) := by
  obtain ⟨n, rfl⟩ : ∃ n, len = n + 1 := ⟨len - 1, by omega⟩
  exact stringAt_zipIdx (fun hmem => h (List.mem_of_mem_take hmem)) []

/-- `strncpy` leaves no terminator if the string does not fit; with one behind the buffer, what is there is a string. -/
theorem stringAt_strncpy (len : ℕ) (src : Text) (m : ℕ → Char) :
    StringAt (Function.update (applyAll (strncpy len src) m) len nul) ((cText src).take len) := by
  have hnul : nul ∉ (cText src).take len := fun hmem => nul_notMem_cText src (List.mem_of_mem_take hmem)
  rcases Nat.lt_or_ge (cText src).length len with hshort | hlong
  · obtain ⟨k, hk⟩ : ∃ k, len - (cText src).length = k + 1 := ⟨len - (cText src).length - 1, by omega⟩
    rw [strncpy, hk, List.replicate_succ]
    refine (stringAt_zipIdx hnul _).update ?_ nul
    rw [List.length_take]
    omega
  · have hfull : ((cText src).take len).length = len := by rw [List.length_take]; omega
    refine ⟨fun i hi => ?_, ?_, hnul⟩
    · have hcopy := applyAll_zipIdx ((cText src).take len) 0 m hi
      rw [Nat.zero_add] at hcopy
      rw [Function.update_of_ne (by omega), strncpy, Nat.sub_eq_zero_of_le hlong, List.replicate_zero, List.append_nil, hcopy]
    · rw [hfull, Function.update_self]

end CString
end Tipcutils
