import Mathlib.Data.Nat.Notation
import Mathlib.Tactic.TypeStar

/-!
# `Lib.While` — loops whose rounds can fail

`whileLoop guard body fuel` runs `body` as long as `guard` holds. It yields `none` where a round fails (an access outside
a buffer, for instance) and where the fuel does not suffice.

* **`whileLoop_total`** — a loop with an invariant and a measure that every round decreases ends, and no round fails;
* **`whileLoop_mono`** — more fuel changes nothing;
* **`Rounds.whileLoop`** — the first rounds of a loop can be run by hand;
* **`whileLoop_of_never`** — a loop whose rounds never make the guard false does not end;
* **`whileLoop_ends_iff`** — a loop whose rounds go down, or leave the state as it is, ends if and only if it never comes
  to one of the latter.

Nothing here mentions a concrete program.
-/

namespace Tipcutils

variable {S : Type*} {guard : S → Bool} {body : S → Option S} {n : ℕ} {s s' t : S}

def whileLoop (guard : S → Bool) (body : S → Option S) : ℕ → S → Option S
  | 0, _ => none
  | n + 1, s => if guard s then (body s).bind (whileLoop guard body n) else some s

theorem whileLoop_of_false (h : guard s = false) : whileLoop guard body (n + 1) s = some s := by
  rw [whileLoop, h]
  rfl

theorem whileLoop_of_true (h : guard s = true) (hb : body s = some s') :
    whileLoop guard body (n + 1) s = whileLoop guard body n s' := by
  rw [whileLoop, if_pos h, hb]
  rfl

/-- **Total correctness.** A round that keeps the invariant and decreases the measure gives a loop that ends in a state
    with the invariant. -/
theorem whileLoop_total (I : S → Prop) (size : S → ℕ)
    (hstep : ∀ s, I s → guard s = true → ∃ s', body s = some s' ∧ I s' ∧ size s' < size s) (hI : I s)
    (hn : size s < n) : ∃ s', whileLoop guard body n s = some s' ∧ I s' ∧ guard s' = false := by
  induction n generalizing s with
  | zero => exact absurd hn (Nat.not_lt_zero _)
  | succ n ih =>
    cases hg : guard s with
    | false => exact ⟨s, whileLoop_of_false hg, hI, hg⟩
    | true =>
      obtain ⟨s', hb, hI', hsize⟩ := hstep s hI hg
      rw [whileLoop_of_true hg hb]
      exact ih hI' (by omega)

theorem whileLoop_mono {k : ℕ} (h : whileLoop guard body n s = some t) (hk : n ≤ k) :
    whileLoop guard body k s = some t := by
  induction n generalizing s k with
  | zero => nomatch h
  | succ n ih =>
    obtain ⟨k, rfl⟩ : ∃ j, k = j + 1 := ⟨k - 1, by omega⟩
    cases hg : guard s with
    | false =>
      rw [whileLoop_of_false hg] at h ⊢
      exact h
    | true =>
      rw [whileLoop, if_pos hg] at h ⊢
      obtain ⟨s', hb, hrest⟩ := Option.bind_eq_some_iff.mp h
      rw [hb]
      exact ih hrest (by omega)

/-- `k` rounds lead from one state to another. -/
inductive Rounds (guard : S → Bool) (body : S → Option S) : ℕ → S → S → Prop where
  | refl {s : S} : Rounds guard body 0 s s
  | head {k : ℕ} {s s' t : S} :
      guard s = true → body s = some s' → Rounds guard body k s' t → Rounds guard body (k + 1) s t

/-- After its first rounds, a loop goes on from where they lead. -/
theorem Rounds.whileLoop {k : ℕ} (h : Rounds guard body k s t) :
    Tipcutils.whileLoop guard body (k + n) s = Tipcutils.whileLoop guard body n t := by
  induction h with
  | refl => rw [Nat.zero_add]
  | head hg hb _ ih => rw [Nat.add_right_comm, whileLoop_of_true hg hb, ih]

/-- What every round keeps holds where a loop ends. -/
theorem whileLoop_inv {I : S → Prop} (hstep : ∀ s s', I s → guard s = true → body s = some s' → I s') (hI : I s)
    (h : whileLoop guard body n s = some t) : I t ∧ guard t = false := by
  induction n generalizing s with
  | zero => nomatch h
  | succ n ih =>
    cases hg : guard s with
    | false =>
      rw [whileLoop_of_false hg] at h
      obtain rfl := Option.some.inj h
      exact ⟨hI, hg⟩
    | true =>
      rw [whileLoop, if_pos hg] at h
      obtain ⟨s', hb, hrest⟩ := Option.bind_eq_some_iff.mp h
      exact ih (hstep s s' hI hg hb) hrest

/-- What holds at the head of a loop holds at the head of each of its rounds. -/
theorem Rounds.inv {I : S → Prop} {k : ℕ} (hstep : ∀ s s', I s → guard s = true → body s = some s' → I s') (hI : I s)
    (h : Rounds guard body k s t) : I t := by
  induction h with
  | refl => exact hI
  | head hg hb _ ih => exact ih (hstep _ _ hI hg hb)

/-! ## Loops that may spin -/

/-- **Loops that do not end.** An invariant that every round keeps, and with which the loop goes on. -/
theorem whileLoop_of_never (I : S → Prop) (hg : ∀ s, I s → guard s = true)
    (hstep : ∀ s s', I s → body s = some s' → I s') (hI : I s) (n : ℕ) : whileLoop guard body n s = none := by
  cases h : whileLoop guard body n s with
  | none => rfl
  | some t =>
    obtain ⟨ht, hf⟩ := whileLoop_inv (fun s s' hI _ hb => hstep s s' hI hb) hI h
    exact absurd (hg t ht) (by rw [hf]; exact Bool.false_ne_true)

section
variable {f : S → S}

/-- A round that leaves the state as it is leaves it so for ever. -/
theorem whileLoop_of_fixed (hg : guard s = true) (hf : f s = s) (n : ℕ) : whileLoop guard (fun s => some (f s)) n s = none := by
  refine whileLoop_of_never (fun t => t = s) ?_ ?_ rfl n
  · rintro _ rfl
    exact hg
  · rintro _ s' rfl hb
    rw [← Option.some.inj hb, hf]

/-- **Loops that end or spin.** -/
theorem whileLoop_ends_iff {r : S → S → Prop} (hr : WellFounded r) (hstep : ∀ s, guard s = true → f s = s ∨ r (f s) s)
    (s : S) :
    (∃ n t, whileLoop guard (fun s => some (f s)) n s = some t) ↔
      ∀ k t, Rounds guard (fun s => some (f s)) k s t → guard t = true → f t ≠ t := by
  constructor
  · rintro ⟨n, u, hend⟩ k t hrounds hg hfixed
    have hmore := whileLoop_mono hend (Nat.le_add_left n k)
    rw [hrounds.whileLoop, whileLoop_of_fixed hg hfixed] at hmore
    nomatch hmore
  · induction s using hr.induction with
    | _ s ih =>
      intro hall
      cases hg : guard s with
      | false => exact ⟨1, s, whileLoop_of_false hg⟩
      | true =>
        have hless := (hstep s hg).resolve_left (hall 0 s .refl hg)
        obtain ⟨n, t, hend⟩ := ih (f s) hless fun k t hrounds => hall (k + 1) t (.head hg rfl hrounds)
        refine ⟨n + 1, t, ?_⟩
        rw [whileLoop, if_pos hg]
        exact hend

end

end Tipcutils
