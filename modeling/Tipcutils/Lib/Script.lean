import Mathlib.Tactic.TypeStar

/-!
# `Lib.Script` — straight-line programs as the acts they make

A `Script` is what a routine does, seen from outside: the list of its acts and how it ends. Running one
script after another (`++`) goes on only if the first one returns, so `++` is associative with unit `skip`, and a
relabelling of the acts commutes with it (**`map_append`**). A loop that never ends is given by a number of
rounds, with the ending `endless`.

Nothing here mentions a concrete program.
-/

namespace Tipcutils

/-- How a routine ends. -/
inductive Ending where
  | returns
  | exits
  | crashes
  | endless
deriving DecidableEq

/-- The acts of a routine, and its ending. -/
structure Script (α : Type*) where
  acts : List α
  ending : Ending

namespace Script

variable {α β : Type*}

/-- Do nothing. -/
def skip : Script α := ⟨[], .returns⟩

/-- One act. -/
def act (a : α) : Script α := ⟨[a], .returns⟩

/-- End the program. -/
def exit : Script α := ⟨[], .exits⟩

/-- A call through a null pointer. -/
def crash : Script α := ⟨[], .crashes⟩

/-- One script, and if it returns the next. -/
def append (s t : Script α) : Script α :=
  match s.ending with
  | .returns => ⟨s.acts ++ t.acts, t.ending⟩
  | e => ⟨s.acts, e⟩

instance : Append (Script α) := ⟨append⟩

/-- The scripts of a list, one after the other. -/
def seq (l : List (Script α)) : Script α := l.foldr (· ++ ·) skip

/-- Relabel the acts. -/
def map (f : α → β) (s : Script α) : Script β := ⟨s.acts.map f, s.ending⟩

theorem append_of_returns {s : Script α} (h : s.ending = .returns) (t : Script α) :
    s ++ t = ⟨s.acts ++ t.acts, t.ending⟩ := by
  show append s t = _
  simp only [append, h]

theorem append_of_ne {s : Script α} (h : s.ending ≠ .returns) (t : Script α) : s ++ t = s := by
  show append s t = _
  obtain ⟨acts, ending⟩ := s
  cases ending with
  | returns => exact absurd rfl h
  | exits | crashes | endless => rfl

@[simp] theorem append_skip (s : Script α) : s ++ skip = s := by
  by_cases h : s.ending = .returns
  · rw [append_of_returns h]
    obtain ⟨acts, ending⟩ := s
    obtain rfl : ending = .returns := h
    simp [skip]
  · exact append_of_ne h _

@[simp] theorem skip_append (s : Script α) : skip ++ s = s := rfl

theorem append_assoc (s t u : Script α) : s ++ t ++ u = s ++ (t ++ u) := by
  by_cases hs : s.ending = .returns
  · by_cases ht : t.ending = .returns
    · rw [append_of_returns hs, append_of_returns ht, append_of_returns hs,
        append_of_returns (s := ⟨s.acts ++ t.acts, t.ending⟩) ht, List.append_assoc]
    · rw [append_of_ne ht, append_of_returns hs, append_of_ne (s := ⟨s.acts ++ t.acts, t.ending⟩) ht]
  · rw [append_of_ne hs, append_of_ne hs, append_of_ne hs]

@[simp] theorem map_skip (f : α → β) : (skip : Script α).map f = skip := rfl

@[simp] theorem map_act (f : α → β) (a : α) : (act a).map f = act (f a) := rfl

/-- Relabelling goes under `++`. -/
@[simp] theorem map_append (f : α → β) (s t : Script α) : (s ++ t).map f = s.map f ++ t.map f := by
  by_cases h : s.ending = .returns
  · have hm : (s.map f).ending = .returns := h
    rw [append_of_returns h, append_of_returns hm]
    simp [map]
  · have hm : (s.map f).ending ≠ .returns := h
    rw [append_of_ne h, append_of_ne hm]

@[simp] theorem seq_nil : seq ([] : List (Script α)) = skip := rfl

@[simp] theorem seq_cons (s : Script α) (l : List (Script α)) : seq (s :: l) = s ++ seq l := rfl

theorem map_seq (f : α → β) (l : List (Script α)) : (seq l).map f = seq (l.map (map f)) := by
  induction l with
  | nil => rfl
  | cons s l ih => simp [ih]

/-! ## What all acts have in common -/

/-- Every act of the script has the property. -/
def All (P : α → Prop) (s : Script α) : Prop := ∀ a ∈ s.acts, P a

instance (P : α → Prop) [DecidablePred P] (s : Script α) : Decidable (s.All P) :=
  inferInstanceAs (Decidable (∀ a ∈ s.acts, P a))

theorem All.of_nil {P : α → Prop} {s : Script α} (h : s.acts = []) : s.All P := by
  intro a ha
  rw [h] at ha
  cases ha

theorem All.append {P : α → Prop} {s t : Script α} (hs : s.All P) (ht : t.All P) : (s ++ t).All P := by
  by_cases h : s.ending = .returns
  · rw [append_of_returns h]
    exact List.forall_mem_append.mpr ⟨hs, ht⟩
  · rw [append_of_ne h]
    exact hs

theorem All.seq {P : α → Prop} {l : List (Script α)} (h : ∀ s ∈ l, s.All P) : (seq l).All P := by
  induction l with
  | nil => exact .of_nil rfl
  | cons s l ih =>
    exact (h s List.mem_cons_self).append (ih fun t ht => h t (List.mem_cons_of_mem s ht))

theorem All.map {P : β → Prop} {f : α → β} {s : Script α} (h : s.All fun a => P (f a)) : (s.map f).All P :=
  List.forall_mem_map.mpr h

/-! ## Longer runs of a loop -/

theorem acts_prefix_append (s t : Script α) : s.acts <+: (s ++ t).acts := by
  by_cases h : s.ending = .returns
  · rw [append_of_returns h]
    exact List.prefix_append _ _
  · simp only [append_of_ne h, List.prefix_refl]

/-- `t` is `s`, or continues where the rounds of an endless loop of `s` ran out. -/
def Extends (s t : Script α) : Prop := s = t ∨ s.ending = .endless ∧ s.acts <+: t.acts

theorem Extends.refl (s : Script α) : s.Extends s := Or.inl rfl

theorem Extends.acts {s t : Script α} (h : s.Extends t) : s.acts <+: t.acts := by
  rcases h with rfl | ⟨_, h⟩
  · exact List.prefix_refl _
  · exact h

theorem Extends.append {s s' t t' : Script α} (hs : s.Extends s') (ht : t.Extends t') :
    (s ++ t).Extends (s' ++ t') := by
  rcases hs with rfl | ⟨hend, hs⟩
  · by_cases h : s.ending = .returns
    · rw [append_of_returns h, append_of_returns h]
      rcases ht with rfl | ⟨htend, ht⟩
      · exact Extends.refl _
      · exact Or.inr ⟨htend, (List.prefix_append_right_inj _).mpr ht⟩
    · rw [append_of_ne h, append_of_ne h]
      exact Extends.refl _
  · rw [append_of_ne (by simp [hend])]
    exact Or.inr ⟨hend, hs.trans (acts_prefix_append s' t')⟩

theorem Extends.map {s t : Script α} (h : s.Extends t) (f : α → β) : (s.map f).Extends (t.map f) := by
  rcases h with rfl | ⟨hend, h⟩
  · exact Extends.refl _
  · exact Or.inr ⟨hend, h.map f⟩

theorem Extends.seq_map {ι : Type*} {f g : ι → Script α} (h : ∀ i, (f i).Extends (g i)) (l : List ι) :
    (seq (l.map f)).Extends (seq (l.map g)) := by
  induction l with
  | nil => exact Extends.refl _
  | cons i l ih => exact (h i).append ih

end Script
end Tipcutils
