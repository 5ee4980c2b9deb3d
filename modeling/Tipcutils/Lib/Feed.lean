import Mathlib.Tactic.TypeStar

/-!
# `Lib.Feed` — a reader that follows a writer through a queue of changes

A writer changes its state and puts each change into a queue; a reader takes them off, in their order, and makes them in
a state of its own. `apply` is the change, and `none` says that there is none of this kind in this state.
**`Follows`** is the invariant of such a pair: the changes in the queue lead from the one state to the other. It is
kept where the writer makes a change (**`Follows.push`**) and where the reader does (**`Follows.pop`**), and the two
states are equal when no change is left (**`Follows.eq_of_idle`**).

Nothing here mentions a concrete program.
-/

namespace Tipcutils
namespace Feed

variable {S C : Type*} {apply : S → C → Option S} {view target target' : S} {queue : List C} {c : C}

/-- The changes in the queue lead from what the reader has to what the writer has. -/
def Follows (apply : S → C → Option S) (view : S) (queue : List C) (target : S) : Prop :=
  queue.foldlM apply view = some target

theorem Follows.refl (apply : S → C → Option S) (view : S) : Follows apply view [] view := rfl

theorem Follows.push (h : Follows apply view queue target) (hc : apply target c = some target') :
    Follows apply view (queue ++ [c]) target' := by
  rw [Follows, List.foldlM_append, h]
  show (apply target c >>= pure) = some target'
  rw [hc]
  rfl

theorem Follows.pop (h : Follows apply view (c :: queue) target) :
    ∃ view', apply view c = some view' ∧ Follows apply view' queue target :=
  Option.bind_eq_some_iff.mp h

/-- Where no change in the queue changes anything, the reader has what the writer has. -/
theorem Follows.eq_of_idle (h : Follows apply view queue target) (hidle : ∀ c ∈ queue, apply view c = some view) :
    view = target := by
  induction queue with
  | nil => exact Option.some.inj h
  | cons c queue ih =>
      obtain ⟨view', hview, hrest⟩ := h.pop
      obtain rfl := Option.some.inj ((hidle c List.mem_cons_self).symm.trans hview)
      exact ih hrest fun c' hc' => hidle c' (List.mem_cons_of_mem c hc')

end Feed
end Tipcutils
