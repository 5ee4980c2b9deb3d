import Mathlib.Data.List.Infix
import Tipcutils.Lib.Lts

/-!
# `Lib.History` — traces whose events are judged by what came before them

A system writes a trace, and whether an event is right depends on the events before it. A trace that is right stays
right when it is cut off (**`Right.earlier`**), and when a right event is added to it (**`Right.concat`**). Where every
step of a system extends the trace, a wrong event is never made up for, so that **`Lts.Run.iff_forall`** applies.

Nothing here mentions a concrete program.
-/

namespace Tipcutils
namespace History

variable {E : Type*} {ok : List E → E → Prop} {tr tr' : List E} {e : E}

/-- Every event of the trace is right after those before it. -/
def Right (ok : List E → E → Prop) (tr : List E) : Prop := ∀ before e, before ++ [e] <+: tr → ok before e

theorem right_nil : Right ok [] := by
  intro before e hpre
  exact absurd (List.prefix_nil.mp hpre) (List.append_ne_nil_of_right_ne_nil _ (List.cons_ne_nil _ _))

theorem Right.earlier (h : Right ok tr') (hpre : tr <+: tr') : Right ok tr := by
  intro before e he
  exact h before e (he.trans hpre)

theorem Right.concat (h : Right ok tr) (he : ok tr e) : Right ok (tr ++ [e]) := by
  intro before e' hpre
  rcases List.prefix_concat_iff.mp hpre with heq | hold
  · obtain ⟨rfl, heq'⟩ := List.append_inj' heq rfl
    obtain rfl := List.singleton_inj.mp heq'
    exact he
  · exact h before e' hold

theorem Right.last (h : Right ok (tr ++ [e])) : ok tr e := h tr e (List.prefix_refl _)

end History
end Tipcutils
