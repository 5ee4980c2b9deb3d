import Mathlib.Data.List.Basic
import Mathlib.Tactic.TypeStar

/-!
# `Lib.Duplex` — two programs that make the same acts the other way round

Two parties run straight-line programs of offers and takes, and the program of the one is the `dual` of the other's. An
offer never waits for its take, so a party may lead: `Lead d a b` says that the party with the program `a` has offered
`d`, which the party with the program `b` is still to take, and that from there on the programs are dual. Whoever makes
the next act, one of the two leads again (**`Lead.offer`**, **`Lead.offer_behind`**, **`Lead.take_behind`**), and what
is taken is what was offered first.

Nothing here mentions a concrete program.
-/

namespace Tipcutils
namespace Duplex

variable {Y : Type*}

/-- An act of one of the parties. -/
inductive Act (Y : Type*) where
  | offer (y : Y)
  | take (y : Y)
deriving DecidableEq

/-- What the act is about. -/
def Act.what : Act Y → Y
  | .offer y => y
  | .take y => y

/-- The same act on the other side. -/
def Act.dual : Act Y → Act Y
  | .offer y => .take y
  | .take y => .offer y

@[simp] theorem Act.dual_dual (a : Act Y) : a.dual.dual = a := by cases a <;> rfl

@[simp] theorem Act.what_dual (a : Act Y) : a.dual.what = a.what := by cases a <;> rfl

@[simp] theorem Act.dual_comp_dual : Act.dual ∘ Act.dual = (id : Act Y → Act Y) := funext Act.dual_dual

theorem map_dual_map_dual (a : List (Act Y)) : (a.map Act.dual).map Act.dual = a := by
  rw [List.map_map, Act.dual_comp_dual, List.map_id]

/-- The party with the rest `a` has offered `d`, and the party with the rest `b` has not taken it. -/
def Lead (d : List Y) (a b : List (Act Y)) : Prop := b = d.map .take ++ a.map Act.dual

variable {d : List Y} {a b : List (Act Y)} {y : Y}

theorem lead_dual (a : List (Act Y)) : Lead [] a (a.map Act.dual) := rfl

/-- When nothing is left to take, neither party leads. -/
theorem Lead.symm (h : Lead [] a b) : Lead [] b a := by
  rw [Lead, show b = a.map Act.dual from h, map_dual_map_dual]
  rfl

/-- The party that leads offers more. -/
theorem Lead.offer (h : Lead d (.offer y :: a) b) : Lead (d ++ [y]) a b := by
  rw [Lead, show b = d.map .take ++ .take y :: a.map Act.dual from h]
  simp

/-- The party that leads takes only when nothing is left to take on the other side. -/
theorem Lead.take (h : Lead d (.take y :: a) b) : ∃ b', b = d.map .take ++ .offer y :: b' ∧ Lead [] a b' :=
  ⟨a.map Act.dual, h, rfl⟩

/-- The party behind offers: then it was not behind, and now leads. -/
theorem Lead.offer_behind (h : Lead d a (.offer y :: b)) : d = [] ∧ Lead [y] b a := by
  cases d with
  | nil => exact ⟨rfl, h.symm⟩
  | cons y' d => nomatch h

/-- The party behind takes what was offered first, or the other party is to make the offer. -/
theorem Lead.take_behind (h : Lead d a (.take y :: b)) :
    (d = [] ∧ ∃ a', a = .offer y :: a' ∧ Lead [] a' b) ∨ ∃ d', d = y :: d' ∧ Lead d' a b := by
  cases d with
  | nil =>
    have ha : a = .offer y :: b.map Act.dual := h.symm
    exact .inl ⟨rfl, b.map Act.dual, ha, (lead_dual b).symm⟩
  | cons y' d =>
    obtain ⟨hy, hb⟩ := List.cons.inj (h : _ = _ :: (d.map Act.take ++ a.map Act.dual))
    exact .inr ⟨d, congrArg (· :: d) (Act.take.inj hy).symm, hb⟩

/-- A party behind with something to take comes to it first. -/
theorem Lead.behind (h : Lead (y :: d) a b) : ∃ b', b = .take y :: b' :=
  ⟨d.map Act.take ++ a.map Act.dual, h⟩

end Duplex
end Tipcutils
