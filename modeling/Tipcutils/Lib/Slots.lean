import Mathlib.Logic.Function.Basic
import Mathlib.Tactic.TypeStar

/-!
# `Lib.Slots` — a table of records, indexed by a key of the event

A `handle` takes the record of an event's key and gives the new record and some output. `run` handles a sequence of
events with a table of records, `single` with one record. The output for the events of one key is that of a
`single` run over these events alone (**`run_filter`**): events of other keys are without influence.

Nothing here mentions a concrete program.
-/

namespace Tipcutils
namespace Slots

variable {R E O K : Type*} [DecidableEq K]

/-- Handle the events with one record: each event with its output. -/
def single (handle : R → E → R × O) : R → List E → List (E × O)
  | _, [] => []
  | r, e :: es => (e, (handle r e).2) :: single handle (handle r e).1 es

/-- The record after the events. -/
def after (handle : R → E → R × O) (r : R) (es : List E) : R := es.foldl (fun r e => (handle r e).1) r

/-- Handle the events with a table of records. -/
def run (key : E → K) (handle : R → E → R × O) : (K → R) → List E → List (E × O)
  | _, [] => []
  | t, e :: es =>
    (e, (handle (t (key e)) e).2) :: run key handle (Function.update t (key e) (handle (t (key e)) e).1) es

variable {key : E → K} {handle : R → E → R × O}

theorem single_append (r : R) (es es' : List E) :
    single handle r (es ++ es') = single handle r es ++ single handle (after handle r es) es' := by
  induction es generalizing r with
  | nil => rfl
  | cons e es ih => exact congrArg _ (ih _)

theorem after_append (r : R) (es es' : List E) :
    after handle r (es ++ es') = after handle (after handle r es) es' := List.foldl_append

/-- **Each record only sees the events of its key.** -/
theorem run_filter (key : E → K) (handle : R → E → R × O) (t : K → R) (es : List E) (k : K) :
    (run key handle t es).filter (fun p => key p.1 = k) =
      single handle (t k) (es.filter fun e => key e = k) := by
  induction es generalizing t with
  | nil => rfl
  | cons e es ih =>
    rw [run, List.filter_cons, List.filter_cons]
    by_cases hk : key e = k
    · subst hk
      simp only [decide_true, if_true, single]
      rw [ih, Function.update_self]
    · simp only [hk, decide_false, Bool.false_eq_true, if_false]
      rw [ih, Function.update_of_ne (Ne.symm hk)]

/-- Where all events have one key, the table is one record. -/
theorem run_eq_single (t : K → R) {es : List E} {k : K} (h : ∀ e ∈ es, key e = k) :
    run key handle t es = single handle (t k) es := by
  induction es generalizing t with
  | nil => rfl
  | cons e es ih =>
    have he := h e List.mem_cons_self
    rw [run, single, ih _ fun e' he' => h e' (List.mem_cons_of_mem _ he'), he, Function.update_self]

theorem length_single (r : R) (es : List E) : (single handle r es).length = es.length := by
  induction es generalizing r with
  | nil => rfl
  | cons e es ih => exact congrArg (· + 1) (ih _)

/-- An output is that of one event, with the record after the events before it. -/
theorem mem_single {r : R} {es : List E} {e : E} {o : O} (h : (e, o) ∈ single handle r es) :
    ∃ before rest, es = before ++ e :: rest ∧ o = (handle (after handle r before) e).2 := by
  induction es generalizing r with
  | nil => nomatch h
  | cons e' es ih =>
    rcases List.mem_cons.mp h with heq | hmem
    · obtain ⟨rfl, rfl⟩ := Prod.mk.inj heq
      exact ⟨[], es, rfl, rfl⟩
    · obtain ⟨before, rest, rfl, ho⟩ := ih hmem
      exact ⟨e' :: before, rest, rfl, ho⟩

end Slots
end Tipcutils
