import Mathlib.Data.Int.Notation
import Mathlib.Data.List.Perm.Subperm
import Mathlib.Data.List.Range

/-!
# `Lib.Fds` — the descriptor table of a process

A descriptor that is opened gets the lowest number that is not in use (**`lowest_notMem`**). A table keeps a log of what
was opened and of every call of `close`, also of a descriptor that is not open. `opens` and `closes` count in this log.

Nothing here mentions a concrete program.
-/

namespace Tipcutils
namespace Fds

/-- The lowest number that is not in `live`. -/
def lowest (live : List ℕ) : ℕ := ((List.range (live.length + 1)).find? (· ∉ live)).getD live.length

theorem lowest_notMem (live : List ℕ) : lowest live ∉ live := by
  have hex : ∃ n ∈ List.range (live.length + 1), n ∉ live := by
    by_contra hno
    have hall : ∀ n ∈ List.range (live.length + 1), n ∈ live := fun n hn => by_contra fun h => hno ⟨n, hn, h⟩
    have hle := (List.nodup_range.subperm hall).length_le
    rw [List.length_range] at hle
    omega
  obtain ⟨n, hn⟩ : ∃ n, (List.range (live.length + 1)).find? (· ∉ live) = some n := by
    apply Option.isSome_iff_exists.mp
    rw [List.find?_isSome]
    obtain ⟨n, hmem, hnot⟩ := hex
    exact ⟨n, hmem, decide_eq_true hnot⟩
  rw [lowest, hn]
  have hfound := List.find?_some hn
  exact of_decide_eq_true hfound

theorem lowest_le (live : List ℕ) : lowest live ≤ live.length := by
  rw [lowest]
  cases hfind : (List.range (live.length + 1)).find? (· ∉ live) with
  | none => exact Nat.le_refl _
  | some n => exact Nat.le_of_lt_succ (List.mem_range.mp (List.mem_of_find?_eq_some hfind))

inductive Event where
  | opened (d : ℤ)
  | closed (d : ℤ)
deriving DecidableEq

structure Table where
  live : List ℕ
  log : List Event

/-- A table with nothing in its log. -/
def Table.initial (live : List ℕ) : Table := ⟨live, []⟩

/-- The number that the next descriptor gets. -/
def Table.next (t : Table) : ℕ := lowest t.live

/-- A descriptor is opened. -/
def Table.open (t : Table) : Table := ⟨t.next :: t.live, t.log ++ [.opened t.next]⟩

/-- `close(d)` is called. -/
def Table.close (t : Table) (d : ℤ) : Table := ⟨t.live.filter fun n => (n : ℤ) ≠ d, t.log ++ [.closed d]⟩

def Table.isOpen (t : Table) (d : ℤ) : Bool := t.live.any fun n => (n : ℤ) = d

/-- How often `d` was opened. -/
def Table.opens (t : Table) (d : ℤ) : ℕ := t.log.count (.opened d)

/-- How often `close(d)` was called. -/
def Table.closes (t : Table) (d : ℤ) : ℕ := t.log.count (.closed d)

variable (t : Table)

theorem Table.isOpen_iff {d : ℤ} : t.isOpen d = true ↔ ∃ n ∈ t.live, (n : ℤ) = d := by
  simp [Table.isOpen]

theorem Table.not_isOpen_next : t.isOpen t.next = false := by
  rw [Bool.eq_false_iff]
  intro h
  obtain ⟨n, hmem, heq⟩ := t.isOpen_iff.mp h
  rw [Int.ofNat_inj.mp heq] at hmem
  exact lowest_notMem t.live hmem

@[simp] theorem Table.isOpen_open (d : ℤ) : t.open.isOpen d = (decide ((t.next : ℤ) = d) || t.isOpen d) := rfl

@[simp] theorem Table.isOpen_close (d e : ℤ) : (t.close d).isOpen e = (t.isOpen e && decide (e ≠ d)) := by
  rw [Bool.eq_iff_iff]
  simp only [Table.isOpen_iff, Table.close, List.mem_filter, Bool.and_eq_true, decide_eq_true_eq]
  constructor
  · rintro ⟨n, ⟨hmem, hne⟩, rfl⟩
    exact ⟨⟨n, hmem, rfl⟩, hne⟩
  · rintro ⟨⟨n, hmem, rfl⟩, hne⟩
    exact ⟨n, ⟨hmem, hne⟩, rfl⟩

variable {t}

theorem Table.isOpen_open_of {d : ℤ} (h : t.isOpen d = true) : t.open.isOpen d = true := by
  rw [Table.isOpen_open, h, Bool.or_true]

theorem Table.isOpen_close_of {d e : ℤ} (h : t.isOpen d = true) (hne : d ≠ e) : (t.close e).isOpen d = true := by
  rw [Table.isOpen_close, h, Bool.true_and]
  exact decide_eq_true hne

theorem Table.ne_next_of_isOpen {d : ℤ} (h : t.isOpen d = true) : d ≠ t.next := by
  rintro rfl
  rw [t.not_isOpen_next] at h
  nomatch h

theorem Table.nonneg_of_isOpen {d : ℤ} (h : t.isOpen d = true) : 0 ≤ d := by
  obtain ⟨n, -, rfl⟩ := t.isOpen_iff.mp h
  exact Int.natCast_nonneg n

end Fds
end Tipcutils
