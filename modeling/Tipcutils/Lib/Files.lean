import Mathlib.Data.List.Nodup
import Tipcutils.Lib.Fds

/-!
# `Lib.Files` — what the descriptors of a process refer to

`Files α` is the open descriptors of a process with the object behind each; no number is there twice. A process that forks
gives its child a copy. An object is released when the last process that holds it has closed it.

* **`next_lt_iff`** — under a limit there is a number for one more descriptor if and only if the number of the open ones
  is below the limit;
* **`Owns`** — the descriptors that a program knows of, with what they refer to, and the rest that is open: `Owns.opened`,
  `Owns.close` and `Owns.forget` say how it changes; from it follow what a process holds and how many descriptors;
* `map_set_of_eq`, `exists_mem_set`, `countP_set` — the step of one process in a table of processes.

Nothing here mentions a concrete program.
-/

namespace Tipcutils

/-- The open descriptors, and what they refer to. -/
structure Files (α : Type*) where
  entries : List (ℕ × α)
  nodup : (entries.map Prod.fst).Nodup

namespace Files

variable {α : Type*}

/-- The numbers that are in use. -/
def numbers (f : Files α) : List ℕ := f.entries.map Prod.fst

/-- A process that has ended has no descriptors. -/
def none : Files α := ⟨[], List.nodup_nil⟩

/-- The number that the next descriptor gets. -/
def next (f : Files α) : ℕ := Fds.lowest f.numbers

/-- A descriptor is opened. -/
def opened (f : Files α) (a : α) : Files α :=
  ⟨(f.next, a) :: f.entries, List.nodup_cons.mpr ⟨Fds.lowest_notMem _, f.nodup⟩⟩

/-- `close(d)`. -/
def close (f : Files α) (d : ℤ) : Files α :=
  ⟨f.entries.filter fun e => (e.1 : ℤ) ≠ d, f.nodup.sublist (List.filter_sublist.map _)⟩

/-- What `d` refers to. -/
def get (f : Files α) (d : ℤ) : Option α := (f.entries.find? fun e => (e.1 : ℤ) = d).map Prod.snd

/-- What is open. -/
def objects (f : Files α) : List α := f.entries.map Prod.snd

/-- One of the descriptors refers to `a`. -/
def Holds (f : Files α) (a : α) : Prop := a ∈ f.objects

instance [DecidableEq α] (f : Files α) (a : α) : Decidable (f.Holds a) := inferInstanceAs (Decidable (a ∈ _))

@[simp] theorem holds_opened (f : Files α) (a b : α) : (f.opened a).Holds b ↔ b = a ∨ f.Holds b := List.mem_cons

@[simp] theorem length_opened (f : Files α) (a : α) : (f.opened a).entries.length = f.entries.length + 1 := rfl

theorem length_numbers (f : Files α) : f.numbers.length = f.entries.length := List.length_map _

theorem get_opened (f : Files α) (a : α) (d : ℤ) : (f.opened a).get d = if (f.next : ℤ) = d then some a else f.get d := by
  simp only [get, opened, List.find?_cons]
  by_cases h : (f.next : ℤ) = d <;> simp [h]

theorem get_next_opened (f : Files α) (a : α) : (f.opened a).get f.next = some a := by
  rw [get_opened, if_pos rfl]

/-- A number that refers to something is in use. -/
theorem mem_numbers_of_get {f : Files α} {d : ℤ} {a : α} (h : f.get d = some a) : ∃ n ∈ f.numbers, (n : ℤ) = d := by
  obtain ⟨e, he, -⟩ := Option.map_eq_some_iff.mp h
  have heq := List.find?_some he
  exact ⟨e.1, List.mem_map_of_mem (List.mem_of_find?_eq_some he), of_decide_eq_true heq⟩

theorem get_of_neg (f : Files α) {d : ℤ} (h : d < 0) : f.get d = Option.none := by
  rw [Option.eq_none_iff_forall_ne_some]
  intro a ha
  obtain ⟨n, -, rfl⟩ := mem_numbers_of_get ha
  exact absurd (Int.natCast_nonneg n) (Int.not_le.mpr h)

/-- A descriptor that is opened has a new number. -/
theorem get_opened_of_get {f : Files α} {d : ℤ} {a : α} (h : f.get d = some a) (b : α) : (f.opened b).get d = some a := by
  rw [get_opened, if_neg, h]
  rintro rfl
  obtain ⟨n, hn, heq⟩ := mem_numbers_of_get h
  rw [Int.ofNat_inj.mp heq] at hn
  exact Fds.lowest_notMem _ hn

/-- There are no more different numbers below the limit than the limit says. -/
theorem length_le_of_nodup {ns : List ℕ} {limit : ℕ} (hnodup : ns.Nodup) (h : ∀ n ∈ ns, n < limit) : ns.length ≤ limit := by
  have hle := (hnodup.subperm fun n hn => List.mem_range.mpr (h n hn)).length_le
  rwa [List.length_range] at hle

theorem length_le {f : Files α} {limit : ℕ} (h : ∀ n ∈ f.numbers, n < limit) : f.entries.length ≤ limit :=
  length_numbers f ▸ length_le_of_nodup f.nodup h

/-- Where all the numbers are below the limit, one more is if and only if they do not fill it. -/
theorem next_lt_iff {f : Files α} {limit : ℕ} (h : ∀ n ∈ f.numbers, n < limit) :
    f.next < limit ↔ f.entries.length < limit := by
  constructor
  · intro hlt
    have hnodup : (f.next :: f.numbers).Nodup := List.nodup_cons.mpr ⟨Fds.lowest_notMem _, f.nodup⟩
    have hle := length_le_of_nodup hnodup (List.forall_mem_cons.mpr ⟨hlt, h⟩)
    rwa [List.length_cons, length_numbers] at hle
  · intro hlt
    exact (Fds.lowest_le f.numbers).trans_lt ((length_numbers f).symm ▸ hlt)

theorem lt_opened {f : Files α} {limit : ℕ} (h : ∀ n ∈ f.numbers, n < limit) (hlt : f.next < limit) (a : α) :
    ∀ n ∈ (f.opened a).numbers, n < limit := List.forall_mem_cons.mpr ⟨hlt, h⟩

theorem lt_close {f : Files α} {limit : ℕ} (h : ∀ n ∈ f.numbers, n < limit) (d : ℤ) : ∀ n ∈ (f.close d).numbers, n < limit :=
  fun n hn => h n ((List.filter_sublist.map Prod.fst).subset hn)

/-! ## What a program knows of its descriptors -/

/-- What closing a descriptor leaves open. -/
theorem perm_close {f : Files α} {d : ℤ} {a : α} (h : f.get d = some a) : f.objects.Perm (a :: (f.close d).objects) := by
  obtain ⟨e, he, rfl⟩ := Option.map_eq_some_iff.mp h
  have hd : (e.1 : ℤ) = d := by simpa using List.find?_some he
  obtain ⟨l, r, hlr⟩ := List.append_of_mem (List.mem_of_find?_eq_some he)
  have hnodup := f.nodup
  rw [hlr, List.map_append, List.map_cons, List.nodup_middle, List.nodup_cons] at hnodup
  -- no other entry has this number
  have hkeep (x : ℕ × α) (hx : x ∈ l ++ r) : decide ((x.1 : ℤ) ≠ d) = true := by
    rw [decide_eq_true_eq]
    intro heq
    apply hnodup.1
    rw [← List.map_append, Int.ofNat_inj.mp (hd.trans heq.symm)]
    exact List.mem_map_of_mem hx
  have hclose : (f.close d).entries = l ++ r := by
    show f.entries.filter _ = _
    rw [hlr, List.filter_append, List.filter_cons_of_neg (by simp [hd]), ← List.filter_append]
    exact List.filter_eq_self.mpr hkeep
  rw [objects, objects, hclose, hlr]
  exact (List.perm_middle (a := e)).map Prod.snd

theorem get_close {f : Files α} {d e : ℤ} (h : e ≠ d) : (f.close d).get e = f.get e := by
  unfold get close
  rw [List.find?_filter]
  congr 2
  funext x
  by_cases hx : (x.1 : ℤ) = e
  · simp [hx, h]
  · simp [hx]

/-- The descriptors in `hs` are different, and refer to what they say; what else is open is `rest`. -/
structure Owns (f : Files α) (hs : List (ℤ × α)) (rest : List α) : Prop where
  nodup : (hs.map Prod.fst).Nodup
  get : ∀ h ∈ hs, f.get h.1 = some h.2
  objects : f.objects.Perm (hs.map Prod.snd ++ rest)

namespace Owns

variable {f : Files α} {hs : List (ℤ × α)} {rest : List α} {d : ℤ} {a : α}

/-- A program that knows of none. -/
theorem start (f : Files α) : f.Owns [] f.objects := ⟨List.nodup_nil, by simp, List.Perm.refl _⟩

theorem perm {hs' : List (ℤ × α)} (h : f.Owns hs rest) (hp : hs.Perm hs') : f.Owns hs' rest where
  nodup := (hp.map Prod.fst).nodup_iff.mp h.nodup
  get := fun x hx => h.get x (hp.mem_iff.mpr hx)
  objects := h.objects.trans ((hp.map Prod.snd).append_right rest)

theorem opened (h : f.Owns hs rest) (a : α) : (f.opened a).Owns ((f.next, a) :: hs) rest where
  nodup := by
    refine List.nodup_cons.mpr ⟨?_, h.nodup⟩
    intro hmem
    obtain ⟨x, hx, heq⟩ := List.mem_map.mp hmem
    obtain ⟨n, hn, hnx⟩ := mem_numbers_of_get (h.get x hx)
    obtain rfl : n = f.next := Int.ofNat_inj.mp (hnx.trans heq)
    exact Fds.lowest_notMem _ hn
  get := by
    refine List.forall_mem_cons.mpr ⟨get_next_opened f a, ?_⟩
    exact fun x hx => get_opened_of_get (h.get x hx) a
  objects := h.objects.cons a

theorem close (h : f.Owns ((d, a) :: hs) rest) : (f.close d).Owns hs rest where
  nodup := (List.nodup_cons.mp h.nodup).2
  get := by
    intro x hx
    rw [get_close, h.get x (List.mem_cons_of_mem _ hx)]
    rintro rfl
    exact (List.nodup_cons.mp h.nodup).1 (List.mem_map.mpr ⟨x, hx, rfl⟩)
  objects := List.Perm.cons_inv ((perm_close (h.get _ List.mem_cons_self)).symm.trans h.objects)

/-- A descriptor that nobody knows any more stays open. -/
theorem forget (h : f.Owns ((d, a) :: hs) rest) : f.Owns hs (a :: rest) where
  nodup := (List.nodup_cons.mp h.nodup).2
  get := fun x hx => h.get x (List.mem_cons_of_mem _ hx)
  objects := h.objects.trans List.perm_middle.symm

theorem holds_iff (h : f.Owns hs rest) (b : α) : f.Holds b ↔ b ∈ hs.map Prod.snd ∨ b ∈ rest := by
  rw [Holds, h.objects.mem_iff, List.mem_append]

theorem length_entries (h : f.Owns hs rest) : f.entries.length = hs.length + rest.length := by
  rw [← List.length_map Prod.snd, ← List.length_map Prod.snd, ← List.length_append]
  exact h.objects.length_eq

end Owns

end Files

/-! ## A table of processes -/

section Processes

variable {β : Type*} {ps : List β} {i : ℕ} {p p' : β}

/-- Nothing changes about an entry that is replaced by one that looks the same. -/
theorem map_set_of_eq {γ : Type*} {g : β → γ} (hp : ps[i]? = some p) (h : g p' = g p) : (ps.set i p').map g = ps.map g := by
  obtain ⟨hi, rfl⟩ := List.getElem?_eq_some_iff.mp hp
  rw [List.map_set, h, ← List.map_set, List.set_getElem_self]

/-- A process that makes a step is as it is now, and the others are as they were. -/
theorem exists_mem_set {P : β → Prop} (hp : ps[i]? = some p) (h : P p → P p') :
    (∃ q ∈ ps.set i p', P q) ↔ (∃ q ∈ ps, P q) ∨ P p' := by
  obtain ⟨hi, rfl⟩ := List.getElem?_eq_some_iff.mp hp
  constructor
  · rintro ⟨q, hq, hPq⟩
    rcases List.mem_or_eq_of_mem_set hq with hq | rfl
    · exact .inl ⟨q, hq, hPq⟩
    · exact .inr hPq
  · rintro (⟨q, hq, hPq⟩ | hP')
    · obtain ⟨j, hj, rfl⟩ := List.getElem_of_mem hq
      by_cases hij : i = j
      · subst hij
        exact ⟨p', List.mem_set hi p', h hPq⟩
      · refine ⟨_, List.mem_of_getElem? (i := j) ?_, hPq⟩
        rw [List.getElem?_set_ne hij, List.getElem?_eq_getElem hj]
    · exact ⟨p', List.mem_set hi p', hP'⟩

/-- A process that makes a step is counted as it is now. -/
theorem countP_set (q : β → Bool) (hp : ps[i]? = some p) (p' : β) :
    (ps.set i p').countP q + (if q p then 1 else 0) = ps.countP q + (if q p' then 1 else 0) := by
  induction ps generalizing i with
  | nil => simp at hp
  | cons a ps ih =>
    cases i with
    | zero =>
      obtain rfl : a = p := Option.some.inj hp
      rw [List.set_cons_zero, List.countP_cons, List.countP_cons]
      omega
    | succ i =>
      have hrec := ih (List.getElem?_cons_succ ▸ hp)
      rw [List.set_cons_succ, List.countP_cons, List.countP_cons]
      omega

end Processes
end Tipcutils
