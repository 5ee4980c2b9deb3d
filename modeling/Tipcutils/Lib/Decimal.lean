import Mathlib.Data.Int.Notation
import Mathlib.Data.List.TakeDrop
import Mathlib.Data.Nat.Log
import Mathlib.Tactic.IntervalCases

/-!
# `Lib.Decimal` — C's `%d` on output and on input

`fmtD` is what `printf("%d")` writes, `scanD` what `sscanf("%d")` reads (white space, an optional sign, a
maximal run of digits), and `scanInts` a sequence of `%d` conversions that stops at the first one that fails.
The round trip is **`scanD_fmtD`**: a formatted number followed by anything that is not a digit is read back,
leaving exactly what follows it. **`scanInts_fmtD`** is its use for a list of conversions. What else is read as a number
is said by **`scanSigned_eq_some_iff`**: a numeral at the head of the text, up to the first character that is no digit.

Texts are lists of characters, without the terminating NUL.
-/

namespace Tipcutils

/-- A C string, without its terminating NUL. -/
abbrev Text := List Char

namespace Decimal

/-! ## Output -/

/-- The decimal digits of a natural number (`%u`). -/
def fmtU (n : ℕ) : Text := Nat.toDigits 10 n

/-- A decimal integer (`%d`). -/
def fmtD : ℤ → Text
  | .ofNat n => fmtU n
  | .negSucc n => '-' :: fmtU (n + 1)

/-! ## Input -/

/-- The value of a digit string. -/
def digitsVal (ds : Text) : ℕ := ds.foldl (fun v c => 10 * v + (c.toNat - '0'.toNat)) 0

/-- A maximal, nonempty run of digits at the head of the text, and what follows it. -/
def scanU (t : Text) : Option (ℕ × Text) :=
  match t.span Char.isDigit with
  | ([], _) => none
  | (ds, rest) => some (digitsVal ds, rest)

/-- An optional sign and a maximal run of digits. -/
def scanSigned : Text → Option (ℤ × Text)
  | '-' :: t => (scanU t).map fun r => (-(r.1 : ℤ), r.2)
  | '+' :: t => (scanU t).map fun r => ((r.1 : ℤ), r.2)
  | t => (scanU t).map fun r => ((r.1 : ℤ), r.2)

/-- One `%d` conversion: white space is skipped first. -/
def scanD (t : Text) : Option (ℤ × Text) := scanSigned (t.dropWhile Char.isWhitespace)

/-- The values read by up to `k` consecutive `%d` conversions. -/
def scanInts : ℕ → Text → List ℤ
  | 0, _ => []
  | k + 1, t =>
    match scanD t with
    | none => []
    | some (n, rest) => n :: scanInts k rest

/-! ## What a formatted number looks like -/

theorem isDigit_of_mem_fmtU {n : ℕ} {c : Char} (h : c ∈ fmtU n) : c.isDigit :=
  Nat.isDigit_of_mem_toDigits (by decide) (by decide) h

theorem fmtU_ne_nil (n : ℕ) : fmtU n ≠ [] := Nat.toDigits_ne_nil

/-- A character that is neither a digit nor a minus sign does not occur in a formatted number. -/
theorem notMem_fmtD {c : Char} (hc : c.isDigit = false) (hm : c ≠ '-') (n : ℤ) : c ∉ fmtD n := by
  cases n with
  | ofNat n =>
      intro h
      rw [isDigit_of_mem_fmtU h] at hc
      exact absurd hc (by decide)
  | negSucc n =>
      intro h
      rcases List.mem_cons.mp h with he | ht
      · exact hm he
      · rw [isDigit_of_mem_fmtU ht] at hc
        exact absurd hc (by decide)

/-- The characters of a number to any base are digits of this base. -/
theorem mem_toDigits {b n : ℕ} {c : Char} (hb : 1 < b) (h : c ∈ Nat.toDigits b n) : ∃ d < b, c = Nat.digitChar d := by
  induction n using Nat.strongRecOn with
  | _ n ih =>
      rw [Nat.toDigits_eq_if hb] at h
      split at h
      next hlt => exact ⟨n, hlt, List.mem_singleton.mp h⟩
      next hle =>
        rcases List.mem_append.mp h with hmem | hlast
        · exact ih (n / b) (Nat.div_lt_self (by omega) hb) hmem
        · exact ⟨n % b, Nat.mod_lt n (by omega), List.mem_singleton.mp hlast⟩

/-- The number of decimal digits. -/
def digits (n : ℕ) : ℕ := Nat.log 10 n + 1

theorem length_fmtU (n : ℕ) : (fmtU n).length = digits n := by
  induction n using Nat.strongRecOn with
  | _ n ih =>
      rw [fmtU, Nat.toDigits_eq_if (by decide), digits]
      split
      · rename_i h
        rw [Nat.log_of_lt h]
        rfl
      · rename_i h
        have hrec : (Nat.toDigits 10 (n / 10)).length = Nat.log 10 (n / 10) + 1 := ih (n / 10) (by omega)
        rw [List.length_append, hrec, Nat.log_of_one_lt_of_le (by decide) (not_lt.mp h)]
        rfl

theorem digits_le {n e : ℕ} (he : e ≠ 0) (h : n < 10 ^ e) : digits n ≤ e :=
  Nat.log_lt_of_lt_pow' he h

theorem length_fmtD_of_nonneg {n : ℤ} (h : 0 ≤ n) : (fmtD n).length = digits n.toNat := by
  obtain ⟨n, rfl⟩ := Int.eq_ofNat_of_zero_le h
  exact length_fmtU n

/-- The digits, and a sign. -/
theorem length_fmtD_le {n : ℤ} {e : ℕ} (he : e ≠ 0) (h : n.natAbs < 10 ^ e) : (fmtD n).length ≤ e + 1 := by
  cases n with
  | ofNat n => exact ((length_fmtU n).trans_le (digits_le he h)).trans (Nat.le_succ e)
  | negSucc n => exact Nat.succ_le_succ ((length_fmtU (n + 1)).trans_le (digits_le he h))

/-! ## Reading a formatted number back -/

theorem digitsVal_append_singleton (ds : Text) (c : Char) :
    digitsVal (ds ++ [c]) = 10 * digitsVal ds + (c.toNat - '0'.toNat) := by
  simp [digitsVal]

theorem digitChar_val {d : ℕ} (h : d < 10) : (Nat.digitChar d).toNat - '0'.toNat = d := by
  interval_cases d <;> rfl

/-- The digits of `n` have the value `n`. -/
theorem digitsVal_fmtU (n : ℕ) : digitsVal (fmtU n) = n := by
  induction n using Nat.strongRecOn with
  | _ n ih =>
      unfold fmtU
      rw [Nat.toDigits_eq_if (by decide)]
      split
      · rename_i h
        have := digitChar_val h
        simpa [digitsVal] using this
      · rename_i h
        have hlt : n / 10 < n := by omega
        have hdig := digitChar_val (Nat.mod_lt n (by decide : 0 < 10))
        have hrec : digitsVal (Nat.toDigits 10 (n / 10)) = n / 10 := ih _ hlt
        rw [digitsVal_append_singleton, hdig, hrec]
        omega

theorem span_append_of_forall {ds rest : Text} (hd : ∀ c ∈ ds, c.isDigit = true)
    (hr : ∀ c ∈ rest.head?, c.isDigit = false) :
    (ds ++ rest).span Char.isDigit = (ds, rest) := by
  have hhead : rest.takeWhile Char.isDigit = [] ∧ rest.dropWhile Char.isDigit = rest := by
    cases rest with
    | nil => simp
    | cons c rest =>
        have hc : c.isDigit = false := hr c (by simp)
        simp [hc]
  rw [List.span_eq_takeWhile_dropWhile, List.takeWhile_append_of_pos hd, List.dropWhile_append_of_pos hd,
    hhead.1, hhead.2, List.append_nil]

theorem scanU_fmtU (n : ℕ) {rest : Text} (hr : ∀ c ∈ rest.head?, c.isDigit = false) :
    scanU (fmtU n ++ rest) = some (n, rest) := by
  unfold scanU
  rw [span_append_of_forall (fun c => isDigit_of_mem_fmtU) hr]
  cases hf : fmtU n with
  | nil => exact absurd hf (fmtU_ne_nil n)
  | cons c ds =>
      simp only [Option.some.injEq, Prod.mk.injEq, and_true]
      rw [← hf]
      exact digitsVal_fmtU n

/-- A text that starts with a digit is scanned without a sign. -/
theorem scanSigned_of_digit {c : Char} {t : Text} (hc : c.isDigit = true) :
    scanSigned (c :: t) = (scanU (c :: t)).map fun r => ((r.1 : ℤ), r.2) := by
  unfold scanSigned
  split
  · rename_i h
    injection h with h1 _
    exact absurd (h1 ▸ hc) (by decide)
  · rename_i h
    injection h with h1 _
    exact absurd (h1 ▸ hc) (by decide)
  · rfl

theorem scanSigned_fmtD (n : ℤ) {rest : Text} (hr : ∀ c ∈ rest.head?, c.isDigit = false) :
    scanSigned (fmtD n ++ rest) = some (n, rest) := by
  cases n with
  | ofNat n =>
      have hs := scanU_fmtU n hr
      show scanSigned (fmtU n ++ rest) = _
      cases hf : fmtU n with
      | nil => exact absurd hf (fmtU_ne_nil n)
      | cons c ds =>
          have hc : c.isDigit = true := isDigit_of_mem_fmtU (n := n) (by simp [hf])
          rw [hf] at hs
          rw [List.cons_append, scanSigned_of_digit hc, ← List.cons_append, hs]
          rfl
  | negSucc n =>
      show (scanU (fmtU (n + 1) ++ rest)).map _ = _
      rw [scanU_fmtU (n + 1) hr]
      rfl

/-! ## What is read as a number -/

/-- The numerals that `%d` accepts behind white space, with their values. -/
inductive Numeral : Text → ℤ → Prop where
  | plain {ds : Text} : ds ≠ [] → (∀ c ∈ ds, c.isDigit = true) → Numeral ds (digitsVal ds)
  | plus {ds : Text} : ds ≠ [] → (∀ c ∈ ds, c.isDigit = true) → Numeral ('+' :: ds) (digitsVal ds)
  | minus {ds : Text} : ds ≠ [] → (∀ c ∈ ds, c.isDigit = true) → Numeral ('-' :: ds) (-(digitsVal ds : ℤ))

theorem scanU_eq_some_iff {t rest : Text} {n : ℕ} : scanU t = some (n, rest) ↔
    ∃ ds, t = ds ++ rest ∧ ds ≠ [] ∧ (∀ c ∈ ds, c.isDigit = true) ∧ (∀ c ∈ rest.head?, c.isDigit = false) ∧
      n = digitsVal ds := by
  constructor
  · intro h
    have hhead : ∀ c ∈ (t.dropWhile Char.isDigit).head?, c.isDigit = false := by
      intro c hc
      have := List.head?_dropWhile_not Char.isDigit t
      rw [hc] at this
      simpa using this
    have hall : ∀ c ∈ t.takeWhile Char.isDigit, c.isDigit = true := List.all_eq_true.mp List.all_takeWhile
    rw [scanU, List.span_eq_takeWhile_dropWhile] at h
    split at h
    · cases h
    · rename_i ds rest' hne heq
      obtain ⟨rfl, rfl⟩ := Prod.mk.inj heq
      obtain ⟨rfl, rfl⟩ := Prod.mk.inj (Option.some.inj h)
      refine ⟨_, (List.takeWhile_append_dropWhile).symm, ?_, hall, hhead, rfl⟩
      intro hnil
      exact hne hnil
  · rintro ⟨ds, rfl, hne, hds, hrest, rfl⟩
    rw [scanU, span_append_of_forall hds hrest]
    cases ds with
    | nil => exact absurd rfl hne
    | cons c ds => rfl

/-- **A number is read exactly where a numeral stands.** -/
theorem scanSigned_eq_some_iff {t rest : Text} {v : ℤ} : scanSigned t = some (v, rest) ↔
    ∃ num, t = num ++ rest ∧ Numeral num v ∧ ∀ c ∈ rest.head?, c.isDigit = false := by
  constructor
  · intro h
    unfold scanSigned at h
    split at h
    · obtain ⟨⟨n, r⟩, hr, heq⟩ := Option.map_eq_some_iff.mp h
      obtain ⟨rfl, rfl⟩ := Prod.mk.inj heq
      obtain ⟨ds, rfl, hne, hds, hrest, rfl⟩ := scanU_eq_some_iff.mp hr
      exact ⟨'-' :: ds, rfl, .minus hne hds, hrest⟩
    · obtain ⟨⟨n, r⟩, hr, heq⟩ := Option.map_eq_some_iff.mp h
      obtain ⟨rfl, rfl⟩ := Prod.mk.inj heq
      obtain ⟨ds, rfl, hne, hds, hrest, rfl⟩ := scanU_eq_some_iff.mp hr
      exact ⟨'+' :: ds, rfl, .plus hne hds, hrest⟩
    · obtain ⟨⟨n, r⟩, hr, heq⟩ := Option.map_eq_some_iff.mp h
      obtain ⟨rfl, rfl⟩ := Prod.mk.inj heq
      obtain ⟨ds, rfl, hne, hds, hrest, rfl⟩ := scanU_eq_some_iff.mp hr
      exact ⟨ds, rfl, .plain hne hds, hrest⟩
  · rintro ⟨num, rfl, hnum, hrest⟩
    have hscan {ds : Text} (hne : ds ≠ []) (hds : ∀ c ∈ ds, c.isDigit = true) :
        scanU (ds ++ rest) = some (digitsVal ds, rest) := scanU_eq_some_iff.mpr ⟨ds, rfl, hne, hds, hrest, rfl⟩
    cases hnum with
    | plain hne hds =>
        obtain ⟨c, ds, rfl⟩ := List.exists_cons_of_ne_nil hne
        rw [List.cons_append, scanSigned_of_digit (hds c List.mem_cons_self), ← List.cons_append, hscan hne hds]
        rfl
    | @plus ds hne hds =>
        show (scanU (ds ++ rest)).map _ = _
        rw [hscan hne hds]
        rfl
    | @minus ds hne hds =>
        show (scanU (ds ++ rest)).map _ = _
        rw [hscan hne hds]
        rfl

/-- The first character of a formatted number is not white space. -/
theorem dropWhile_fmtD (n : ℤ) (rest : Text) :
    (fmtD n ++ rest).dropWhile Char.isWhitespace = fmtD n ++ rest := by
  have hdig : ∀ c : Char, c.isDigit = true → c.isWhitespace = false := by
    intro c hc
    rw [Bool.eq_false_iff]
    intro hw
    simp only [Char.isWhitespace, Bool.or_eq_true, decide_eq_true_eq] at hw
    rcases hw with ((rfl | rfl) | rfl) | rfl <;> exact absurd hc (by decide)
  cases n with
  | ofNat n =>
      show (fmtU n ++ rest).dropWhile _ = fmtU n ++ rest
      cases hf : fmtU n with
      | nil => exact absurd hf (fmtU_ne_nil n)
      | cons c ds =>
          have hc : c.isDigit = true := isDigit_of_mem_fmtU (n := n) (by simp [hf])
          simp [hdig c hc]
  | negSucc n =>
      show ('-' :: (fmtU (n + 1) ++ rest)).dropWhile _ = '-' :: (fmtU (n + 1) ++ rest)
      have : Char.isWhitespace '-' = false := by decide
      simp [this]

/-- **The round trip.** `sscanf("%d")` reads back what `printf("%d")` wrote, up to the first non-digit. -/
theorem scanD_fmtD (n : ℤ) {rest : Text} (hr : ∀ c ∈ rest.head?, c.isDigit = false) :
    scanD (fmtD n ++ rest) = some (n, rest) := by
  rw [scanD, dropWhile_fmtD, scanSigned_fmtD n hr]

/-- A blank before a number is skipped. -/
theorem scanD_space (t : Text) : scanD (' ' :: t) = scanD t := by
  have : Char.isWhitespace ' ' = true := by decide
  simp [scanD, this]

/-- One formatted number in front of a sequence of conversions. -/
theorem scanInts_fmtD (k : ℕ) (n : ℤ) {rest : Text} (hr : ∀ c ∈ rest.head?, c.isDigit = false) :
    scanInts (k + 1) (fmtD n ++ rest) = n :: scanInts k rest := by
  simp only [scanInts, scanD_fmtD n hr]

theorem scanInts_space (k : ℕ) (t : Text) : scanInts k (' ' :: t) = scanInts k t := by
  cases k with
  | zero => rfl
  | succ k => simp only [scanInts, scanD_space]

end Decimal
end Tipcutils
