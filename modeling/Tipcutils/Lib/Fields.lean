import Tipcutils.Lib.Decimal

/-!
# `Lib.Fields` — numbers between separators

`printU` is `printf` for formats with `%u` conversions. A text that it prints with single characters between the numbers
is split at these characters, and read number by number: **`read_printU`** recovers the arguments.

Nothing here mentions a concrete program.
-/

namespace Tipcutils
namespace Decimal

/-- `printf` with `%u` conversions. -/
def printU : Text → List ℕ → Text
  | [], _ => []
  | '%' :: 'u' :: fmt, n :: args => fmtU n ++ printU fmt args
  | c :: fmt, args => c :: printU fmt args

/-- The format of one number more than there are separators. -/
def format : List Char → Text
  | [] => ['%', 'u']
  | c :: seps => '%' :: 'u' :: c :: format seps

/-- Characters at which a text is split; none of them is a digit. -/
structure Separators where
  isSep : Char → Bool
  not_digit : ∀ c, isSep c = true → c.isDigit = false

/-- The numbers between the separators. -/
def Separators.read (S : Separators) (t : Text) : List ℕ := (t.splitOnP S.isSep).map digitsVal

section
variable {S : Separators} {seps : List Char} {args : List ℕ}

theorem printU_conversion (fmt : Text) (n : ℕ) (args : List ℕ) :
    printU ('%' :: 'u' :: fmt) (n :: args) = fmtU n ++ printU fmt args := by rw [printU]

/-- A character in front of a conversion is printed as it is. -/
theorem printU_sep (c : Char) (fmt : Text) (args : List ℕ) :
    printU (c :: '%' :: fmt) args = c :: printU ('%' :: fmt) args := by
  rw [printU]
  intro fmt' n args' _ _ hfmt
  exact absurd (List.cons.inj hfmt).1 (by decide)

/-- A number has no separators. -/
theorem not_sep_of_mem_fmtU (S : Separators) (n : ℕ) : ∀ c ∈ fmtU n, S.isSep c = false := by
  intro c hc
  rw [Bool.eq_false_iff]
  intro hsep
  have hdigit := isDigit_of_mem_fmtU hc
  rw [S.not_digit c hsep] at hdigit
  nomatch hdigit

theorem format_eq_cons (seps : List Char) : ∃ fmt, format seps = '%' :: fmt := by
  cases seps with
  | nil => exact ⟨_, rfl⟩
  | cons c seps => exact ⟨_, rfl⟩

/-- **Numbers between separators are read back.** -/
theorem read_printU (S : Separators) (hseps : ∀ c ∈ seps, S.isSep c = true) (hargs : args.length = seps.length + 1) :
    S.read (printU (format seps) args) = args := by
  induction seps generalizing args with
  | nil =>
    obtain ⟨n, rfl⟩ := List.length_eq_one_iff.mp hargs
    rw [format, printU_conversion, printU, List.append_nil, Separators.read,
      List.splitOnP_eq_singleton (not_sep_of_mem_fmtU S n), List.map_singleton, digitsVal_fmtU]
  | cons c seps ih =>
    obtain ⟨n, args, rfl⟩ : ∃ n rest, args = n :: rest := List.exists_cons_of_length_eq_add_one hargs
    obtain ⟨fmt, hfmt⟩ := format_eq_cons seps
    have hrest := ih (fun c' hc' => hseps c' (List.mem_cons_of_mem _ hc')) (Nat.succ.inj hargs)
    have hsplit := List.splitOnP_append_cons_of_forall_mem (not_sep_of_mem_fmtU S n) c (hseps c List.mem_cons_self)
    rw [Separators.read] at hrest ⊢
    rw [format, printU_conversion, hfmt, printU_sep, ← hfmt, hsplit, List.map_cons, digitsVal_fmtU, hrest]

/-- What is printed has no other characters than those of the format, and digits. -/
theorem mem_printU {fmt : Text} {args : List ℕ} {c : Char} (h : c ∈ printU fmt args) : c.isDigit = true ∨ c ∈ fmt := by
  fun_induction printU fmt args with
  | case1 => nomatch h
  | case2 fmt n args ih =>
    rcases List.mem_append.mp h with hnumber | hrest
    · exact .inl (isDigit_of_mem_fmtU hnumber)
    · exact (ih hrest).imp_right fun hmem => List.mem_cons_of_mem _ (List.mem_cons_of_mem _ hmem)
  | case3 args c' fmt _ ih =>
    rcases List.mem_cons.mp h with rfl | hrest
    · exact .inr List.mem_cons_self
    · exact (ih hrest).imp_right (List.mem_cons_of_mem _)

end

end Decimal
end Tipcutils
