import Mathlib.Algebra.Order.Field.Rat
import Mathlib.Tactic.FieldSimp
import Mathlib.Tactic.Linarith
import Mathlib.Tactic.NormNum
import Mathlib.Tactic.Ring
import Tipcutils.Lib.Decimal
import Tipcutils.Ptts.Tests

/-!
# `Ptts.Blast` — the throughput that the blaster reports

`reportBlast` computes bits per second from bytes and milliseconds in 32 bits. Small amounts of data are multiplied first,
large ones divided first, which is to keep the products in range. The threshold is one for the dividend alone.

**`report_exact_iff`** says for which times the products stay in range, and then bounds what is lost by rounding.
-/

namespace Tipcutils
namespace Ptts

open Decimal

/-! ## `reportBlast` -/

/-- The time that `reportBlast` divides by. -/
def blastDivisor (elapsedTime : UInt32) : UInt32 := if elapsedTime = 0 then 1 else elapsedTime

/-- The rate. -/
def blastRate (packetSize : ℤ) (elapsedTime : UInt32) : UInt32 :=
  let divisor := blastDivisor elapsedTime
  let rate := UInt32.ofInt (packetSize * tsBlastReps)
  if rate ≤ 536870 then rate * 8000 / divisor else rate / divisor * 8000

/-- What `reportBlast` prints; the time is shown as an `int`. -/
def reportBlast (_numPackets packetSize : ℤ) (elapsedTime : UInt32) : Text :=
  "Sent ".toList ++ fmtD tsBlastReps ++ " packets of size ".toList ++ fmtD packetSize ++ " in ".toList ++
    fmtD elapsedTime.toInt32.toInt ++ " ms (".toList ++ fmtU (blastRate packetSize elapsedTime).toNat ++ " bit/s)\n".toList

/-- The values that `reportBlast` computes, as they are without a bound. -/
def blastValues (packetSize : ℤ) (elapsedTime : UInt32) : List ℤ :=
  let divisor : ℤ := (blastDivisor elapsedTime).toNat
  let rate := packetSize * tsBlastReps
  if rate ≤ 536870 then [rate, rate * 8000, rate * 8000 / divisor] else [rate, rate / divisor, rate / divisor * 8000]

/-! ## What the comment promises -/

/-- The bits per second of a blast. -/
def trueRate (packetSize : ℤ) (elapsedTime : UInt32) : ℚ :=
  packetSize * tsBlastReps * 8000 / (max elapsedTime.toNat 1 : ℕ)

/-- The best precision without overflow. -/
structure ReportExact (packetSize : ℤ) (elapsedTime : UInt32) : Prop where
  noOverflow : ∀ v ∈ blastValues packetSize elapsedTime, v < 2 ^ 32
  atMost : ((blastRate packetSize elapsedTime).toNat : ℚ) ≤ trueRate packetSize elapsedTime
  close : trueRate packetSize elapsedTime < (blastRate packetSize elapsedTime).toNat + 8000

/-! ## The sizes -/

/-- The blaster's packets have one octet, or more than five, which makes the dividend larger than the threshold. -/
theorem blast_size {packetSize : ℤ} (h : packetSize ∈ cblastSize) (hne : packetSize ≠ 0) :
    packetSize = 1 ∨ 6 ≤ packetSize ∧ packetSize ≤ 10000 := by
  have hall : ∀ s ∈ cblastSize, s ≠ 0 → s = 1 ∨ 6 ≤ s ∧ s ≤ 10000 := by decide
  exact hall packetSize h hne

section
variable {elapsedTime : UInt32}

theorem toNat_blastDivisor : (blastDivisor elapsedTime).toNat = max elapsedTime.toNat 1 := by
  unfold blastDivisor
  split
  next h0 =>
    rw [h0]
    rfl
  next hne =>
    have hpos : elapsedTime.toNat ≠ 0 := fun h => hne (UInt32.toNat_inj.mp h)
    omega

/-- What is lost by dividing a dividend first is less than the factor. -/
theorem div_mul_close (r k d : ℕ) (hd : 0 < d) (hk : 0 < k) :
    ((r / d * k : ℕ) : ℚ) ≤ r * k / d ∧ (r * k / d : ℚ) < (r / d * k : ℕ) + k := by
  have hd' : (0 : ℚ) < d := Nat.cast_pos.mpr hd
  have hle : r / d * k * d ≤ r * k := by
    calc r / d * k * d = d * (r / d) * k := by ring
      _ ≤ r * k := Nat.mul_le_mul_right k (Nat.mul_div_le r d)
  have hlt : r * k < (r / d * k + k) * d := by
    calc r * k < d * (r / d + 1) * k := Nat.mul_lt_mul_of_pos_right (Nat.lt_mul_div_succ r hd) hk
      _ = (r / d * k + k) * d := by ring
  rw [le_div_iff₀ hd', div_lt_iff₀ hd']
  exact ⟨by exact_mod_cast hle, by exact_mod_cast hlt⟩

/-- The dividend, in 32 bits. -/
theorem toNat_dividend {n : ℕ} (h : n ≤ 10000) : (UInt32.ofInt (n * tsBlastReps)).toNat = n * 100000 := by
  have hmod : (n * tsBlastReps : ℤ) % 2 ^ 32 = (n * 100000 : ℕ) := by
    rw [tsBlastReps]
    omega
  rw [UInt32.ofInt, hmod, Int.toNat_natCast]
  exact UInt32.toNat_ofNat_of_lt' (by show n * 100000 < 4294967296; omega)

theorem blastRate_one : (blastRate 1 elapsedTime).toNat = 800000000 / max elapsedTime.toNat 1 := by
  have hrate : UInt32.ofInt (1 * tsBlastReps) = 100000 := by decide
  have hproduct : (100000 * 8000 : UInt32).toNat = 800000000 := by decide
  unfold blastRate
  rw [hrate, if_pos (by decide), UInt32.toNat_div, toNat_blastDivisor, hproduct]

theorem blastRate_large {n : ℕ} (h6 : 6 ≤ n) (h : n ≤ 10000) :
    (blastRate n elapsedTime).toNat = n * 100000 / max elapsedTime.toNat 1 * 8000 % 2 ^ 32 := by
  have hlarge : ¬ UInt32.ofInt (n * tsBlastReps) ≤ 536870 := by
    rw [UInt32.le_iff_toNat_le, toNat_dividend h]
    show ¬ n * 100000 ≤ 536870
    omega
  unfold blastRate
  rw [if_neg hlarge, UInt32.toNat_mul, UInt32.toNat_div, toNat_blastDivisor, toNat_dividend h]
  rfl

theorem report_exact_one : ReportExact 1 elapsedTime := by
  have hpos : 0 < max elapsedTime.toNat 1 := by omega
  obtain ⟨hle, hlt⟩ := div_mul_close 800000000 1 (max elapsedTime.toNat 1) hpos Nat.one_pos
  have htrue : trueRate 1 elapsedTime = ((800000000 : ℕ) : ℚ) * ((1 : ℕ) : ℚ) / (max elapsedTime.toNat 1 : ℕ) := by
    rw [trueRate, tsBlastReps]
    norm_num
  rw [Nat.mul_one, ← blastRate_one, ← htrue] at hle hlt
  refine ⟨?_, hle, ?_⟩
  · intro v hv
    have hfirst : (1 * tsBlastReps : ℤ) ≤ 536870 := by decide
    have hquot : (1 * tsBlastReps * 8000 / (blastDivisor elapsedTime).toNat : ℤ) ≤ 1 * tsBlastReps * 8000 :=
      Int.ediv_le_self _ (by decide)
    simp only [blastValues, if_pos hfirst, List.mem_cons, List.not_mem_nil, or_false] at hv
    have hreps : tsBlastReps = 100000 := rfl
    omega
  · have hone : ((1 : ℕ) : ℚ) ≤ 8000 := by norm_num
    linarith

theorem report_exact_large_iff {n : ℕ} (h6 : 6 ≤ n) (h : n ≤ 10000) :
    ReportExact n elapsedTime ↔ n * 100000 / max elapsedTime.toNat 1 ≤ 536870 := by
  have hpos : 0 < max elapsedTime.toNat 1 := by omega
  have hreps : tsBlastReps = 100000 := rfl
  have hlarge : ¬ (n * tsBlastReps : ℤ) ≤ 536870 := by
    rw [hreps]
    omega
  have hquot : (n * tsBlastReps / (blastDivisor elapsedTime).toNat : ℤ) =
      (n * 100000 / max elapsedTime.toNat 1 : ℕ) := by
    rw [toNat_blastDivisor, hreps]
    push_cast
    rfl
  have hvalues : blastValues n elapsedTime = [n * tsBlastReps, (n * 100000 / max elapsedTime.toNat 1 : ℕ),
      (n * 100000 / max elapsedTime.toNat 1 : ℕ) * 8000] := by
    rw [blastValues, if_neg hlarge, hquot]
  constructor
  · intro hexact
    have hlast := hexact.noOverflow ((n * 100000 / max elapsedTime.toNat 1 : ℕ) * 8000) (by rw [hvalues]; simp)
    omega
  · intro hsmall
    obtain ⟨hle, hlt⟩ := div_mul_close (n * 100000) 8000 (max elapsedTime.toNat 1) hpos (by decide)
    have htrue : trueRate n elapsedTime =
        ((n * 100000 : ℕ) : ℚ) * ((8000 : ℕ) : ℚ) / (max elapsedTime.toNat 1 : ℕ) := by
      rw [trueRate, hreps]
      push_cast
      rfl
    have hrate : (blastRate n elapsedTime).toNat = n * 100000 / max elapsedTime.toNat 1 * 8000 := by
      rw [blastRate_large h6 h]
      exact Nat.mod_eq_of_lt (by omega)
    rw [← hrate, ← htrue] at hle hlt
    refine ⟨?_, hle, by exact_mod_cast hlt⟩
    intro v hv
    simp only [hvalues, hreps, List.mem_cons, List.not_mem_nil, or_false] at hv
    omega

end

/-- **When the blast report does not overflow, and is as precise as its comment says:** for packets of one octet, and else
    if no more than 536870 octets are sent in a millisecond. -/
theorem report_exact_iff {packetSize : ℤ} (h : packetSize ∈ cblastSize) (hne : packetSize ≠ 0) (elapsedTime : UInt32) :
    ReportExact packetSize elapsedTime ↔
      packetSize = 1 ∨ packetSize * tsBlastReps / (max elapsedTime.toNat 1 : ℕ) ≤ 536870 := by
  rcases blast_size h hne with rfl | ⟨h6, h10000⟩
  · exact iff_of_true report_exact_one (.inl rfl)
  · obtain ⟨n, rfl⟩ := Int.eq_ofNat_of_zero_le (by omega : 0 ≤ packetSize)
    rw [report_exact_large_iff (by omega) (by omega), or_iff_right (by omega), tsBlastReps]
    norm_cast

/-- A second for packets of 1000 octets. -/
theorem report_exact_iff_second : ReportExact 1000 1000 :=
  (report_exact_iff (by decide) (by decide) 1000).mpr (.inr (by decide))

/-- **An overflow:** ten thousand octets in every packet, and a second and a half for all of them. -/
theorem report_overflows : ¬ ∀ (packetSize : ℤ) (elapsedTime : UInt32), packetSize ∈ cblastSize → packetSize ≠ 0 →
    ReportExact packetSize elapsedTime := by
  intro h
  have hexact := h 10000 1500 (by decide) (by decide)
  have hlast := hexact.noOverflow 5333328000 (by decide)
  exact absurd hlast (by decide)

/-- What is reported then. -/
example : (blastRate 10000 1500).toNat = 1038360704 := by decide

end Ptts
end Tipcutils
