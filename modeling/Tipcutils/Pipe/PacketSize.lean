import Tipcutils.Pipe.Senders

/-!
# `Pipe.PacketSize` — the sizes of generated packets

`generate_data` formats every packet into a buffer of `--buf_size` octets, and sends it with its NUL. With `--data_size` it
is a zero that is filled up to the size, less the newline and the NUL; without it, a numbered message. What `init` asserts
is a comparison of `int`s whose sum wraps around, and it does not look at the message.

**`packet_ok_iff`** says exactly when a packet fits and has the size that is asked for.
-/

namespace Tipcutils
namespace Pipe

open Decimal

/-- The default of `--buf_size`: `TIPC_MAX_USER_MSG_SIZE`. -/
def bufSizeDefault : Int32 := 66000

/-- The assertion at the end of `init`. -/
def initAssertion (dataSize bufSize : Int32) : Prop := dataSize + 1 < bufSize

instance (dataSize bufSize : Int32) : Decidable (initAssertion dataSize bufSize) :=
  inferInstanceAs (Decidable (dataSize + 1 < bufSize))

/-- What `tipc_write` is handed: `strlen(buf) + 1` octets, where the buffer holds the text, a NUL, and what was there. -/
def Generator.packetSize (g : Generator) (dataSize : Int32) (i tries : ℕ) (mem : Text) : ℕ :=
  (cString (g.text dataSize i tries ++ '\x00' :: mem)).length + 1

/-- A packet fits into the buffer, and has the size that is asked for. -/
structure PacketOk (g : Generator) (dataSize bufSize : Int32) (i tries : ℕ) : Prop where
  fits : (((g.text dataSize i tries).length + 1 : ℕ) : ℤ) ≤ bufSize.toInt
  size : dataSize ≠ 0 → ∀ mem, (g.packetSize dataSize i tries mem : ℤ) = dataSize.toInt

/-! ## The length of a text -/

theorem length_fmtZero (width : ℤ) : (fmtZero width).length = max 1 width.natAbs := by
  unfold fmtZero
  split
  · rw [List.length_append, List.length_replicate, List.length_singleton]
    omega
  · rw [List.length_cons, List.length_replicate]
    omega

/-- The digits of the numbers in a message: its own, the try, and those of its sender. -/
def Generator.digits (g : Generator) (i tries : ℕ) : ℕ :=
  (fmtD i).length + (fmtD tries).length + (fmtX g.node).length + (fmtD g.pid.toInt).length + (fmtX g.ref).length

section
variable {g : Generator} {dataSize bufSize : Int32} {i tries : ℕ}

theorem Generator.length_message : (g.text 0 i tries).length = 17 + g.digits i tries := by
  have h0 : ¬ (0 : Int32) ≠ 0 := fun h => h rfl
  have hmessage : "message ".toList.length = 8 := rfl
  have htry : " try ".toList.length = 5 := rfl
  rw [Generator.text, if_neg h0, Generator.digits]
  simp only [List.length_append, List.length_cons, List.length_nil, hmessage, htry]
  omega

theorem Generator.length_filled (h : dataSize ≠ 0) :
    (g.text dataSize i tries).length = max 1 (dataSize - 2).toInt.natAbs + 1 := by
  rw [Generator.text, if_pos h, List.length_append, length_fmtZero, List.length_singleton]

/-- No text holds a NUL, so that all of it is sent. -/
theorem Generator.packetSize_eq (mem : Text) :
    g.packetSize dataSize i tries mem = (g.text dataSize i tries).length + 1 := by
  rw [Generator.packetSize, cString_append fun c hc => Generator.text_ne_nul hc]

/-! ## The sizes that are met -/

/-- Three octets are the least, and every size from there on is met. -/
theorem Generator.length_eq_size_iff (h : dataSize ≠ 0) :
    (((g.text dataSize i tries).length + 1 : ℕ) : ℤ) = dataSize.toInt ↔ 3 ≤ dataSize.toInt := by
  have hlo := dataSize.le_toInt
  have hhi := dataSize.toInt_lt
  have hwidth : 3 ≤ dataSize.toInt → (dataSize - 2).toInt = dataSize.toInt - 2 := by
    intro h3
    rw [Int32.toInt_sub]
    exact Int.bmod_eq_of_le (by simp; omega) (by simp; omega)
  rw [g.length_filled h]
  constructor
  · intro heq
    omega
  · intro h3
    rw [hwidth h3]
    omega

/-- From three octets on, all that is sent has the size that is asked for. -/
theorem length_generated (h3 : 3 ≤ dataSize.toInt) {dataNum : Int32} {ws : List Sending} {m : Text}
    (hm : m ∈ g.generateData dataSize dataNum 0 ws) : (m.length : ℤ) = dataSize.toInt := by
  have h0 : dataSize ≠ 0 := by
    rintro rfl
    exact absurd h3 (by decide)
  rw [← List.zipIdx_map_fst 0 (g.generateData dataSize dataNum 0 ws)] at hm
  obtain ⟨p, hp, rfl⟩ := List.mem_map.mp hm
  obtain ⟨-, tries, htext⟩ := mem_generateData hp
  rw [htext, List.length_append, List.length_singleton]
  exact (Generator.length_eq_size_iff h0).mpr h3

/-- A size that the assertion lets pass is no larger than the buffer, unless the sum wraps around. -/
theorem initAssertion.size_le_iff (h : initAssertion dataSize bufSize) :
    dataSize.toInt ≤ bufSize.toInt ↔ dataSize = .maxValue → bufSize = .maxValue := by
  have hlo := dataSize.le_toInt
  have hhi := dataSize.toInt_lt
  have hbuf := bufSize.toInt_lt
  have hmax : Int32.maxValue.toInt = 2 ^ 31 - 1 := by decide
  rw [← Int32.toInt_inj, ← Int32.toInt_inj, hmax]
  constructor
  · intro hle heq
    omega
  · intro himp
    rcases Int.lt_or_eq_of_le (Int.le_sub_one_of_lt hhi) with hlt | heq
    · have hsum : (dataSize + 1).toInt = dataSize.toInt + 1 := by
        rw [Int32.toInt_add]
        exact Int.bmod_eq_of_le (by simp; omega) (by simp; omega)
      have hle := Int32.lt_iff_toInt_lt.mp h
      omega
    · have := himp heq
      omega

/-- **When a packet fits and has the size that is asked for.** Without `--data_size`, if the buffer holds the message's 18
    other octets and its digits; with it, from three octets on, but for the largest `int`, whose sum wraps around. -/
theorem packet_ok_iff (g : Generator) (dataSize bufSize : Int32) (i tries : ℕ) (h : initAssertion dataSize bufSize) :
    PacketOk g dataSize bufSize i tries ↔
      dataSize = 0 ∧ ((18 + g.digits i tries : ℕ) : ℤ) ≤ bufSize.toInt ∨
      3 ≤ dataSize.toInt ∧ (dataSize = .maxValue → bufSize = .maxValue) := by
  rw [← h.size_le_iff]
  by_cases h0 : dataSize = 0
  · subst h0
    have hzero : ¬ 3 ≤ (0 : Int32).toInt := by decide
    rw [or_iff_left fun h => hzero h.1]
    constructor
    · intro hok
      refine ⟨rfl, ?_⟩
      have hfits := hok.fits
      rw [g.length_message] at hfits
      omega
    · rintro ⟨-, hfits⟩
      refine ⟨?_, fun h => absurd rfl h⟩
      rw [g.length_message]
      omega
  · rw [or_iff_right fun h => h0 h.1]
    constructor
    · intro hok
      have hsize := hok.size h0 []
      rw [Generator.packetSize_eq] at hsize
      have hfits := hok.fits
      rw [hsize] at hfits
      exact ⟨(Generator.length_eq_size_iff h0).mp hsize, hfits⟩
    · rintro ⟨h3, hfits⟩
      have hsize : (((g.text dataSize i tries).length + 1 : ℕ) : ℤ) = dataSize.toInt :=
        (Generator.length_eq_size_iff h0).mpr h3
      refine ⟨hsize ▸ hfits, fun _ mem => ?_⟩
      rw [Generator.packetSize_eq, hsize]

end

/-- A packet of 1000 octets. -/
theorem packet_ok_iff_thousand : PacketOk ⟨0x1001001, 77, 0xabc⟩ 1000 bufSizeDefault 0 1 :=
  (packet_ok_iff ⟨0x1001001, 77, 0xabc⟩ 1000 bufSizeDefault 0 1 (by decide)).mpr (.inr (by decide))

/-- **A packet that does not fit:** the width of a negative size is filled up as well, and the assertion lets it pass. -/
theorem packet_not_fits : ¬ ∀ (g : Generator) (dataSize bufSize : Int32) (i tries : ℕ), initAssertion dataSize bufSize →
    PacketOk g dataSize bufSize i tries := by
  intro h
  have hfits := (h ⟨0x1001001, 77, 0xabc⟩ (-100000) bufSizeDefault 0 1 (by decide)).fits
  rw [Generator.length_filled (by decide)] at hfits
  exact absurd hfits (by decide)

/-- The least packet has three octets, also where two are asked for. -/
example : (Generator.mk 0x1001001 77 0xabc).packetSize 2 0 1 [] = 3 := by decide

end Pipe
end Tipcutils
