import Tipcutils.Ptts.Vector

/-!
# `Ptts.Counts` — how many errors `checkArray` finds, and which messages it accepts

On a message of `makeArray` whose data has been altered, `checkArray` counts the altered octets
(**`checkArray_eq_differences`**). The messages in which it finds no errors are the messages of `makeArray` and those
whose header carries a range that `makeArray` never writes (**`makeArray_of_checkArray`**).
-/

namespace Tipcutils
namespace Ptts

variable {start last : ℕ}

/-! ## The data -/

/-- The mismatches are the differences from the pattern. -/
theorem mismatches_eq_differences {curNum : ℕ} (hs : start ≤ 255) (hl : last ≤ 255) (hc : curNum ≤ 255) (bs : Octets) :
    mismatches start last curNum bs = differences (pattern start last bs.length curNum) bs := by
  induction bs generalizing curNum with
  | nil => rfl
  | cons b bs ih =>
    have hb : curNum ≠ b.toNat ↔ UInt8.ofNat curNum ≠ b := by
      rw [ne_eq, ne_eq, ← UInt8.toNat_inj, UInt8.toNat_ofNat_of_lt' (Nat.lt_succ_of_le hc)]
    rw [mismatches, ih (nextNum_le hs hl), List.length_cons, pattern, differences_cons, if_congr hb rfl rfl]

/-- Of a short message, the differences from 0, 1, 2, ... are counted. -/
theorem checkArray_short_eq {got : Octets} (h : got.length < 7) :
    checkArray got got.length = differences ((List.range got.length).map .ofNat) got := by
  have hzip : ((List.range got.length).map UInt8.ofNat).zip got =
      (List.range got.length).map fun i => (UInt8.ofNat i, got.getD i 0) := by
    apply List.ext_getElem
    · simp
    · intro i hi _
      have hlt : i < got.length := by simpa using hi
      simp [hlt]
  rw [checkArray, if_pos h, differences, hzip, List.countP_map]
  apply List.countP_congr
  intro i hi
  have hlt : i < UInt8.size := Nat.lt_trans (List.mem_range.mp hi) (Nat.lt_trans h (by decide))
  simp only [Function.comp, decide_eq_true_eq, ne_eq, ← UInt8.toNat_inj, UInt8.toNat_ofNat_of_lt' hlt]
  exact not_congr eq_comm

/-! ## The count -/

/-- With the header as it is sent, each altered octet counts. -/
theorem checkArray_eq_differences {size : ℕ} (h : size < 2 ^ 32) (start last : ℤ) {got : Octets}
    (hlen : got.length = size) (hhead : 7 ≤ size → got.take 7 = (makeArray size start last).take 7) :
    checkArray got size = differences (makeArray size start last) got := by
  by_cases hshort : size < 7
  · rw [makeArray_short hshort, ← hlen]
    exact checkArray_short_eq (hlen ▸ hshort)
  · obtain ⟨f, l, hf, hl, heq⟩ := makeArray_long (Nat.not_lt.mp hshort) start last
    -- what is left of `got` after the header
    obtain ⟨p, hp⟩ : ∃ p, got = header size f l ++ p := by
      refine ⟨got.drop 7, ?_⟩
      rw [heq, List.take_left' (length_header size)] at hhead
      rw [← hhead (Nat.not_lt.mp hshort), List.take_append_drop]
    have hplen : p.length = size - 7 := by
      rw [hp, List.length_append, length_header] at hlen
      omega
    obtain ⟨h4, h5⟩ := getD_header hf hl size p
    rw [heq, hp, checkArray_header (length_header size) (by omega) (xorSum_header size f l) (readSize_header h p), h4, h5,
      mismatches_eq_differences hf hl hf, hplen, differences_append rfl, differences_self, Nat.zero_add]

/-- A replaced octet is an altered one. -/
theorem altered_set {a : Octets} {i : ℕ} {b : UInt8} (hi : i < a.length) (hb : b ≠ a.getD i 0) : Altered a (a.set i b) := by
  refine ⟨a.take i, a.getD i 0, b, a.drop (i + 1), hb.symm, ?_, ?_⟩
  · rw [List.getD_eq_getElem _ _ hi, ← List.drop_eq_getElem_cons hi, List.take_append_drop]
  · rw [List.set_eq_take_append_cons_drop, if_pos hi]

/-- No errors in what `makeArray` writes, one for each altered octet of the data, and some for any other header. -/
theorem checkArray_counts {size : ℕ} (h : size < 2 ^ 31) (start last : ℤ) :
    checkArray (makeArray size start last) size = 0 ∧
      (∀ got : Octets, got.length = size → (7 ≤ size → got.take 7 = (makeArray size start last).take 7) →
        checkArray got size = differences (makeArray size start last) got) ∧
      (7 ≤ size → ∀ i < 7, ∀ b ≠ (makeArray size start last).getD i 0,
        checkArray ((makeArray size start last).set i b) size ≠ 0) := by
  have h' : size < 2 ^ 32 := by omega
  refine ⟨checkArray_makeArray h' start last, ?_, ?_⟩
  · intro got hlen hhead
    exact checkArray_eq_differences h' start last hlen hhead
  · intro hlong i hi b hb
    have hlt : i < (makeArray size start last).length := by
      rw [length_makeArray]
      omega
    exact checkArray_altered (altered_set hlt hb)

theorem checkArray_counts_ten : checkArray (makeArray 10 1 3) 10 = 0 ∧
    checkArray (((makeArray 10 1 3).set 7 9).set 9 0) 10 = 2 ∧ checkArray ((makeArray 10 1 3).set 5 4) 10 ≠ 0 := by
  obtain ⟨hnone, hdata, hhead⟩ := checkArray_counts (show 10 < 2 ^ 31 by decide) 1 3
  exact ⟨hnone, hdata _ rfl (fun _ => rfl), hhead (by decide) 5 (by decide) 4 (by decide)⟩

/-! ## What is accepted -/

/-- The size in the header determines its octets. -/
theorem sizeOctets_of_readSize {size : ℕ} (h : size < 2 ^ 32) {a b c d : UInt8} {rest : Octets}
    (hr : readSize (a :: b :: c :: d :: rest) = .ofNat size) : sizeOctets 4 size = [a, b, c, d] := by
  have ha := a.toNat_lt
  have hb := b.toNat_lt
  have hc := c.toNat_lt
  have hd := d.toNat_lt
  have hread := toNat_readSize a b c d rest
  rw [hr, UInt32.toNat_ofNat_of_lt' h] at hread
  have hoctet : ∀ (n : ℕ) (x : UInt8), n % 256 = x.toNat → UInt8.ofNat (n &&& 0xFF) = x := by
    intro n x hn
    apply UInt8.toNat_inj.mp
    rw [UInt8.toNat_ofNat', Nat.and_two_pow_sub_one_eq_mod n 8, Nat.mod_mod, hn]
  simp only [sizeOctets, Nat.shiftRight_eq_div_pow, List.cons.injEq, and_true]
  refine ⟨hoctet _ _ ?_, hoctet _ _ ?_, hoctet _ _ ?_, hoctet _ _ ?_⟩
  all_goals omega

/-- What a long message without errors consists of. -/
theorem eq_of_checkArray {got : Octets} (hlong : 7 ≤ got.length) (hlt : got.length < 2 ^ 32)
    (hzero : checkArray got got.length = 0) :
    got = header got.length (got.getD 4 0).toNat (got.getD 5 0).toNat ++
      pattern (got.getD 4 0).toNat (got.getD 5 0).toNat (got.length - 7) (got.getD 4 0).toNat := by
  obtain ⟨a, b, c, d, e, f, g, p, rfl⟩ : ∃ a b c d e f g p, got = a :: b :: c :: d :: e :: f :: g :: p := by
    match got, hlong with
    | a :: b :: c :: d :: e :: f :: g :: p, _ => exact ⟨a, b, c, d, e, f, g, p, rfl⟩
  have hsum := checksum_iff (show ([a, b, c, d, e, f, g] : Octets).length = 7 from rfl) p
  rw [List.cons_append, List.cons_append, List.cons_append, List.cons_append, List.cons_append, List.cons_append,
    List.cons_append, List.nil_append] at hsum
  rw [checkArray, if_neg (Nat.not_lt.mpr hlong)] at hzero
  simp only at hzero
  -- neither the checksum nor the size is wrong
  split at hzero
  · cases hzero
  rename_i hxor
  split at hzero
  · cases hzero
  rename_i hsize
  rw [List.take_length, mismatches_eq_zero_iff (Nat.le_of_lt_succ (UInt8.toNat_lt _))
    (Nat.le_of_lt_succ (UInt8.toNat_lt _)) (Nat.le_of_lt_succ (UInt8.toNat_lt _))] at hzero
  have hx := hsum.mp (not_not.mp hxor)
  have hfour := sizeOctets_of_readSize hlt (not_not.mp hsize)
  have hcheck : xorSum [a, b, c, d, e, f] ^^^ 0xFF = g := by
    rw [show [a, b, c, d, e, f, g] = [a, b, c, d, e, f] ++ [g] from rfl, xorSum_append, xorSum_cons g] at hx
    rw [← hx, ← UInt8.xor_assoc, UInt8.xor_self, UInt8.zero_xor]
    exact UInt8.xor_zero
  have hhead : header (a :: b :: c :: d :: e :: f :: g :: p).length e.toNat f.toNat = [a, b, c, d, e, f, g] := by
    rw [header, hfour, UInt8.ofNat_toNat, UInt8.ofNat_toNat]
    show [a, b, c, d, e, f] ++ [xorSum [a, b, c, d, e, f] ^^^ 0xFF] = _
    rw [hcheck]
    rfl
  show _ = header _ e.toNat f.toNat ++ pattern e.toNat f.toNat _ e.toNat
  rw [hhead]
  exact congrArg (fun q => a :: b :: c :: d :: e :: f :: g :: q) hzero

/-- The range that `makeArray` writes into a header. -/
theorem makeArray_range {size : ℕ} (h : 7 ≤ size) (start last : ℤ) :
    (makeArray size start last).getD 4 0 ≤ (makeArray size start last).getD 5 0 := by
  have hrange : (if start < 0 ∨ start > 255 ∨ start > last then 0 else start.toNat) ≤
      if last < 0 ∨ last > 255 then 255 else last.toNat := by
    split
    · exact Nat.zero_le _
    · split <;> omega
  have hl : (if last < 0 ∨ last > 255 then 255 else last.toNat) ≤ 255 := by split <;> omega
  rw [makeArray, if_neg (Nat.not_lt.mpr h), UInt8.le_iff_toNat_le, (getD_header (Nat.le_trans hrange hl) hl _ _).1,
    (getD_header (Nat.le_trans hrange hl) hl _ _).2]
  exact hrange

/-- A range as `makeArray` writes it is the range of its arguments. -/
theorem makeArray_of_range {size f l : ℕ} (h : 7 ≤ size) (hfl : f ≤ l) (hl : l ≤ 255) :
    makeArray size f l = header size f l ++ pattern f l (size - 7) f := by
  have hf : ¬((f : ℤ) < 0 ∨ (f : ℤ) > 255 ∨ (f : ℤ) > l) := by omega
  have hl' : ¬((l : ℤ) < 0 ∨ (l : ℤ) > 255) := by omega
  rw [makeArray, if_neg hf, if_neg hl', if_neg (Nat.not_lt.mpr h), Int.toNat_natCast, Int.toNat_natCast]

/-- A header may carry a range that `makeArray` never writes. -/
theorem checkArray_accepts_more : ¬ ∀ n < 2 ^ 31, ∀ got : Octets, got.length = n → checkArray got n = 0 →
    ∃ start last : ℤ, makeArray n start last = got := by
  intro h
  obtain ⟨start, last, heq⟩ := h 8 (by decide) [8, 0, 0, 0, 5, 3, 0xF1, 5] rfl (by decide)
  have hrange := makeArray_range (show 7 ≤ 8 by decide) start last
  rw [heq] at hrange
  exact absurd hrange (by decide)

/-- Of the accepted messages, those are from `makeArray` whose header carries a range that it writes. -/
theorem makeArray_of_checkArray {got : Octets} (h : got.length < 2 ^ 31) (hzero : checkArray got got.length = 0) :
    (∃ start last : ℤ, makeArray got.length start last = got) ↔ got.length < 7 ∨ got.getD 4 0 ≤ got.getD 5 0 := by
  rcases Nat.lt_or_ge got.length 7 with hshort | hlong
  · refine iff_of_true ⟨0, 0, ?_⟩ (.inl hshort)
    rw [makeArray_short hshort, ← (checkArray_short hshort).mp hzero]
  · constructor
    · rintro ⟨start, last, heq⟩
      exact .inr (heq ▸ makeArray_range hlong start last)
    · rintro (hshort | hle)
      · exact absurd hshort (Nat.not_lt.mpr hlong)
      · refine ⟨(got.getD 4 0).toNat, (got.getD 5 0).toNat, ?_⟩
        rw [makeArray_of_range hlong (UInt8.le_iff_toNat_le.mp hle) (Nat.le_of_lt_succ (UInt8.toNat_lt _))]
        exact (eq_of_checkArray hlong (by omega) hzero).symm

theorem makeArray_of_checkArray_nine : (∃ start last : ℤ, makeArray 9 start last = makeArray 9 7 7) ↔
    9 < 7 ∨ (makeArray 9 7 7).getD 4 0 ≤ (makeArray 9 7 7).getD 5 0 :=
  @makeArray_of_checkArray (makeArray 9 7 7) (by decide) (by decide)

end Ptts
end Tipcutils
