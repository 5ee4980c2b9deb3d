import Mathlib.Data.Int.Notation
import Mathlib.Data.List.GetD
import Tipcutils.Lib.Checksum

/-!
# `Ptts.Vector` — the test messages of the PTTS

`makeArray` fills a message with a header (its size, the range of its data and a checksum) and with data that runs
through this range again and again; a message with no room for the header is filled with 0, 1, 2, .... `checkArray`
counts the errors of a message. It finds none in what `makeArray` yields (**`checkArray_makeArray`**), and one as soon
as an octet of it is altered (**`checkArray_altered`**).
-/

namespace Tipcutils
namespace Ptts

/-- The first `n` octets of `curNum`, the lowest one first. -/
def sizeOctets : ℕ → ℕ → Octets
  | 0, _ => []
  | n + 1, curNum => .ofNat (curNum &&& 0xFF) :: sizeOctets n (curNum >>> 8)

/-- What follows `curNum` in the data. -/
def nextNum (start last curNum : ℕ) : ℕ := if curNum + 1 > last then start else curNum + 1

/-- `n` octets of the data, from `curNum` on. -/
def pattern (start last : ℕ) : ℕ → ℕ → Octets
  | 0, _ => []
  | n + 1, curNum => .ofNat curNum :: pattern start last n (nextNum start last curNum)

/-- The header of a message, checksum included. -/
def header (size start last : ℕ) : Octets :=
  let descriptor := sizeOctets 4 size ++ [.ofNat start, .ofNat last]
  descriptor ++ [xorSum descriptor ^^^ 0xFF]

/-- `makeArray`; the argument `last` is called `end` there. -/
def makeArray (size : ℕ) (start last : ℤ) : Octets :=
  let first := if start < 0 ∨ start > 255 ∨ start > last then 0 else start.toNat
  let last := if last < 0 ∨ last > 255 then 255 else last.toNat
  if size < 7 then (List.range size).map .ofNat
  else header size first last ++ pattern first last (size - 7) first

/-- The size that a header carries. -/
def readSize (theArray : Octets) : UInt32 :=
  [3, 2, 1, 0].foldl (fun theSize i => theSize <<< 8 ||| (theArray.getD i 0).toUInt32) 0

/-- How many octets of the data are not as expected. -/
def mismatches (start last : ℕ) : ℕ → Octets → ℕ
  | _, [] => 0
  | curNum, b :: bs => (if curNum ≠ b.toNat then 1 else 0) + mismatches start last (nextNum start last curNum) bs

/-- `checkArray`. -/
def checkArray (theArray : Octets) (arraySize : ℕ) : ℕ :=
  if arraySize < 7 then (List.range arraySize).countP fun i => (theArray.getD i 0).toNat ≠ i
  else
    let errCheck := xorSum (theArray.take 6) ^^^ 0xFF
    if (errCheck ^^^ theArray.getD 6 0) &&& 0xFF ≠ 0 then 1
    else if readSize theArray ≠ .ofNat arraySize then 1
    else
      let start := (theArray.getD 4 0).toNat
      mismatches start (theArray.getD 5 0).toNat start ((theArray.take arraySize).drop 7)

/-! ## The data -/

variable {start last : ℕ}

theorem nextNum_le {curNum : ℕ} (hs : start ≤ 255) (hl : last ≤ 255) : nextNum start last curNum ≤ 255 := by
  unfold nextNum
  split <;> omega

@[simp] theorem length_pattern (n curNum : ℕ) : (pattern start last n curNum).length = n := by
  induction n generalizing curNum with
  | zero => rfl
  | succ n ih => rw [pattern, List.length_cons, ih]

/-- The data is right if and only if it is the pattern. -/
theorem mismatches_eq_zero_iff {curNum : ℕ} (hs : start ≤ 255) (hl : last ≤ 255) (hc : curNum ≤ 255) (bs : Octets) :
    mismatches start last curNum bs = 0 ↔ bs = pattern start last bs.length curNum := by
  induction bs generalizing curNum with
  | nil => exact ⟨fun _ => rfl, fun _ => rfl⟩
  | cons b bs ih =>
    have hb : curNum = b.toNat ↔ b = .ofNat curNum := by
      rw [← UInt8.toNat_inj, UInt8.toNat_ofNat_of_lt' (show curNum < UInt8.size by simp [UInt8.size]; omega)]
      exact eq_comm
    rw [mismatches, List.length_cons, pattern, List.cons.injEq, ← ih (nextNum_le hs hl), ← hb, Nat.add_eq_zero_iff]
    simp

/-! ## The header -/

theorem toNat_shiftIn (x : UInt32) (b : UInt8) (h : x.toNat < 2 ^ 24) :
    (x <<< 8 ||| b.toUInt32).toNat = x.toNat * 256 + b.toNat := by
  have hb : b.toNat < 2 ^ 8 := b.toNat_lt
  have hshift : (x <<< 8).toNat = x.toNat <<< 8 := by
    rw [UInt32.toNat_shiftLeft]
    show x.toNat <<< 8 % 2 ^ 32 = _
    rw [Nat.mod_eq_of_lt]
    rw [Nat.shiftLeft_eq]
    omega
  -- the low octet is free, so `|` adds
  rw [UInt32.toNat_or, hshift, UInt8.toNat_toUInt32, ← Nat.shiftLeft_add_eq_or_of_lt hb, Nat.shiftLeft_eq]

theorem toNat_readSize (a b c d : UInt8) (rest : Octets) :
    (readSize (a :: b :: c :: d :: rest)).toNat = ((d.toNat * 256 + c.toNat) * 256 + b.toNat) * 256 + a.toNat := by
  have ha := a.toNat_lt
  have hb := b.toNat_lt
  have hc := c.toNat_lt
  have hd := d.toNat_lt
  have h1 : ((0 : UInt32) <<< 8 ||| d.toUInt32).toNat = d.toNat := by
    rw [toNat_shiftIn 0 d (by decide)]
    exact Nat.zero_add _
  have h2 := toNat_shiftIn _ c (by rw [h1]; omega)
  rw [h1] at h2
  have h3 := toNat_shiftIn _ b (by rw [h2]; omega)
  rw [h2] at h3
  have h4 := toNat_shiftIn _ a (by rw [h3]; omega)
  rw [h3] at h4
  exact h4

/-- The size is read back. -/
theorem readSize_header {size : ℕ} (h : size < 2 ^ 32) (rest : Octets) :
    readSize (header size start last ++ rest) = .ofNat size := by
  have hoctet : ∀ n : ℕ, (UInt8.ofNat (n &&& 0xFF)).toNat = n % 256 := by
    intro n
    rw [UInt8.toNat_ofNat', Nat.and_two_pow_sub_one_eq_mod n 8, Nat.mod_mod]
  have hread : (readSize (header size start last ++ rest)).toNat =
      (((UInt8.ofNat (size >>> 8 >>> 8 >>> 8 &&& 0xFF)).toNat * 256 + (UInt8.ofNat (size >>> 8 >>> 8 &&& 0xFF)).toNat) *
        256 + (UInt8.ofNat (size >>> 8 &&& 0xFF)).toNat) * 256 + (UInt8.ofNat (size &&& 0xFF)).toNat :=
    toNat_readSize _ _ _ _ _
  simp only [hoctet, Nat.shiftRight_eq_div_pow] at hread
  apply UInt32.toNat_inj.mp
  rw [hread, UInt32.toNat_ofNat_of_lt' h]
  omega

@[simp] theorem length_header (size : ℕ) : (header size start last).length = 7 := rfl

theorem xorSum_header (size start last : ℕ) : xorSum (header size start last) = 0xFF := by
  unfold header
  rw [xorSum_append, xorSum_cons, ← UInt8.xor_assoc, ← UInt8.xor_assoc, UInt8.xor_self, UInt8.zero_xor]
  rfl

/-- The test of the checksum. -/
theorem checksum_iff {h : Octets} (hlen : h.length = 7) (rest : Octets) :
    (xorSum ((h ++ rest).take 6) ^^^ 0xFF ^^^ (h ++ rest).getD 6 0) &&& 0xFF = 0 ↔ xorSum h = 0xFF := by
  have hne : h ≠ [] := by
    rintro rfl
    nomatch hlen
  -- the seventh octet is the checksum of the six before it
  obtain ⟨d, c, rfl⟩ : ∃ d c, h = d ++ [c] := ⟨h.dropLast, _, (List.dropLast_concat_getLast hne).symm⟩
  have hd : d.length = 6 := by simpa using hlen
  have htake : (d ++ [c] ++ rest).take 6 = d := by
    rw [List.append_assoc]
    exact List.take_left' hd
  have hget : (d ++ [c] ++ rest).getD 6 0 = c := by
    rw [List.getD_eq_getElem?_getD, List.append_assoc, List.getElem?_append_right (by omega), hd]
    rfl
  have hmask : ∀ x : UInt8, x &&& 0xFF = x := fun x => UInt8.and_neg_one
  rw [htake, hget, hmask, UInt8.xor_eq_zero_iff, xorSum_append, xorSum_cons, ← UInt8.xor_right_inj (xorSum d),
    ← UInt8.xor_assoc, UInt8.xor_self, UInt8.zero_xor]
  show 0xFF = xorSum d ^^^ c ↔ xorSum d ^^^ (c ^^^ 0) = 0xFF
  rw [UInt8.xor_zero]
  exact eq_comm

/-! ## The check -/

theorem checkArray_short {theArray : Octets} (h : theArray.length < 7) :
    checkArray theArray theArray.length = 0 ↔ theArray = (List.range theArray.length).map .ofNat := by
  rw [checkArray, if_pos h, List.countP_eq_zero]
  constructor
  · intro hall
    apply List.ext_getElem
    · simp
    · intro i hi _
      have hi' := hall i (List.mem_range.mpr hi)
      simp only [List.getD_eq_getElem _ _ hi, ne_eq, decide_not, Bool.not_eq_true', decide_eq_false_iff_not,
        Decidable.not_not] at hi'
      apply UInt8.toNat_inj.mp
      rw [hi', List.getElem_map, List.getElem_range, UInt8.toNat_ofNat_of_lt' (by simp [UInt8.size]; omega)]
  · intro heq i hi
    have hlt := List.mem_range.mp hi
    have hget : theArray.getD i 0 = .ofNat i := by
      rw [heq]
      simp [List.getD_eq_getElem?_getD, hlt]
    rw [hget, UInt8.toNat_ofNat_of_lt' (by simp [UInt8.size]; omega)]
    simp

theorem checkArray_header {h p : Octets} {size : ℕ} (hh : h.length = 7) (hp : p.length + 7 = size)
    (hx : xorSum h = 0xFF) (hr : readSize (h ++ p) = .ofNat size) :
    checkArray (h ++ p) size =
      mismatches ((h ++ p).getD 4 0).toNat ((h ++ p).getD 5 0).toNat ((h ++ p).getD 4 0).toNat p := by
  have hlong : ¬ size < 7 := by omega
  have hdata : ((h ++ p).take size).drop 7 = p := by
    rw [List.take_of_length_le (by rw [List.length_append]; omega), List.drop_left' hh]
  rw [checkArray, if_neg hlong]
  simp only
  rw [if_neg (not_not_intro ((checksum_iff hh p).mpr hx)), if_neg (not_not_intro hr), hdata]

/-- What lies behind the message does not matter. -/
theorem checkArray_append (got rest : Octets) : checkArray (got ++ rest) got.length = checkArray got got.length := by
  have hget : ∀ i < got.length, (got ++ rest).getD i 0 = got.getD i 0 := fun i hi => List.getD_append _ _ _ _ hi
  by_cases hshort : got.length < 7
  · rw [checkArray, checkArray, if_pos hshort, if_pos hshort]
    apply List.countP_congr
    intro i hi
    rw [hget i (List.mem_range.mp hi)]
  · have hread : readSize (got ++ rest) = readSize got := by
      simp only [readSize, List.foldl_cons, List.foldl_nil]
      rw [hget 0 (by omega), hget 1 (by omega), hget 2 (by omega), hget 3 (by omega)]
    rw [checkArray, checkArray, if_neg hshort, if_neg hshort, List.take_append_of_le_length (by omega),
      hget 6 (by omega), hget 4 (by omega), hget 5 (by omega), hread, List.take_left, List.take_length]

/-- With room for a header, the arguments or their defaults make the message. -/
theorem makeArray_long {size : ℕ} (h : 7 ≤ size) (start last : ℤ) :
    ∃ f l : ℕ, f ≤ 255 ∧ l ≤ 255 ∧ makeArray size start last = header size f l ++ pattern f l (size - 7) f := by
  refine ⟨if start < 0 ∨ start > 255 ∨ start > last then 0 else start.toNat,
    if last < 0 ∨ last > 255 then 255 else last.toNat, ?_, ?_, ?_⟩
  · split <;> omega
  · split <;> omega
  · rw [makeArray, if_neg (Nat.not_lt.mpr h)]

theorem makeArray_short {size : ℕ} (h : size < 7) (start last : ℤ) :
    makeArray size start last = (List.range size).map .ofNat := if_pos h

@[simp] theorem length_makeArray (size : ℕ) (start last : ℤ) : (makeArray size start last).length = size := by
  by_cases h : size < 7
  · rw [makeArray_short h, List.length_map, List.length_range]
  · obtain ⟨f, l, -, -, heq⟩ := makeArray_long (Nat.not_lt.mp h) start last
    rw [heq, List.length_append, length_header, length_pattern]
    omega

/-- The range that the header carries. -/
theorem getD_header {f l : ℕ} (hf : f ≤ 255) (hl : l ≤ 255) (size : ℕ) (rest : Octets) :
    ((header size f l ++ rest).getD 4 0).toNat = f ∧ ((header size f l ++ rest).getD 5 0).toNat = l :=
  ⟨UInt8.toNat_ofNat_of_lt' (Nat.lt_succ_of_le hf), UInt8.toNat_ofNat_of_lt' (Nat.lt_succ_of_le hl)⟩

/-- There are no errors in a message that has not been altered. -/
theorem checkArray_makeArray {size : ℕ} (h : size < 2 ^ 32) (start last : ℤ) :
    checkArray (makeArray size start last) size = 0 := by
  by_cases hshort : size < 7
  · have hlt : (makeArray size start last).length < 7 := by
      rw [length_makeArray]
      exact hshort
    have hcheck := checkArray_short hlt
    rw [length_makeArray] at hcheck
    exact hcheck.mpr (makeArray_short hshort start last)
  · obtain ⟨f, l, hf, hl, heq⟩ := makeArray_long (Nat.not_lt.mp hshort) start last
    obtain ⟨h4, h5⟩ := getD_header hf hl size (pattern f l (size - 7) f)
    rw [heq, checkArray_header (length_header size) (by rw [length_pattern]; omega) (xorSum_header size f l)
      (readSize_header h _), h4, h5, mismatches_eq_zero_iff hf hl hf, length_pattern]

/-- An altered octet is an error, wherever it is. -/
theorem checkArray_altered {size : ℕ} {start last : ℤ} {got : Octets} (h : Altered (makeArray size start last) got) :
    checkArray got size ≠ 0 := by
  intro hzero
  have hlen : got.length = size := by rw [h.length_eq, length_makeArray]
  by_cases hshort : size < 7
  · rw [← hlen, checkArray_short (by omega), hlen, ← makeArray_short hshort start last] at hzero
    exact h.ne hzero
  · obtain ⟨f, l, hf, hl, heq⟩ := makeArray_long (Nat.not_lt.mp hshort) start last
    rw [heq] at h
    rcases h.of_append with ⟨h', hh, rfl⟩ | ⟨p', hp, rfl⟩
    · -- in the header: the checksum
      have hx : xorSum h' ≠ 0xFF := xorSum_header size f l ▸ hh.xorSum_ne
      have hh' : h'.length = 7 := hh.length_eq
      have hbad := mt (checksum_iff hh' (pattern f l (size - 7) f)).mp hx
      rw [checkArray, if_neg hshort] at hzero
      simp only [if_pos hbad] at hzero
      nomatch hzero
    · -- in the data: the pattern
      have hp' : p'.length = size - 7 := by rw [hp.length_eq, length_pattern]
      obtain ⟨h4, h5⟩ := getD_header hf hl size p'
      by_cases hr : readSize (header size f l ++ p') = .ofNat size
      · rw [checkArray_header (length_header size) (by omega) (xorSum_header size f l) hr, h4, h5,
          mismatches_eq_zero_iff hf hl hf, hp'] at hzero
        exact hp.ne hzero
      · have hhead : (header size f l).length = 7 := length_header size
        have hsum := (checksum_iff hhead p').mpr (xorSum_header size f l)
        rw [checkArray, if_neg hshort] at hzero
        simp only [if_neg (not_not_intro hsum), if_pos hr] at hzero
        nomatch hzero

/-- The check tells a message that is as sent from one with an altered octet. -/
theorem checkArray_eq_zero_iff {size : ℕ} {start last : ℤ} {got : Octets} (h : size < 2 ^ 32)
    (hgot : got = makeArray size start last ∨ Altered (makeArray size start last) got) :
    checkArray got size = 0 ↔ got = makeArray size start last := by
  rcases hgot with rfl | halt
  · exact ⟨fun _ => rfl, fun _ => checkArray_makeArray h start last⟩
  · exact ⟨fun hzero => absurd hzero (checkArray_altered halt), fun heq => absurd heq halt.ne⟩

end Ptts
end Tipcutils
