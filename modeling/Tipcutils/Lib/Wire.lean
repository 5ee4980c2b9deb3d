import Mathlib.Algebra.Group.Nat.Defs

/-!
# `Lib.Wire` — words in network byte order, and static buffers

`be32` and `ofBe32` are the four octets of a 32-bit word in network byte order and back (**`ofBe32_be32`**). A word that
is converted and then stored has these octets on any host (**`storeU32_htonl`**, **`ntohl_loadU32`**).
`overlay size buf payload` is what a static buffer holds after a message has been received into it: the message, and
behind it what was there before. `writeAt` and `readAt` yield `none` outside of the buffer.

Nothing here mentions a concrete program.
-/

namespace Tipcutils

abbrev Octets := List UInt8

/-- The octets of a word in network byte order. -/
def be32 (x : UInt32) : Octets :=
  [.ofNat (x.toNat / 2 ^ 24), .ofNat (x.toNat / 2 ^ 16), .ofNat (x.toNat / 2 ^ 8), .ofNat x.toNat]

/-- The word in the first four octets; a missing octet counts as zero. -/
def ofBe32 (b : Octets) : UInt32 :=
  .ofNat (256 * (256 * (256 * (b.getD 0 0).toNat + (b.getD 1 0).toNat) + (b.getD 2 0).toNat) + (b.getD 3 0).toNat)

@[simp] theorem length_be32 (x : UInt32) : (be32 x).length = 4 := rfl

theorem ofBe32_be32 (x : UInt32) (rest : Octets) : ofBe32 (be32 x ++ rest) = x := by
  apply UInt32.toNat_inj.mp
  have hx := x.toNat_lt
  simp [ofBe32, be32]
  omega

/-- A buffer of `size` octets after the receipt of a message that may be shorter, or longer. -/
def overlay (size : ℕ) (buf payload : Octets) : Octets := payload.take size ++ buf.drop payload.length

variable {size : ℕ} {buf payload : Octets}

/-- A message that fits leaves the end of the buffer. -/
theorem overlay_of_le (h : payload.length ≤ size) :
    overlay size buf payload = payload ++ buf.drop payload.length := by
  rw [overlay, List.take_of_length_le h]

/-- What a message covers does not depend on the buffer. -/
theorem take_overlay {k : ℕ} (hp : k ≤ payload.length) (hs : k ≤ size) :
    (overlay size buf payload).take k = payload.take k := by
  rw [overlay, List.take_append_of_le_length (by rw [List.length_take]; omega), List.take_take, Nat.min_eq_left hs]

/-! ## Accesses to a buffer -/

/-- The buffer after `bs` is written at `i`; `none` where this does not fit. -/
def writeAt (buf : Octets) (i : ℕ) (bs : Octets) : Option Octets :=
  if i + bs.length ≤ buf.length then some (buf.take i ++ bs ++ buf.drop (i + bs.length)) else none

/-- The `n` octets at `i`; `none` where these are not in the buffer. -/
def readAt (buf : Octets) (i n : ℕ) : Option Octets :=
  if i + n ≤ buf.length then some ((buf.drop i).take n) else none

variable {i : ℕ} {bs : Octets}

theorem writeAt_isSome (h : i + bs.length ≤ buf.length) :
    ∃ buf', writeAt buf i bs = some buf' ∧ buf'.length = buf.length ∧
      buf'.take (i + bs.length) = buf.take i ++ bs := by
  refine ⟨_, if_pos h, ?_, ?_⟩
  · simp only [List.length_append, List.length_take, List.length_drop]
    omega
  · apply List.take_left'
    rw [List.length_append, List.length_take, Nat.min_eq_left (by omega)]

/-- One octet after the other. -/
theorem writeAt_cons (b : UInt8) (bs : Octets) :
    ((writeAt buf i [b]).bind fun buf => writeAt buf (i + 1) bs) = writeAt buf i (b :: bs) := by
  by_cases h : i + (b :: bs).length ≤ buf.length
  · have hlen : i + bs.length + 1 ≤ buf.length := by
      rw [List.length_cons] at h
      omega
    have hfirst : (buf.take i ++ [b]).length = i + 1 := by
      rw [List.length_append, List.length_take, Nat.min_eq_left (by omega)]
      rfl
    have hsecond : i + 1 + bs.length ≤ (buf.take i ++ [b] ++ buf.drop (i + 1)).length := by
      rw [List.length_append, hfirst, List.length_drop]
      omega
    have hdrop : (buf.take i ++ [b] ++ buf.drop (i + 1)).drop (i + 1 + bs.length) = buf.drop (i + (b :: bs).length) := by
      rw [← List.drop_drop, List.drop_left' hfirst, List.drop_drop, List.length_cons, Nat.add_assoc, Nat.add_comm 1]
    have hone : writeAt buf i [b] = some (buf.take i ++ [b] ++ buf.drop (i + 1)) := if_pos (Nat.le_trans (by simp) h)
    rw [hone, Option.bind_some, writeAt, if_pos hsecond, List.take_left' hfirst, hdrop, writeAt, if_pos h,
      List.append_assoc (buf.take i), List.singleton_append]
  · have hlen : ¬ i + bs.length + 1 ≤ buf.length := by
      rw [List.length_cons] at h
      omega
    rw [writeAt, writeAt, if_neg h]
    split
    next hfits =>
      rw [Option.bind_some, writeAt, if_neg]
      simp only [List.length_append, List.length_take, List.length_drop, List.length_cons, List.length_nil] at hfits ⊢
      omega
    · rfl

/-! ## Words in the byte order of a host -/

/-- The byte order of a host. -/
inductive Endian where
  | little
  | big
deriving DecidableEq

/-- The octets of a word as the host stores it. -/
def storeU32 (host : Endian) (x : UInt32) : Octets :=
  match host with
  | .little => (be32 x).reverse
  | .big => be32 x

/-- The word that the host reads from the first four octets. -/
def loadU32 (host : Endian) (b : Octets) : UInt32 :=
  match host with
  | .little => ofBe32 [b.getD 3 0, b.getD 2 0, b.getD 1 0, b.getD 0 0]
  | .big => ofBe32 b

/-- What the host stores, it reads back. -/
theorem loadU32_storeU32 (host : Endian) (x : UInt32) (rest : Octets) : loadU32 host (storeU32 host x ++ rest) = x := by
  cases host with
  | big => exact ofBe32_be32 x rest
  | little => exact ofBe32_be32 x []

/-- A word with its octets in the opposite order. -/
def swapU32 (x : UInt32) : UInt32 := ofBe32 (be32 x).reverse

/-- `htonl`. -/
def htonl (host : Endian) (x : UInt32) : UInt32 :=
  match host with
  | .little => swapU32 x
  | .big => x

/-- `ntohl`. -/
def ntohl (host : Endian) (x : UInt32) : UInt32 := htonl host x

theorem be32_ofBe32 (a b c d : UInt8) : be32 (ofBe32 [a, b, c, d]) = [a, b, c, d] := by
  have ha := a.toNat_lt
  have hb := b.toNat_lt
  have hc := c.toNat_lt
  have hd := d.toNat_lt
  simp only [be32, ofBe32, List.cons.injEq, and_true, ← UInt8.toNat_inj]
  simp
  omega

/-- Four octets are those of a word. -/
theorem exists_be32 {b : Octets} (h : 4 ≤ b.length) : ∃ x, b = be32 x ++ b.drop 4 := by
  match b, h with
  | a₀ :: a₁ :: a₂ :: a₃ :: rest, _ => exact ⟨ofBe32 [a₀, a₁, a₂, a₃], by rw [be32_ofBe32]; rfl⟩

theorem storeU32_htonl (host : Endian) (x : UInt32) : storeU32 host (htonl host x) = be32 x := by
  cases host with
  | big => rfl
  | little =>
    show (be32 (ofBe32 (be32 x).reverse)).reverse = be32 x
    rw [show (be32 x).reverse = [.ofNat x.toNat, .ofNat (x.toNat / 2 ^ 8), .ofNat (x.toNat / 2 ^ 16),
      .ofNat (x.toNat / 2 ^ 24)] from rfl, be32_ofBe32]
    rfl

theorem ntohl_loadU32 (host : Endian) (b : Octets) : ntohl host (loadU32 host b) = ofBe32 b := by
  cases host with
  | big => rfl
  | little =>
    show ofBe32 (be32 (ofBe32 [b.getD 3 0, b.getD 2 0, b.getD 1 0, b.getD 0 0])).reverse = ofBe32 b
    rw [be32_ofBe32]
    rfl

theorem be32_inj {x y : UInt32} (h : be32 x = be32 y) : x = y := by
  have hx := ofBe32_be32 x []
  have hy := ofBe32_be32 y []
  rw [h] at hx
  exact hx.symm.trans hy

/-- What a host reads, it stores. -/
theorem storeU32_loadU32 (host : Endian) (a b c d : UInt8) :
    storeU32 host (loadU32 host [a, b, c, d]) = [a, b, c, d] := by
  cases host with
  | big => exact be32_ofBe32 a b c d
  | little => exact congrArg List.reverse (be32_ofBe32 d c b a)

/-- A host of the other byte order may read another word than was stored, but different words for different ones. -/
theorem loadU32_storeU32_inj {host host' : Endian} {x y : UInt32}
    (h : loadU32 host' (storeU32 host x) = loadU32 host' (storeU32 host y)) : x = y := by
  have hback : ∀ x, storeU32 host' (loadU32 host' (storeU32 host x)) = storeU32 host x := by
    intro x
    cases host <;> exact storeU32_loadU32 host' _ _ _ _
  have hstore : storeU32 host x = storeU32 host y := by rw [← hback x, h, hback y]
  cases host with
  | big => exact be32_inj hstore
  | little => exact be32_inj (List.reverse_inj.mp hstore)

end Tipcutils
