import Mathlib.Logic.Function.Iterate
import Tipcutils.Lib.While
import Tipcutils.Ptts.Transfer

/-!
# `Stream.Client` — packing records, and sending them in pieces

`client_test_stream` of the PTTS and the client of `stream_demo` pack records of different lengths into a buffer and send
it in messages that break the records. They differ in how a length is stored, octet by octet or as a word converted by
`htonl`, and in how a message is sent. For any buffer and any message size, all accesses are inside the buffer
(**`packRecords_spec`**, **`sendMessages_spec`**).

Not modelled: the sum of two `int`s does not overflow.
-/

namespace Tipcutils
namespace Stream

/-- A record: its length and its data. -/
def record (r : UInt8) : Octets := be32 r.toUInt32 ++ List.replicate r.toNat r

/-- A number of records. -/
def records (rs : List UInt8) : Octets := rs.flatMap record

/-! ## The code -/

/-- How the PTTS stores a length. -/
def Ptts.storeSize (buf : Octets) (totSize : ℕ) (size : UInt32) : Option Octets := do
  let buf ← writeAt buf totSize [(size >>> 24).toUInt8]
  let buf ← writeAt buf (totSize + 1) [((size >>> 16) &&& 0xFF).toUInt8]
  let buf ← writeAt buf (totSize + 2) [((size >>> 8) &&& 0xFF).toUInt8]
  writeAt buf (totSize + 3) [(size &&& 0xFF).toUInt8]

/-- How the demo stores it, on a host of either kind. -/
def Demo.storeSize (host : Endian) (buf : Octets) (totSize : ℕ) (size : UInt32) : Option Octets :=
  writeAt buf totSize (storeU32 host (htonl host size))

/-- The length of the next record: 1 to 255. -/
def nextRecSize (recSize : ℕ) : ℕ :=
  let recSize := (recSize + 147) &&& 0xFF
  if recSize = 0 then 1 else recSize

structure Packer where
  buf : Octets
  totSize : ℕ
  recSize : ℕ
  recNum : ℕ
deriving DecidableEq

/-- One round of the loop that packs the records. -/
def packRound (storeSize : Octets → ℕ → UInt32 → Option Octets) (p : Packer) : Option Packer := do
  let buf ← storeSize p.buf p.totSize (.ofNat p.recSize)
  let buf ← writeAt buf (p.totSize + 4) (List.replicate p.recSize (.ofNat p.recSize))
  some ⟨buf, p.totSize + (4 + p.recSize), nextRecSize p.recSize, p.recNum + 1⟩

/-- The loop; the length of `buf` is `BUF_SIZE`. -/
def packRecords (storeSize : Octets → ℕ → UInt32 → Option Octets) (buf : Octets) : Option Packer :=
  whileLoop (fun p => decide (p.totSize + 4 + p.recSize ≤ buf.length)) (packRound storeSize) (buf.length + 1)
    ⟨buf, 0, 1, 0⟩

/-- How the PTTS sends a message, over a connection that takes all of it. -/
def Ptts.sendMsg (msg : Octets) : Option Octets :=
  match Ptts.Transfer.sendSocketBuffTIPC (fun _ => some msg.length) msg 1 msg.length 0 with
  | ⟨msgs, none⟩ => some msgs.flatten
  | ⟨_, some _⟩ => none

/-- How the demo sends it. -/
def Demo.sendMsg (msg : Octets) : Option Octets := some msg

structure Chunker where
  sentSize : ℕ
  /-- what has been sent -/
  msgs : List Octets
deriving DecidableEq

/-- One round of the loop that sends them. -/
def sendRound (sendMsg : Octets → Option Octets) (msgSize : ℕ) (p : Packer) (c : Chunker) : Option Chunker := do
  let size := if c.sentSize + msgSize ≤ p.totSize then msgSize else p.totSize - c.sentSize
  let msg ← readAt p.buf c.sentSize size
  let sent ← sendMsg msg
  some ⟨c.sentSize + size, c.msgs ++ [sent]⟩

/-- The loop; `msgSize` is `MSG_SIZE`. -/
def sendMessages (sendMsg : Octets → Option Octets) (msgSize : ℕ) (p : Packer) : Option Chunker :=
  whileLoop (fun c => decide (c.sentSize < p.totSize)) (sendRound sendMsg msgSize p) (p.totSize + 1) ⟨0, []⟩

/-! ## The two programs -/

/-- The program, and for the demo the byte order of its host. -/
inductive Program where
  | ptts
  | demo (host : Endian)
deriving DecidableEq

def Program.storeSize : Program → Octets → ℕ → UInt32 → Option Octets
  | .ptts => Ptts.storeSize
  | .demo host => Demo.storeSize host

def Program.sendMsg : Program → Octets → Option Octets
  | .ptts => Ptts.sendMsg
  | .demo _ => Demo.sendMsg

/-- The octets that the PTTS stores are those of the word. -/
theorem octets_shift (x : UInt32) :
    [(x >>> 24).toUInt8, ((x >>> 16) &&& 0xFF).toUInt8, ((x >>> 8) &&& 0xFF).toUInt8, (x &&& 0xFF).toUInt8] = be32 x := by
  have hmask : ∀ n : ℕ, n &&& 0xFF = n % 256 := fun n => Nat.and_two_pow_sub_one_eq_mod n 8
  simp only [be32, List.cons.injEq, and_true, ← UInt8.toNat_inj, UInt32.toNat_toUInt8, UInt32.toNat_and,
    UInt32.toNat_shiftRight, UInt8.toNat_ofNat', UInt32.reduceToNat, hmask, Nat.shiftRight_eq_div_pow]
  exact ⟨trivial, Nat.mod_mod _ _, Nat.mod_mod _ _, Nat.mod_mod _ _⟩

/-- Both store the length in network byte order. -/
theorem storeSize_eq (prog : Program) (buf : Octets) (totSize : ℕ) (size : UInt32) :
    prog.storeSize buf totSize size = writeAt buf totSize (be32 size) := by
  cases prog with
  | demo host =>
    show writeAt buf totSize (storeU32 host (htonl host size)) = _
    rw [storeU32_htonl]
  | ptts =>
    rw [← octets_shift, ← writeAt_cons]
    simp only [← writeAt_cons _ [_, _], ← writeAt_cons _ [_]]
    rfl

/-- Both send the message. -/
theorem sendMsg_eq (prog : Program) {msg : Octets} (h : msg ≠ []) : prog.sendMsg msg = some msg := by
  cases prog with
  | demo host => rfl
  | ptts =>
    -- `sendSocketBuffTIPC` sends nothing at all when it is asked for nothing
    have hsome : ¬ ((1 : ℤ) = 0 ∨ msg.length = 0) := by
      rintro (h1 | h0)
      · nomatch h1
      · exact h (List.length_eq_zero_iff.mp h0)
    have hsent : Ptts.Transfer.sendSocketBuffTIPC (fun _ => some msg.length) msg 1 msg.length 0 = ⟨[msg], none⟩ := by
      rw [Ptts.Transfer.sendSocketBuffTIPC, if_neg hsome, List.take_length]
      exact Ptts.Transfer.sendLoop_reliable msg 1 0 []
    show (match Ptts.Transfer.sendSocketBuffTIPC (fun _ => some msg.length) msg 1 msg.length 0 with
      | ⟨msgs, none⟩ => some msgs.flatten
      | ⟨_, some _⟩ => none) = _
    rw [hsent]
    simp

/-! ## Packing -/

theorem nextRecSize_bounds (recSize : ℕ) : 1 ≤ nextRecSize recSize ∧ nextRecSize recSize ≤ 255 := by
  have hmask : (recSize + 147) &&& 0xFF ≤ 255 := Nat.and_le_right
  unfold nextRecSize
  simp only
  split <;> omega

/-- The length of record `i`. -/
def recSizeAt (i : ℕ) : ℕ := nextRecSize^[i] 1

theorem recSizeAt_bounds (i : ℕ) : 1 ≤ recSizeAt i ∧ recSizeAt i ≤ 255 := by
  cases i with
  | zero => decide
  | succ i =>
    rw [recSizeAt, Function.iterate_succ_apply']
    exact nextRecSize_bounds _

/-- The lengths of the first `n` records. -/
def recSizes (n : ℕ) : List UInt8 := (List.range n).map fun i => .ofNat (recSizeAt i)

theorem one_le_of_mem_recSizes {n : ℕ} {r : UInt8} (h : r ∈ recSizes n) : 1 ≤ r.toNat := by
  obtain ⟨i, -, rfl⟩ := List.mem_map.mp h
  obtain ⟨hpos, hle⟩ := recSizeAt_bounds i
  rw [UInt8.toNat_ofNat_of_lt' (Nat.lt_succ_of_le hle)]
  exact hpos

theorem records_recSizes_succ (n : ℕ) :
    records (recSizes (n + 1)) = records (recSizes n) ++ record (.ofNat (recSizeAt n)) := by
  simp [records, recSizes, List.range_succ]

/-- What the loop has packed so far. -/
structure Packed (bufSize : ℕ) (p : Packer) : Prop where
  length : p.buf.length = bufSize
  fits : p.totSize ≤ bufSize
  recSize : p.recSize = recSizeAt p.recNum
  packed : p.buf.take p.totSize = records (recSizes p.recNum)

variable (prog : Program) {bufSize : ℕ} {p : Packer}

theorem packRound_spec (h : Packed bufSize p) (hfits : p.totSize + 4 + p.recSize ≤ bufSize) :
    ∃ p', packRound prog.storeSize p = some p' ∧ Packed bufSize p' ∧ p.totSize < p'.totSize := by
  obtain ⟨hpos, hle⟩ := recSizeAt_bounds p.recNum
  have hsize := h.recSize
  have hfits₁ : p.totSize + (be32 (.ofNat p.recSize)).length ≤ p.buf.length := by
    rw [length_be32, h.length]
    omega
  obtain ⟨buf₁, hw₁, hlen₁, htake₁⟩ := writeAt_isSome hfits₁
  have hfits₂ : p.totSize + 4 + (List.replicate p.recSize (UInt8.ofNat p.recSize)).length ≤ buf₁.length := by
    rw [List.length_replicate, hlen₁, h.length]
    exact hfits
  obtain ⟨buf₂, hw₂, hlen₂, htake₂⟩ := writeAt_isSome hfits₂
  rw [length_be32] at htake₁
  rw [List.length_replicate, htake₁, h.packed] at htake₂
  refine ⟨⟨buf₂, p.totSize + (4 + p.recSize), nextRecSize p.recSize, p.recNum + 1⟩, ?_, ⟨?_, ?_, ?_, ?_⟩, ?_⟩
  · rw [packRound, storeSize_eq, hw₁]
    show (writeAt buf₁ (p.totSize + 4) (List.replicate p.recSize (.ofNat p.recSize))).bind _ = _
    rw [hw₂]
    rfl
  · show buf₂.length = bufSize
    rw [hlen₂, hlen₁, h.length]
  · show p.totSize + (4 + p.recSize) ≤ bufSize
    omega
  · show nextRecSize p.recSize = recSizeAt (p.recNum + 1)
    rw [recSizeAt, Function.iterate_succ_apply', hsize]
    rfl
  · -- both writes are behind what has been packed
    show buf₂.take (p.totSize + (4 + p.recSize)) = records (recSizes (p.recNum + 1))
    have hword : (UInt8.ofNat p.recSize).toUInt32 = .ofNat p.recSize := by
      apply UInt32.toNat_inj.mp
      rw [UInt8.toNat_toUInt32, UInt8.toNat_ofNat_of_lt' (show p.recSize < 256 by omega),
        UInt32.toNat_ofNat_of_lt' (show p.recSize < 2 ^ 32 by omega)]
    rw [← Nat.add_assoc, htake₂, records_recSizes_succ, ← hsize, record, hword,
      UInt8.toNat_ofNat_of_lt' (show p.recSize < 256 by omega), List.append_assoc]
  · show p.totSize < p.totSize + (4 + p.recSize)
    omega

/-- **Packing.** Whatever the capacity, the loop ends, all its accesses are inside the buffer, and this then starts with
    the records. -/
theorem packRecords_spec (buf : Octets) :
    ∃ p, packRecords prog.storeSize buf = some p ∧ Packed buf.length p ∧ buf.length < p.totSize + 4 + p.recSize := by
  have hstart : Packed buf.length ⟨buf, 0, 1, 0⟩ := ⟨rfl, Nat.zero_le _, rfl, rfl⟩
  have hstep : ∀ p : Packer, Packed buf.length p → decide (p.totSize + 4 + p.recSize ≤ buf.length) = true →
      ∃ p', packRound prog.storeSize p = some p' ∧ Packed buf.length p' ∧
        buf.length - p'.totSize < buf.length - p.totSize := by
    intro p hp hgo
    have hfits := of_decide_eq_true hgo
    obtain ⟨p', hround, hp', hlt⟩ := packRound_spec prog hp hfits
    exact ⟨p', hround, hp', by omega⟩
  obtain ⟨p, hrun, hp, hstop⟩ :=
    whileLoop_total (Packed buf.length) (fun p => buf.length - p.totSize) hstep hstart (Nat.lt_succ_self _)
  exact ⟨p, hrun, hp, Nat.lt_of_not_le (of_decide_eq_false hstop)⟩

/-! ## Sending -/

/-- What the loop has sent so far. -/
structure SentSoFar (p : Packer) (c : Chunker) : Prop where
  fits : c.sentSize ≤ p.totSize
  sent : c.msgs.flatten = p.buf.take c.sentSize

variable {msgSize : ℕ} {c : Chunker}

theorem sendRound_spec (hm : 1 ≤ msgSize) (hp : p.totSize ≤ p.buf.length) (h : SentSoFar p c)
    (hmore : c.sentSize < p.totSize) :
    ∃ c', sendRound prog.sendMsg msgSize p c = some c' ∧ SentSoFar p c' ∧ c.sentSize < c'.sentSize := by
  obtain ⟨size, hsize⟩ : ∃ size, (if c.sentSize + msgSize ≤ p.totSize then msgSize else p.totSize - c.sentSize) = size :=
    ⟨_, rfl⟩
  have hbounds : 1 ≤ size ∧ c.sentSize + size ≤ p.totSize := by
    rw [← hsize]
    split <;> omega
  have hread : readAt p.buf c.sentSize size = some ((p.buf.drop c.sentSize).take size) := if_pos (by omega)
  have hsome : (p.buf.drop c.sentSize).take size ≠ [] := by
    rw [← List.length_pos_iff, List.length_take, List.length_drop]
    omega
  refine ⟨⟨c.sentSize + size, c.msgs ++ [(p.buf.drop c.sentSize).take size]⟩, ?_, ⟨hbounds.2, ?_⟩, ?_⟩
  · unfold sendRound
    simp only [hsize, hread, Option.bind_eq_bind, Option.bind_some, sendMsg_eq prog hsome]
  · show (c.msgs ++ [(p.buf.drop c.sentSize).take size]).flatten = p.buf.take (c.sentSize + size)
    rw [List.flatten_append, h.sent, List.flatten_singleton, List.take_add]
  · exact Nat.lt_add_of_pos_right hbounds.1

/-- **Sending.** Whatever the message size, the loop ends, all its accesses are inside the buffer, and the messages are
    what has been packed. -/
theorem sendMessages_spec (hm : 1 ≤ msgSize) (hp : p.totSize ≤ p.buf.length) :
    ∃ c, sendMessages prog.sendMsg msgSize p = some c ∧ c.msgs.flatten = p.buf.take p.totSize := by
  have hstart : SentSoFar p ⟨0, []⟩ := ⟨Nat.zero_le _, rfl⟩
  have hstep : ∀ c : Chunker, SentSoFar p c → decide (c.sentSize < p.totSize) = true →
      ∃ c', sendRound prog.sendMsg msgSize p c = some c' ∧ SentSoFar p c' ∧
        p.totSize - c'.sentSize < p.totSize - c.sentSize := by
    intro c hc hgo
    have hmore := of_decide_eq_true hgo
    obtain ⟨c', hround, hc', hlt⟩ := sendRound_spec prog hm hp hc hmore
    exact ⟨c', hround, hc', by omega⟩
  obtain ⟨c, hrun, hc, hstop⟩ :=
    whileLoop_total (SentSoFar p) (fun c => p.totSize - c.sentSize) hstep hstart (Nat.lt_succ_self _)
  have hall : c.sentSize = p.totSize := Nat.le_antisymm hc.fits (Nat.le_of_not_lt (of_decide_eq_false hstop))
  exact ⟨c, hrun, hall ▸ hc.sent⟩

end Stream
end Tipcutils
