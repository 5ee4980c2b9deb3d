import Mathlib.Algebra.BigOperators.Group.List.Basic
import Mathlib.Algebra.GroupWithZero.Nat
import Tipcutils.Lib.While
import Tipcutils.Lib.Wire

/-!
# `Ptts.BigStream` — the reception of big streams

The server of the big stream test calls `do_receive` three times on one connection: for a stream in any pieces, for one
that `MSG_WAITALL` is to put together, and for the end of the connection. `do_receive` counts the pieces, and a result that
is not positive says that the connection has ended.

**`big_stream_exact`**: however the connection delivers its octets, the result is right, what is received is taken from
the connection, and the server accepts two streams and nothing else.

Not modelled: how the connection is set up, and the messages that synchronise the test, which are in `Ptts.Tests`.
-/

namespace Tipcutils
namespace Ptts
namespace BigStream

/-- `TS_BBUF_SIZE` and `TS_BBUF_DATA`. -/
def tsBbufSize : ℕ := 75000
def tsBbufData : UInt8 := 0x1A

/-- The calls of `err`; a subtest that fails says which one it is, and what `do_receive` has returned. -/
inductive BigErr where
  | recvFailed
  | recvCorruption
  | subTest (n : ℕ) (numRec : ℤ)
deriving DecidableEq

/-- The text that `err` prints. -/
def BigErr.text : BigErr → String
  | .recvFailed => "recv failed "
  | .recvCorruption => "recv corruption "
  | .subTest n numRec => s!"SubTest {n} returned {numRec}"

/-! ## `do_receive` -/

/-- How a call of `do_receive` ends. -/
inductive Outcome where
  | returned (numRec : ℤ)
  | failed (e : BigErr)
deriving DecidableEq

structure Receiving where
  /-- what is still to come on the connection -/
  stream : Octets
  inbuf : Octets
  bufSize : ℕ
  numRec : ℕ
  /-- a record of how much each call of `recv` has yielded -/
  chunks : List ℕ
  outcome : Option Outcome
deriving DecidableEq

/-- How much `recv` yields: with `MSG_WAITALL` all that is asked for, unless the connection ends before; without, at least
    one octet and at most as many as there are. -/
def chunkSize (waitall : Bool) (cut bufSize left : ℕ) : ℕ :=
  if waitall then min bufSize left else min (max 1 cut) (min bufSize left)

/-- One round of the loop; `recv i` is how the `i`-th call of `recv` cuts the stream, `none` is -1. -/
def receiveRound (waitall : Bool) (recv : ℕ → Option ℕ) (r : Receiving) : Receiving :=
  match recv r.numRec with
  | none => { r with outcome := some (.failed .recvFailed) }
  | some cut =>
    let chunk := r.stream.take (chunkSize waitall cut r.bufSize r.stream.length)
    if chunk.length = 0 then { r with outcome := some (.returned (-r.numRec)) }
    else
      let inbuf := overlay r.bufSize r.inbuf chunk
      if inbuf.getD 0 0 ≠ tsBbufData ∨ inbuf.getD (chunk.length - 1) 0 ≠ tsBbufData then
        { r with inbuf := inbuf, outcome := some (.failed .recvCorruption) }
      else
        { r with
          stream := r.stream.drop chunk.length
          inbuf := inbuf
          bufSize := r.bufSize - chunk.length
          numRec := r.numRec + 1
          chunks := r.chunks ++ [chunk.length] }

/-- The loop goes on. The first round is always made, as `buf_size` is positive then. -/
def Receiving.goesOn (r : Receiving) : Bool := r.outcome.isNone && 0 < r.bufSize

/-- The end of the loop. -/
def Receiving.finish (r : Receiving) : Receiving :=
  if r.outcome = none then { r with outcome := some (.returned r.numRec) } else r

/-- `do_receive`, for at most `fuel` rounds; `inbuf` is what the buffer holds before. -/
def doReceive (fuel : ℕ) (waitall : Bool) (recv : ℕ → Option ℕ) (inbuf stream : Octets) : Option Receiving :=
  (whileLoop Receiving.goesOn (fun r => some (receiveRound waitall recv r)) fuel ⟨stream, inbuf, tsBbufSize, 0, [], none⟩).map
    Receiving.finish

/-! ## `server_test_bigStream` -/

/-- The test behind a call of `do_receive`, and how it fails. -/
def Receiving.judge (r : Receiving) (n : ℕ) (good : ℤ → Bool) : Option BigErr :=
  match r.outcome with
  | some (.returned numRec) => if good numRec then none else some (.subTest n numRec)
  | some (.failed e) => some e
  | none => none

/-- `server_test_bigStream`: the failure, if there is one. The calls of `recv` and the buffers are those of the three calls
    of `do_receive`. -/
def serverTestBigStream (fuel : ℕ) (recv : ℕ → ℕ → Option ℕ) (inbuf : ℕ → Octets) (stream : Octets) :
    Option (Option BigErr) :=
  (doReceive fuel false (recv 1) (inbuf 1) stream).bind fun r =>
    match r.judge 1 fun numRec => 0 < numRec with
    | some e => some (some e)
    | none =>
      (doReceive fuel true (recv 2) (inbuf 2) r.stream).bind fun r =>
        match r.judge 2 fun numRec => numRec = 1 with
        | some e => some (some e)
        | none => (doReceive fuel true (recv 3) (inbuf 3) r.stream).map fun r => r.judge 3 fun numRec => numRec = 0

/-! ## What `do_receive` is to do -/

/-- What is left of a call of `do_receive`, on a connection that delivers `total` octets before it ends: the pieces make up
    all that there is, up to the size of the buffer, and so does what has gone from the connection; the result is the
    number of pieces, with the sign that says whether this was enough. -/
structure Received (total : ℕ) (waitall : Bool) (r : Receiving) : Prop where
  positive : ∀ c ∈ r.chunks, 0 < c
  sum : r.chunks.sum = min total tsBbufSize
  stream : r.stream = List.replicate (total - tsBbufSize) tsBbufData
  outcome : r.outcome = some (.returned (if tsBbufSize ≤ total then r.chunks.length else -r.chunks.length))
  whole : waitall = true → r.chunks.length ≤ 1

/-! ## The loop -/

/-- What holds in the loop: the pieces so far, and what remains. -/
structure Receiving.Inv (total : ℕ) (waitall : Bool) (r : Receiving) : Prop where
  positive : ∀ c ∈ r.chunks, 0 < c
  stream : r.stream = List.replicate (total - r.chunks.sum) tsBbufData
  bufSize : r.bufSize + r.chunks.sum = tsBbufSize
  sum_le : r.chunks.sum ≤ total
  numRec : r.numRec = r.chunks.length
  outcome : r.outcome = none ∨ r.outcome = some (.returned (-r.chunks.length)) ∧ r.chunks.sum = total ∧ 0 < r.bufSize
  whole : waitall = true → r.chunks = [] ∨ r.chunks = [min tsBbufSize total]

section
variable {total cut : ℕ} {waitall : Bool} {r : Receiving}

theorem chunkSize_pos {bufSize left : ℕ} (hb : 0 < bufSize) (hl : 0 < left) : 0 < chunkSize waitall cut bufSize left := by
  unfold chunkSize
  split <;> omega

theorem chunkSize_le (bufSize left : ℕ) : chunkSize waitall cut bufSize left ≤ min bufSize left := by
  unfold chunkSize
  split <;> omega

/-- The buffer after a piece of the stream. -/
theorem getD_overlay_replicate {k i n : ℕ} (hi : i < k) (hk : k ≤ n) (inbuf : Octets) :
    (overlay n inbuf (List.replicate k tsBbufData)).getD i 0 = tsBbufData := by
  rw [overlay_of_le (by rw [List.length_replicate]; exact hk), List.getD_eq_getElem?_getD,
    List.getElem?_append_left (by rw [List.length_replicate]; exact hi), List.getElem?_replicate_of_lt hi]
  rfl

/-- A round on a connection that has ended. -/
theorem receiveRound_end (recv : ℕ → Option ℕ) (hrecv : recv r.numRec = some cut) (hs : r.stream = []) :
    receiveRound waitall recv r = { r with outcome := some (.returned (-r.numRec)) } := by
  rw [receiveRound, hrecv]
  simp only [hs, List.take_nil, List.length_nil, if_true]

/-- A round that receives a piece. -/
theorem receiveRound_chunk (recv : ℕ → Option ℕ) (hrecv : recv r.numRec = some cut) {left c : ℕ}
    (hs : r.stream = List.replicate left tsBbufData) (hc : c = chunkSize waitall cut r.bufSize left) (hpos : 0 < c) :
    receiveRound waitall recv r = { r with
      stream := List.replicate (left - c) tsBbufData
      inbuf := overlay r.bufSize r.inbuf (List.replicate c tsBbufData)
      bufSize := r.bufSize - c
      numRec := r.numRec + 1
      chunks := r.chunks ++ [c] } := by
  have hle : c ≤ min r.bufSize left := hc ▸ chunkSize_le r.bufSize left
  have htake : r.stream.take (chunkSize waitall cut r.bufSize r.stream.length) = List.replicate c tsBbufData := by
    rw [hs, List.length_replicate, ← hc, List.take_replicate, Nat.min_eq_left (by omega)]
  have hfirst := getD_overlay_replicate (k := c) (i := 0) (n := r.bufSize) hpos (by omega) r.inbuf
  have hlast := getD_overlay_replicate (k := c) (i := c - 1) (n := r.bufSize) (by omega) (by omega) r.inbuf
  have hsome : ¬ c = 0 := by omega
  rw [receiveRound, hrecv]
  dsimp only
  rw [htake]
  simp only [List.length_replicate, hsome, hfirst, hlast, ne_eq, not_true_eq_false, or_self, if_false]
  rw [hs, List.drop_replicate]

theorem Receiving.inv_start (total : ℕ) (waitall : Bool) (inbuf : Octets) :
    (Receiving.mk (List.replicate total tsBbufData) inbuf tsBbufSize 0 [] none).Inv total waitall :=
  ⟨nofun, by simp, by simp, Nat.zero_le _, rfl, .inl rfl, fun _ => .inl rfl⟩

/-- A round that receives a piece keeps the invariant, and leaves less to receive. -/
theorem Receiving.Inv.chunk (h : r.Inv total waitall) (hnone : r.outcome = none) (hb : 0 < r.bufSize)
    (hmore : 0 < total - r.chunks.sum) (recv : ℕ → Option ℕ) (hrecv : recv r.numRec = some cut) :
    (receiveRound waitall recv r).Inv total waitall ∧ (receiveRound waitall recv r).bufSize < r.bufSize := by
  obtain ⟨c, hc⟩ : ∃ c, c = chunkSize waitall cut r.bufSize (total - r.chunks.sum) := ⟨_, rfl⟩
  have hpos : 0 < c := hc ▸ chunkSize_pos hb hmore
  have hle : c ≤ min r.bufSize (total - r.chunks.sum) := hc ▸ chunkSize_le _ _
  have hbuf := h.bufSize
  have hsum : (r.chunks ++ [c]).sum = r.chunks.sum + c := by simp
  rw [receiveRound_chunk recv hrecv h.stream hc hpos]
  refine ⟨⟨?_, ?_, ?_, ?_, ?_, .inl hnone, ?_⟩, by dsimp only; omega⟩
  · intro c' hc'
    rcases List.mem_append.mp hc' with hold | hnew
    · exact h.positive c' hold
    · rw [List.mem_singleton.mp hnew]
      exact hpos
  · dsimp only
    rw [hsum, Nat.sub_sub]
  · dsimp only
    rw [hsum]
    omega
  · dsimp only
    rw [hsum]
    omega
  · dsimp only
    rw [List.length_append, List.length_singleton, h.numRec]
  · intro hw
    rcases h.whole hw with hfirst | hsecond
    · refine .inr ?_
      have h0 : r.chunks.sum = 0 := by rw [hfirst, List.sum_nil]
      have hwhole : c = min tsBbufSize total := by
        rw [hc, chunkSize, if_pos hw, h0, Nat.sub_zero, ← hbuf, h0, Nat.add_zero]
      dsimp only
      rw [hfirst, hwhole, List.nil_append]
    · -- everything there is has come with the first piece
      rw [hsecond, List.sum_singleton] at hbuf hmore
      omega

/-- **A round keeps the invariant**, and either ends the loop or leaves less to receive. -/
theorem Receiving.Inv.round (h : r.Inv total waitall) (hgo : r.goesOn = true) (recv : ℕ → Option ℕ)
    (hrecv : recv r.numRec = some cut) :
    (receiveRound waitall recv r).Inv total waitall ∧
      ((receiveRound waitall recv r).outcome ≠ none ∨ (receiveRound waitall recv r).bufSize < r.bufSize) := by
  rw [Receiving.goesOn, Bool.and_eq_true, Option.isNone_iff_eq_none, decide_eq_true_eq] at hgo
  obtain ⟨hnone, hb⟩ := hgo
  rcases Nat.eq_zero_or_pos (total - r.chunks.sum) with hend | hmore
  · have hs : r.stream = [] := by rw [h.stream, hend, List.replicate_zero]
    have hall : r.chunks.sum = total := Nat.le_antisymm h.sum_le (by omega)
    have hreturned : some (Outcome.returned (-r.numRec)) = some (.returned (-r.chunks.length)) := by rw [h.numRec]
    rw [receiveRound_end recv hrecv hs]
    exact ⟨⟨h.positive, h.stream, h.bufSize, h.sum_le, h.numRec, .inr ⟨hreturned, hall, hb⟩, h.whole⟩, .inl nofun⟩
  · obtain ⟨hinv, hless⟩ := h.chunk hnone hb hmore recv hrecv
    exact ⟨hinv, .inr hless⟩

/-- What the invariant says where the loop ends. -/
theorem Receiving.Inv.finish (h : r.Inv total waitall) (hstop : r.goesOn = false) : Received total waitall r.finish := by
  have hbuf := h.bufSize
  have hle := h.sum_le
  have hwhole : waitall = true → r.chunks.length ≤ 1 := by
    intro hw
    rcases h.whole hw with h0 | h1
    · rw [h0]
      exact Nat.zero_le 1
    · rw [h1]
      exact Nat.le_refl 1
  rcases h.outcome with hnone | ⟨hsome, hall, hpos⟩
  · have hfull : r.bufSize = 0 := by
      simpa [Receiving.goesOn, hnone] using hstop
    have hsum : r.chunks.sum = tsBbufSize := by omega
    rw [Receiving.finish, if_pos hnone]
    refine ⟨h.positive, ?_, ?_, ?_, hwhole⟩
    · dsimp only
      omega
    · dsimp only
      rw [h.stream, hsum]
    · dsimp only
      rw [if_pos (by omega), h.numRec]
  · have hfinish : r.finish = r := by rw [Receiving.finish, if_neg (by rw [hsome]; nofun)]
    rw [hfinish]
    refine ⟨h.positive, by omega, ?_, ?_, hwhole⟩
    · rw [h.stream, hall, Nat.sub_self, Nat.sub_eq_zero_of_le (by omega)]
    · rw [hsome, if_neg (by omega)]

/-- **What `do_receive` does**, however the connection delivers its octets. -/
theorem doReceive_exact {fuel : ℕ} (hfuel : tsBbufSize + 1 < fuel) (waitall : Bool) (cut : ℕ → ℕ) (inbuf : Octets)
    (total : ℕ) :
    ∃ r, doReceive fuel waitall (fun i => some (cut i)) inbuf (List.replicate total tsBbufData) = some r ∧
      Received total waitall r := by
  have hloop : ∃ r, whileLoop Receiving.goesOn (fun r => some (receiveRound waitall (fun i => some (cut i)) r)) fuel
      ⟨List.replicate total tsBbufData, inbuf, tsBbufSize, 0, [], none⟩ = some r ∧
        r.Inv total waitall ∧ r.goesOn = false := by
    apply whileLoop_total (Receiving.Inv total waitall) fun r => if r.outcome = none then r.bufSize + 1 else 0
    · intro r hI hgo
      obtain ⟨hI', hless⟩ := hI.round hgo (fun i => some (cut i)) rfl
      have hnone : r.outcome = none := by
        rw [Receiving.goesOn, Bool.and_eq_true, Option.isNone_iff_eq_none] at hgo
        exact hgo.1
      refine ⟨_, rfl, hI', ?_⟩
      rw [if_pos hnone]
      rcases hless with hended | hless
      · rw [if_neg hended]
        exact Nat.succ_pos _
      · split <;> omega
    · exact Receiving.inv_start total waitall inbuf
    · exact hfuel
  obtain ⟨r, hrun, hinv, hstop⟩ := hloop
  refine ⟨r.finish, ?_, hinv.finish hstop⟩
  rw [doReceive, hrun]
  rfl

/-- A list of positive numbers is determined by a list that begins with it and has the same sum. -/
theorem eq_of_prefix_of_sum {cs ds : List ℕ} (h : cs <+: ds) (hpos : ∀ d ∈ ds, 0 < d) (hsum : cs.sum = ds.sum) : cs = ds := by
  obtain ⟨es, rfl⟩ := h
  rw [List.sum_append] at hsum
  cases es with
  | nil => rw [List.append_nil]
  | cons e es =>
    have := hpos e (by simp)
    rw [List.sum_cons] at hsum
    omega

/-- A round receives the next piece of a cut of the stream. -/
theorem Receiving.Inv.round_begins {chunks : List ℕ} (h : r.Inv total false) (hgo : r.goesOn = true)
    (hpos : ∀ c ∈ chunks, 0 < c) (hsum : chunks.sum = min total tsBbufSize) (hbegin : r.chunks <+: chunks) :
    (receiveRound false (fun i => some (chunks.getD i 0)) r).chunks <+: chunks := by
  obtain ⟨more, hmore⟩ := hbegin
  rw [Receiving.goesOn, Bool.and_eq_true, decide_eq_true_eq] at hgo
  have hbuf := h.bufSize
  have hle := h.sum_le
  rw [← hmore, List.sum_append] at hsum
  cases more with
  | nil =>
    -- all has been received, and the connection has ended
    have hend : r.stream = [] := by
      rw [List.sum_nil] at hsum
      rw [h.stream, Nat.sub_eq_zero_of_le (by omega), List.replicate_zero]
    rw [receiveRound_end (fun i => some (chunks.getD i 0)) rfl hend]
    exact ⟨[], hmore⟩
  | cons c more =>
    have hcut : chunks.getD r.numRec 0 = c := by
      rw [h.numRec, ← hmore, List.getD_eq_getElem?_getD, List.getElem?_append_right (Nat.le_refl _), Nat.sub_self]
      rfl
    have hc : 0 < c := hpos c (by rw [← hmore]; simp)
    have hsize : c = chunkSize false (chunks.getD r.numRec 0) r.bufSize (total - r.chunks.sum) := by
      rw [List.sum_cons] at hsum
      rw [hcut, chunkSize, if_neg Bool.false_ne_true]
      omega
    rw [receiveRound_chunk (fun i => some (chunks.getD i 0)) rfl h.stream hsize hc]
    exact ⟨more, by rw [← hmore, List.append_assoc]; rfl⟩

/-- **Every way to cut the stream is one that `recv` can take.** -/
theorem doReceive_split {fuel : ℕ} (hfuel : tsBbufSize + 1 < fuel) {chunks : List ℕ} (hpos : ∀ c ∈ chunks, 0 < c)
    (hsum : chunks.sum = min total tsBbufSize) (inbuf : Octets) :
    ∃ r, doReceive fuel false (fun i => some (chunks.getD i 0)) inbuf (List.replicate total tsBbufData) = some r ∧
      r.chunks = chunks := by
  obtain ⟨r, hrun, hreceived⟩ := doReceive_exact hfuel false (fun i => chunks.getD i 0) inbuf total
  refine ⟨r, hrun, eq_of_prefix_of_sum ?_ hpos (hreceived.sum.trans hsum.symm)⟩
  obtain ⟨r', hloop, rfl⟩ := Option.map_eq_some_iff.mp hrun
  have hinv := whileLoop_inv (I := fun r => r.Inv total false ∧ r.chunks <+: chunks) ?_
    ⟨Receiving.inv_start total false inbuf, List.nil_prefix⟩ hloop
  · have hsame : r'.finish.chunks = r'.chunks := by
      unfold Receiving.finish
      split <;> rfl
    rw [hsame]
    exact hinv.1.2
  · rintro s s' ⟨hI, hbegin⟩ hgo hs
    obtain rfl := Option.some.inj hs
    exact ⟨(hI.round hgo (fun i => some (chunks.getD i 0)) rfl).1, hI.round_begins hgo hpos hsum hbegin⟩

/-! ## The server -/

theorem Received.length_pos_iff (h : Received total waitall r) : 0 < r.chunks.length ↔ 0 < total := by
  have hsum := h.sum
  have hsize : 0 < tsBbufSize := by decide
  cases hchunks : r.chunks with
  | nil =>
    rw [hchunks, List.sum_nil] at hsum
    rw [List.length_nil]
    omega
  | cons c cs =>
    have hc := h.positive c (by rw [hchunks]; exact List.mem_cons_self)
    rw [hchunks, List.sum_cons] at hsum
    rw [List.length_cons]
    omega

/-- What the server makes of a result. -/
theorem Received.judge_iff (h : Received total waitall r) (n : ℕ) (good : ℤ → Bool) :
    r.judge n good = none ↔ good (if tsBbufSize ≤ total then r.chunks.length else -r.chunks.length) = true := by
  rw [Receiving.judge, h.outcome]
  dsimp only
  by_cases hg : good (if tsBbufSize ≤ total then r.chunks.length else -r.chunks.length) = true
  · rw [if_pos hg]
    exact iff_of_true rfl hg
  · rw [if_neg hg]
    exact iff_of_false nofun hg

theorem serverTestBigStream_iff {fuel : ℕ} (hfuel : tsBbufSize + 1 < fuel) (cut : ℕ → ℕ → ℕ) (inbuf : ℕ → Octets)
    (total : ℕ) :
    ∃ o, serverTestBigStream fuel (fun n i => some (cut n i)) inbuf (List.replicate total tsBbufData) = some o ∧
      (o = none ↔ total = 2 * tsBbufSize) := by
  have hsize : 0 < tsBbufSize := by decide
  obtain ⟨r₁, hrun₁, h₁⟩ := doReceive_exact hfuel false (cut 1) (inbuf 1) total
  obtain ⟨r₂, hrun₂, h₂⟩ := doReceive_exact hfuel true (cut 2) (inbuf 2) (total - tsBbufSize)
  obtain ⟨r₃, hrun₃, h₃⟩ := doReceive_exact hfuel true (cut 3) (inbuf 3) (total - tsBbufSize - tsBbufSize)
  have hlen₁ := h₁.length_pos_iff
  have hlen₂ := h₂.length_pos_iff
  have hlen₃ := h₃.length_pos_iff
  have hwhole₂ := h₂.whole rfl
  have hjudge₁ := h₁.judge_iff 1 fun numRec => 0 < numRec
  have hjudge₂ := h₂.judge_iff 2 fun numRec => numRec = 1
  have hjudge₃ := h₃.judge_iff 3 fun numRec => numRec = 0
  simp only [decide_eq_true_eq] at hjudge₁ hjudge₂ hjudge₃
  rw [serverTestBigStream, hrun₁, Option.bind_some]
  cases hres₁ : r₁.judge 1 fun numRec => 0 < numRec with
  | some e =>
    refine ⟨some e, rfl, iff_of_false nofun fun htotal => ?_⟩
    have hbad := mt hjudge₁.mpr (by rw [hres₁]; nofun)
    rw [if_pos (by omega)] at hbad
    omega
  | none =>
    dsimp only
    rw [h₁.stream, hrun₂, Option.bind_some]
    cases hres₂ : r₂.judge 2 fun numRec => numRec = 1 with
    | some e =>
      refine ⟨some e, rfl, iff_of_false nofun fun htotal => ?_⟩
      have hbad := mt hjudge₂.mpr (by rw [hres₂]; nofun)
      rw [if_pos (by omega)] at hbad
      omega
    | none =>
      dsimp only
      rw [h₂.stream, hrun₃]
      refine ⟨_, rfl, ?_⟩
      have hgood₁ := hjudge₁.mp hres₁
      have hgood₂ := hjudge₂.mp hres₂
      rw [hjudge₃]
      constructor
      · intro hgood₃
        -- nothing depends on which size it is
        generalize tsBbufSize = size at hsize hlen₁ hlen₂ hlen₃ hgood₁ hgood₂ hgood₃ ⊢
        split at hgood₂ <;> split at hgood₃ <;> omega
      · intro htotal
        rw [if_neg (by omega)]
        omega

end

/-- **Big streams.** However a connection delivers its octets and wherever it ends, `do_receive` returns the number of
    pieces with the sign that says whether they were enough, and takes as many octets as it asks for, or all; any pieces
    are possible; and the server accepts two streams and nothing else. -/
theorem big_stream_exact {fuel : ℕ} (hfuel : tsBbufSize + 1 < fuel) :
    (∀ (waitall : Bool) (cut : ℕ → ℕ) (inbuf : Octets) (total : ℕ),
      ∃ r, doReceive fuel waitall (fun i => some (cut i)) inbuf (List.replicate total tsBbufData) = some r ∧
        Received total waitall r) ∧
    (∀ (total : ℕ) (chunks : List ℕ), (∀ c ∈ chunks, 0 < c) → chunks.sum = min total tsBbufSize → ∃ cut : ℕ → ℕ,
      ∀ inbuf, ∃ r, doReceive fuel false (fun i => some (cut i)) inbuf (List.replicate total tsBbufData) = some r ∧
        r.chunks = chunks) ∧
    ∀ (cut : ℕ → ℕ → ℕ) (inbuf : ℕ → Octets) (total : ℕ),
      ∃ o, serverTestBigStream fuel (fun n i => some (cut n i)) inbuf (List.replicate total tsBbufData) = some o ∧
        (o = none ↔ total = 2 * tsBbufSize) := by
  refine ⟨doReceive_exact hfuel, ?_, serverTestBigStream_iff hfuel⟩
  intro total chunks hpos hsum
  exact ⟨fun i => chunks.getD i 0, doReceive_split hfuel hpos hsum⟩

/-- Two streams are accepted, with the first one in pieces of one octet. -/
theorem big_stream_exact_two :
    serverTestBigStream (tsBbufSize + 2) (fun _ _ => some 1) (fun _ => []) (List.replicate (2 * tsBbufSize) tsBbufData) =
      some none := by
  obtain ⟨o, hrun, hiff⟩ := (@big_stream_exact (tsBbufSize + 2) (Nat.lt_succ_self _)).2.2 (fun _ _ => 1) (fun _ => [])
    (2 * tsBbufSize)
  rw [hrun, hiff.mpr rfl]

end BigStream
end Ptts
end Tipcutils
