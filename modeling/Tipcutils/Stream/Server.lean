import Mathlib.Algebra.Group.Int.Defs
import Tipcutils.Stream.Client

/-!
# `Stream.Server` — the loop that receives records

`server_test_stream` of the PTTS and the server of `stream_demo` have the same loop. It receives the four octets of a
length into `inbuf` and then as many octets of data into the same buffer, checks them and acknowledges the record.
`recv` with `MSG_WAITALL` yields less than it is asked for only at the end of the stream; a header that is cut short
there is completed by what `inbuf` held before.

**`round_record`** is the round that receives a record, **`run_records`** the rounds that receive a number of them.
-/

namespace Tipcutils
namespace Stream

/-- `MAX_REC_SIZE`. -/
def maxRecSize : ℕ := 256

/-- Which calls of a round succeed: `recv` of the header, `recv` of the data, and `send`. -/
structure Calls where
  header : Bool
  data : Bool
  ack : Bool
deriving DecidableEq

def allSucceed : Calls := ⟨true, true, true⟩

/-- How the loop ends: the client has terminated normally; one of the four errors; or more has been received than `inbuf`
    can hold. -/
inductive Ending where
  | normal
  | abnormal
  | receiveError (msgSize : ℤ)
  | contentError
  | sendError
  | overrun
deriving DecidableEq

structure Server where
  /-- what is still to come from the client -/
  stream : Octets
  inbuf : Octets
  recNum : ℕ
  acks : ℕ
  /-- what `recv` has been asked for -/
  asked : List ℕ
  ending : Option Ending
deriving DecidableEq

/-- `recv(peer_sd, inbuf, size, MSG_WAITALL)`. -/
def Server.recv (succeeds : Bool) (size : ℕ) (s : Server) : ℤ × Server :=
  let s := { s with asked := s.asked ++ [size] }
  if !succeeds then (-1, s)
  else
    let got := s.stream.take size
    (got.length,
      { s with
        stream := s.stream.drop size
        inbuf := overlay maxRecSize s.inbuf got
        ending := if got.length > maxRecSize then some .overrun else none })

/-- `rec_size`, an `int`, from the header in `inbuf`. -/
def recSizeOf (host : Endian) (inbuf : Octets) : ℤ := (ntohl host (loadU32 host inbuf)).toInt32.toInt

/-- An `int` as the size that `recv` is asked for. -/
def sizeT (x : ℤ) : ℕ := (x % 2 ^ 64).toNat

/-- The data is compared with `rec_size`, from the end. -/
def contentOk (inbuf : Octets) (recSize : ℤ) : ℕ → Bool
  | 0 => true
  | msgSize + 1 => ((inbuf.getD msgSize 0).toNat : ℤ) = recSize && contentOk inbuf recSize msgSize

/-- The part of a round behind the header. -/
def Server.onData (host : Endian) (calls : Calls) (s : Server) : Server :=
  let recSize := recSizeOf host s.inbuf
  let (msgSize, s) := s.recv calls.data (sizeT recSize)
  -- more than `inbuf` can hold has been written
  if s.ending.isSome then s
  else if msgSize ≠ recSize then { s with ending := some (.receiveError msgSize) }
  else if !contentOk s.inbuf recSize msgSize.toNat then { s with ending := some .contentError }
  else if !calls.ack then { s with ending := some .sendError }
  -- one octet is sent back
  else { s with acks := s.acks + 1 }

/-- One round of the loop. -/
def Server.round (host : Endian) (calls : Calls) (s : Server) : Server :=
  let (msgSize, s) := s.recv calls.header 4
  if msgSize = 0 then { s with ending := some .normal }
  else if msgSize < 0 then { s with ending := some .abnormal }
  else { s with recNum := s.recNum + 1 }.onData host calls

/-- The test of the loop. -/
def Server.goesOn (s : Server) : Bool := s.ending.isNone

/-- The body of the loop. Which calls succeed may differ from round to round. -/
def Server.body (host : Endian) (calls : ℕ → Calls) (s : Server) : Option Server :=
  some (s.round host (calls s.recNum))

def Server.start (inbuf stream : Octets) : Server := ⟨stream, inbuf, 0, 0, [], none⟩

/-- The loop of `server_test_stream` and of the server of `stream_demo`, for a stream and what `inbuf` holds before. -/
def serve (host : Endian) (calls : ℕ → Calls) (inbuf stream : Octets) : Option Server :=
  whileLoop Server.goesOn (Server.body host calls) (stream.length + 2) (.start inbuf stream)

/-! ## The length in a header -/

variable {host : Endian} {calls : Calls} {s : Server}

theorem recSizeOf_eq (inbuf : Octets) :
    recSizeOf host inbuf =
      if (ofBe32 inbuf).toNat < 2 ^ 31 then ((ofBe32 inbuf).toNat : ℤ) else (ofBe32 inbuf).toNat - 2 ^ 32 := by
  rw [recSizeOf, ntohl_loadU32]
  have hcond : (ofBe32 inbuf).toInt32.toInt = _ := BitVec.toInt_eq_toNat_cond _
  rw [hcond]
  show (if 2 * (ofBe32 inbuf).toNat < 2 ^ 32 then _ else _) = _
  split <;> split <;> first | rfl | omega

/-- The length in `inbuf`. -/
def Server.recSize (s : Server) : ℕ := (ofBe32 s.inbuf).toNat

theorem recSizeOf_of_le (h : s.recSize ≤ maxRecSize) : recSizeOf host s.inbuf = s.recSize := by
  have hle : (ofBe32 s.inbuf).toNat ≤ 256 := h
  rw [recSizeOf_eq, if_pos (by omega)]
  rfl

/-- A length that fits is asked for. -/
theorem sizeT_of_le {n : ℕ} (h : n ≤ maxRecSize) : sizeT n = n := by
  have hle : n ≤ 256 := h
  unfold sizeT
  omega

/-- For a length that does not fit, too much is asked for. -/
theorem lt_sizeT (host : Endian) (h : maxRecSize < s.recSize) : maxRecSize < sizeT (recSizeOf host s.inbuf) := by
  have hlt : 256 < (ofBe32 s.inbuf).toNat := h
  have hword := (ofBe32 s.inbuf).toNat_lt
  show 256 < sizeT _
  rw [recSizeOf_eq, sizeT]
  split <;> omega

/-! ## The data -/

theorem contentOk_iff {inbuf : Octets} {recSize : ℤ} (n : ℕ) :
    contentOk inbuf recSize n = true ↔ ∀ i < n, ((inbuf.getD i 0).toNat : ℤ) = recSize := by
  induction n with
  | zero => exact ⟨fun _ i hi => absurd hi (Nat.not_lt_zero i), fun _ => rfl⟩
  | succ n ih =>
    rw [contentOk, Bool.and_eq_true, ih, decide_eq_true_eq]
    constructor
    · rintro ⟨hlast, hall⟩ i hi
      rcases Nat.lt_succ_iff_lt_or_eq.mp hi with hlt | rfl
      · exact hall i hlt
      · exact hlast
    · intro hall
      exact ⟨hall n (Nat.lt_succ_self n), fun i hi => hall i (Nat.lt_succ_of_lt hi)⟩

/-- The data that has been received is what is compared. -/
theorem contentOk_overlay (inbuf : Octets) (recSize : ℤ) {got : Octets} (h : got.length ≤ maxRecSize) :
    contentOk (overlay maxRecSize inbuf got) recSize got.length = true ↔ ∀ b ∈ got, (b.toNat : ℤ) = recSize := by
  rw [contentOk_iff, overlay_of_le h]
  constructor
  · intro hall b hb
    obtain ⟨i, hi, rfl⟩ := List.mem_iff_getElem.mp hb
    have hget := hall i hi
    rw [List.getD_append _ _ _ _ hi, List.getD_eq_getElem _ _ hi] at hget
    exact hget
  · intro hall i hi
    rw [List.getD_append _ _ _ _ hi, List.getD_eq_getElem _ _ hi]
    exact hall _ (List.getElem_mem hi)

/-! ## `recv` -/

@[simp] theorem recv_of_fails (n : ℕ) : s.recv false n = (-1, { s with asked := s.asked ++ [n] }) := rfl

theorem recv_of_succeeds {n : ℕ} (h : n ≤ maxRecSize) :
    s.recv true n =
      (((s.stream.take n).length : ℤ),
        { s with
          stream := s.stream.drop n
          inbuf := overlay maxRecSize s.inbuf (s.stream.take n)
          asked := s.asked ++ [n]
          ending := none }) := by
  have hfits : ¬ (s.stream.take n).length > maxRecSize := Nat.not_lt.mpr (Nat.le_trans (List.length_take_le _ _) h)
  unfold Server.recv
  simp only [Bool.not_true, Bool.false_eq_true, if_false, if_neg hfits]

/-! ## One round -/

/-- After the header has been received. -/
def Server.gotHeader (s : Server) : Server :=
  { s with
    stream := s.stream.drop 4
    inbuf := overlay maxRecSize s.inbuf (s.stream.take 4)
    recNum := s.recNum + 1
    asked := s.asked ++ [4] }

theorem round_of_header_fails (hh : calls.header = false) :
    s.round host calls = { s with asked := s.asked ++ [4], ending := some .abnormal } := by
  simp [Server.round, hh]

theorem round_of_nil (hh : calls.header = true) (hs : s.stream = []) :
    s.round host calls =
      { s with asked := s.asked ++ [4], inbuf := overlay maxRecSize s.inbuf [], ending := some .normal } := by
  unfold Server.round
  rw [hh, recv_of_succeeds (by decide)]
  simp [hs]

theorem round_of_header (hend : s.ending = none) (hh : calls.header = true) (hs : s.stream ≠ []) :
    s.round host calls = s.gotHeader.onData host calls := by
  have hpos : 0 < (s.stream.take 4).length := by
    have := List.length_pos_iff.mpr hs
    rw [List.length_take]
    omega
  have hne : ¬ ((s.stream.take 4).length : ℤ) = 0 := by omega
  have hnn : ¬ ((s.stream.take 4).length : ℤ) < 0 := by omega
  unfold Server.round
  rw [hh, recv_of_succeeds (by decide)]
  simp only [if_neg hne, if_neg hnn, Server.gotHeader, hend]

/-- After as much data as there is has been received. -/
def Server.gotData (s : Server) : Server :=
  { s with
    stream := s.stream.drop s.recSize
    inbuf := overlay maxRecSize s.inbuf (s.stream.take s.recSize)
    asked := s.asked ++ [s.recSize] }

theorem onData_of_fails (hend : s.ending = none) (h : s.recSize ≤ maxRecSize) (hd : calls.data = false) :
    s.onData host calls = { s with asked := s.asked ++ [s.recSize], ending := some (.receiveError (-1)) } := by
  -- -1 is never the length that was asked for
  have hne : (-1 : ℤ) ≠ s.recSize := by omega
  unfold Server.onData
  simp only [recSizeOf_of_le h, sizeT_of_le h, hd, recv_of_fails, hend, Option.isSome_none, Bool.false_eq_true, if_false,
    if_pos hne]

/-- `recv` has found less data than the length says. -/
theorem onData_of_short (h : s.recSize ≤ maxRecSize) (hd : calls.data = true)
    (hshort : (s.stream.take s.recSize).length ≠ s.recSize) :
    s.onData host calls =
      { s.gotData with ending := some (.receiveError (s.stream.take s.recSize).length) } := by
  have hne : ((s.stream.take s.recSize).length : ℤ) ≠ s.recSize := fun heq => hshort (Int.ofNat_inj.mp heq)
  unfold Server.onData
  simp only [recSizeOf_of_le h, sizeT_of_le h, hd, recv_of_succeeds h, Option.isSome_none, Bool.false_eq_true, if_false,
    if_pos hne, Server.gotData]

/-- All the data has been received. -/
theorem onData_of_full (hend : s.ending = none) (h : s.recSize ≤ maxRecSize) (hd : calls.data = true)
    (hfull : (s.stream.take s.recSize).length = s.recSize) [Decidable (∀ b ∈ s.stream.take s.recSize, b.toNat = s.recSize)] :
    s.onData host calls =
      if ∀ b ∈ s.stream.take s.recSize, b.toNat = s.recSize then
        if calls.ack then { s.gotData with acks := s.acks + 1 } else { s.gotData with ending := some .sendError }
      else { s.gotData with ending := some .contentError } := by
  have hcontent := contentOk_overlay s.inbuf s.recSize
    (Nat.le_trans (List.length_take_le s.recSize s.stream) h)
  have hne : ¬ ((s.stream.take s.recSize).length : ℤ) ≠ s.recSize := fun hne => hne (by rw [hfull])
  unfold Server.onData
  simp only [recSizeOf_of_le h, sizeT_of_le h, hd, recv_of_succeeds h, Option.isSome_none, Bool.false_eq_true, if_false,
    if_neg hne, Int.toNat_natCast]
  by_cases hall : ∀ b ∈ s.stream.take s.recSize, b.toNat = s.recSize
  · rw [if_pos hall, hcontent.mpr fun b hb => by rw [hall b hb]]
    cases hack : calls.ack with
    | false => rfl
    | true => simp [Server.gotData, hend]
  · have hbad := mt hcontent.mp fun hint => hall fun b hb => Int.ofNat_inj.mp (hint b hb)
    rw [if_neg hall, Bool.not_eq_true] at *
    rw [hbad]
    rfl

/-! ## Every round gets further -/

theorem recv_stream_le (succeeds : Bool) (n : ℕ) : (s.recv succeeds n).2.stream.length ≤ s.stream.length := by
  unfold Server.recv
  simp only
  split
  · exact Nat.le_refl _
  · rw [List.length_drop]
    exact Nat.sub_le _ _

@[simp] theorem recv_asked (succeeds : Bool) (n : ℕ) : (s.recv succeeds n).2.asked = s.asked ++ [n] := by
  unfold Server.recv
  simp only
  split <;> rfl

@[simp] theorem recv_acks (succeeds : Bool) (n : ℕ) : (s.recv succeeds n).2.acks = s.acks := by
  unfold Server.recv
  simp only
  split <;> rfl

/-- The server asks once for data, takes none back, and forgets no acknowledgement. -/
theorem onData_grows (host : Endian) (calls : Calls) (s : Server) :
    (s.onData host calls).stream.length ≤ s.stream.length ∧
      (s.onData host calls).asked = s.asked ++ [sizeT (recSizeOf host s.inbuf)] ∧
      s.acks ≤ (s.onData host calls).acks := by
  have hstream := recv_stream_le (s := s) calls.data (sizeT (recSizeOf host s.inbuf))
  have hasked := recv_asked (s := s) calls.data (sizeT (recSizeOf host s.inbuf))
  have hacks := recv_acks (s := s) calls.data (sizeT (recSizeOf host s.inbuf))
  unfold Server.onData
  simp only
  split
  · exact ⟨hstream, hasked, Nat.le_of_eq hacks.symm⟩
  · split
    · exact ⟨hstream, hasked, Nat.le_of_eq hacks.symm⟩
    · split
      · exact ⟨hstream, hasked, Nat.le_of_eq hacks.symm⟩
      · split
        · exact ⟨hstream, hasked, Nat.le_of_eq hacks.symm⟩
        · exact ⟨hstream, hasked, by rw [hacks]; exact Nat.le_succ _⟩

/-- What is still to come, and whether the loop goes on. -/
def Server.left (s : Server) : ℕ := s.stream.length + if s.goesOn then 1 else 0

/-- A round. -/
theorem round_grows (host : Endian) (calls : Calls) (h : s.goesOn = true) :
    (s.round host calls).left < s.left ∧ s.asked <+: (s.round host calls).asked ∧
      s.acks ≤ (s.round host calls).acks := by
  have hend : s.ending = none := Option.isNone_iff_eq_none.mp h
  have hleft : s.left = s.stream.length + 1 := by rw [Server.left, if_pos h]
  rw [hleft]
  cases hh : calls.header with
  | false =>
    rw [round_of_header_fails hh]
    exact ⟨Nat.lt_succ_self _, List.prefix_append _ _, Nat.le_refl _⟩
  | true =>
    by_cases hs : s.stream = []
    · rw [round_of_nil hh hs]
      exact ⟨Nat.lt_succ_self _, List.prefix_append _ _, Nat.le_refl _⟩
    · rw [round_of_header hend hh hs]
      obtain ⟨hle, hasked, hacks⟩ := onData_grows host calls s.gotHeader
      have hdrop : s.gotHeader.stream.length = s.stream.length - 4 := List.length_drop
      -- the header takes at least one octet off the stream
      have hpos := List.length_pos_iff.mpr hs
      refine ⟨?_, ?_, hacks⟩
      · unfold Server.left
        split <;> omega
      · rw [hasked]
        exact (List.prefix_append s.asked [4]).trans (List.prefix_append _ _)

/-- The loop ends on every stream, and in whatever it keeps. -/
theorem serve_total (host : Endian) (calls : ℕ → Calls) (inbuf stream : Octets) (I : Server → Prop)
    (hstart : I (.start inbuf stream))
    (hround : ∀ s, I s → s.goesOn = true → I (s.round host (calls s.recNum))) :
    ∃ s, serve host calls inbuf stream = some s ∧ I s ∧ s.goesOn = false :=
  whileLoop_total I Server.left (fun s hI hgo => ⟨_, rfl, hround s hI hgo, (round_grows host _ hgo).1⟩) hstart
    (Nat.lt_succ_self (stream.length + 1))

/-! ## Records -/

theorem four_mul_length_le (rs : List UInt8) : 4 * rs.length ≤ (records rs).length := by
  induction rs with
  | nil => exact Nat.zero_le _
  | cons r rs ih =>
    have hhead : 4 ≤ (record r).length := by
      rw [record, List.length_append, length_be32]
      exact Nat.le_add_right _ _
    rw [records, List.flatMap_cons, List.length_append, List.length_cons]
    have hrest : 4 * rs.length ≤ (rs.flatMap record).length := ih
    omega

/-- What `inbuf` holds after a record. -/
def afterRecord (inbuf : Octets) (r : UInt8) : Octets :=
  overlay maxRecSize (overlay maxRecSize inbuf (be32 r.toUInt32)) (List.replicate r.toNat r)

/-- What `inbuf` holds after a number of records. -/
def afterRecords (inbuf : Octets) (rs : List UInt8) : Octets := rs.foldl afterRecord inbuf

/-- A header that is complete. -/
theorem recSize_gotHeader {x : UInt32} {rest : Octets} (h : s.stream = be32 x ++ rest) :
    s.gotHeader.recSize = x.toNat := by
  have htake : s.stream.take 4 = be32 x := by
    rw [h]
    exact List.take_left' (length_be32 x)
  have hfits : (be32 x).length ≤ maxRecSize := by
    rw [length_be32]
    decide
  show (ofBe32 (overlay maxRecSize s.inbuf (s.stream.take 4))).toNat = x.toNat
  rw [htake, overlay_of_le hfits, ofBe32_be32]

/-- After the whole record `r` has been received and acknowledged. -/
def Server.gotRecord (s : Server) (r : UInt8) (rest : Octets) : Server :=
  { s with
    stream := rest
    inbuf := afterRecord s.inbuf r
    recNum := s.recNum + 1
    acks := s.acks + 1
    asked := s.asked ++ [4] ++ [r.toNat] }

theorem recSize_record {r : UInt8} {rest : Octets} (h : s.stream = record r ++ rest) :
    s.gotHeader.recSize = r.toNat ∧ s.gotHeader.stream = List.replicate r.toNat r ++ rest := by
  rw [record, List.append_assoc] at h
  refine ⟨(recSize_gotHeader h).trans (UInt8.toNat_toUInt32 r), ?_⟩
  show s.stream.drop 4 = _
  rw [h]
  exact List.drop_left' (length_be32 _)

/-- A round that receives a record. -/
theorem round_record {r : UInt8} {rest : Octets} (hend : s.ending = none) (h : s.stream = record r ++ rest) :
    s.round host allSucceed = s.gotRecord r rest := by
  obtain ⟨hsize, hstream⟩ := recSize_record h
  have hbyte := r.toNat_lt
  have hle : s.gotHeader.recSize ≤ maxRecSize := by
    rw [hsize]
    show _ ≤ 256
    omega
  have htake : s.gotHeader.stream.take s.gotHeader.recSize = List.replicate r.toNat r := by
    rw [hstream, hsize]
    exact List.take_left' List.length_replicate
  have hdrop : s.gotHeader.stream.drop s.gotHeader.recSize = rest := by
    rw [hstream, hsize]
    exact List.drop_left' List.length_replicate
  have hhead : s.stream.take 4 = be32 r.toUInt32 := by
    rw [h, record, List.append_assoc]
    exact List.take_left' (length_be32 _)
  have hsome : s.stream ≠ [] := by
    rw [h, record]
    exact List.cons_ne_nil _ _
  have hall : ∀ b ∈ s.gotHeader.stream.take s.gotHeader.recSize, b.toNat = s.gotHeader.recSize := by
    intro b hb
    rw [htake] at hb
    rw [List.eq_of_mem_replicate hb, hsize]
  have hend' : s.gotHeader.ending = none := hend
  rw [round_of_header hend rfl hsome, onData_of_full hend' hle rfl (by rw [htake, List.length_replicate, hsize]),
    if_pos hall, if_pos (show allSucceed.ack = true from rfl)]
  unfold Server.gotData Server.gotRecord afterRecord
  rw [htake, hdrop, hsize]
  simp only [Server.gotHeader, hhead, hend]

/-- The rounds that receive a number of records. -/
theorem run_records (host : Endian) (calls : ℕ → Calls) {rs : List UInt8} {rest : Octets} (hend : s.ending = none)
    (hstream : s.stream = records rs ++ rest) (hcalls : ∀ i < rs.length, calls (s.recNum + i) = allSucceed) :
    ∃ asked, Rounds Server.goesOn (Server.body host calls) rs.length s
      ⟨rest, afterRecords s.inbuf rs, s.recNum + rs.length, s.acks + rs.length, asked, none⟩ := by
  induction rs generalizing s with
  | nil =>
    have hs : s = ⟨rest, s.inbuf, s.recNum, s.acks, s.asked, none⟩ := by
      rw [← hend, ← show s.stream = rest from hstream]
    refine ⟨s.asked, ?_⟩
    show Rounds _ _ 0 s ⟨rest, s.inbuf, s.recNum, s.acks, s.asked, none⟩
    rw [← hs]
    exact .refl
  | cons r rs ih =>
    have hfirst : s.stream = record r ++ (records rs ++ rest) := by
      rw [hstream, records, List.flatMap_cons, List.append_assoc]
      rfl
    have hround : s.round host (calls s.recNum) = s.gotRecord r (records rs ++ rest) := by
      have h0 : calls s.recNum = allSucceed := hcalls 0 (Nat.succ_pos _)
      rw [h0, round_record hend hfirst]
    obtain ⟨asked, hrest⟩ := ih (s := s.gotRecord r (records rs ++ rest)) hend rfl fun i hi => by
      have := hcalls (i + 1) (Nat.succ_lt_succ hi)
      rw [Nat.add_comm i 1, ← Nat.add_assoc] at this
      exact this
    refine ⟨asked, .head (by rw [Server.goesOn, hend]; rfl) (congrArg some hround) ?_⟩
    have hnum : ∀ n, n + 1 + rs.length = n + (r :: rs).length := fun n => by rw [List.length_cons]; omega
    rw [← hnum, ← hnum]
    exact hrest

end Stream
end Tipcutils
