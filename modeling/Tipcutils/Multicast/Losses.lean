import Tipcutils.Lib.Gaps
import Tipcutils.Multicast.Apart
import Tipcutils.Multicast.Runs

/-!
# `Multicast.Losses` — what the receiver reports about one run with losses

The receiver counts losses twice: the gaps between sequence numbers, and the packets that the first packet announces.
Of a run that an empty record receives up to its last packet, both counts are the number of packets that are lost after
the first one that arrives (**`losses_accounted`**).
-/

namespace Tipcutils
namespace Multicast

open Tipc Decimal

/-! ## The numbers of a run -/

/-- A sequence number as a natural number. -/
def Req.seq (r : Req) : ℕ := r.seqno.toNat

theorem transmitFrom_seq {seqno : UInt32} {count : ℕ} (h : (seqno + 1).toNat + count ≤ 2 ^ 32) :
    (transmitFrom seqno count).map Req.seq = List.range' (seqno + 1).toNat count := by
  induction count generalizing seqno with
  | zero => rfl
  | succ count ih =>
    rw [transmitFrom, List.map_cons, List.range'_succ]
    cases count with
    | zero => rfl
    | succ count =>
      have hnext : (seqno + 1 + 1).toNat = (seqno + 1).toNat + 1 := by
        rw [add_one_toNat]
        omega
      rw [ih (by omega), hnext]
      rfl

/-- Sequence number and remaining packets complement each other. -/
theorem seq_add_remaining {seqno : UInt32} {count : ℕ} (h : (seqno + 1).toNat + count < 2 ^ 32) {p : Req}
    (hp : p ∈ transmitFrom seqno count) : p.seq + p.remaining = (seqno + 1).toNat + count := by
  induction count generalizing seqno with
  | zero => nomatch hp
  | succ count ih =>
    have hnext : (seqno + 1 + 1).toNat = (seqno + 1).toNat + 1 := by
      rw [add_one_toNat]
      omega
    rcases List.mem_cons.mp hp with rfl | hp
    · show (seqno + 1).toNat + (UInt32.ofNat (count + 1)).toNat = _
      rw [UInt32.toNat_ofNat_of_lt' (show count + 1 < 2 ^ 32 by omega)]
    · rw [ih (by omega) hp, hnext]
      omega

/-- The numbers of a run start with 0. -/
theorem mcastTransmitter_seq (count : UInt32) : (mcastTransmitter count).map Req.seq = List.range' 0 count.toNat :=
  transmitFrom_seq (Nat.le_of_lt (by simpa using count.toNat_lt))

theorem seq_of_mem {count : UInt32} {p : Req} (hp : p ∈ mcastTransmitter count) :
    p.seq + p.remaining = count.toNat ∧ 1 ≤ p.remaining := by
  have hcount := count.toNat_lt
  have hsum := seq_add_remaining (by simpa using hcount) hp
  exact ⟨by simpa using hsum, (remaining_le_of_mem hcount hp).1⟩

theorem transmitFrom_nodup (seqno : UInt32) {count : ℕ} (hc : count < 2 ^ 32) : (transmitFrom seqno count).Nodup :=
  (transmitFrom_pairwise seqno hc).imp fun hlt heq => absurd (heq ▸ hlt) (Nat.lt_irrefl _)

/-! ## What is lost -/

/-- The packets of a run that are lost after the first one that arrives. -/
def lostAfterFirst (sent delivered : List Req) : List Req :=
  (sent.dropWhile fun p => p ∉ delivered).filter fun p => p ∉ delivered

/-- From the first packet that arrives on, the rest of the run follows. -/
theorem dropWhile_lost {seqno : UInt32} {count : ℕ} (hc : count < 2 ^ 32) {first : Req} {rest : List Req}
    (h : (first :: rest).Sublist (transmitFrom seqno count)) :
    (transmitFrom seqno count).dropWhile (fun p => p ∉ first :: rest) = first :: transmitFrom first.seqno (first.remaining - 1) ∧
      1 ≤ first.remaining ∧ rest.Sublist (transmitFrom first.seqno (first.remaining - 1)) := by
  induction count generalizing seqno with
  | zero => nomatch h
  | succ count ih =>
    have hval : Req.remaining ⟨seqno + 1, .ofNat (count + 1)⟩ = count + 1 := UInt32.toNat_ofNat_of_lt' hc
    cases h with
    | cons _ h =>
      -- the packet is lost: all that arrive have fewer remaining
      have hnot : ⟨seqno + 1, .ofNat (count + 1)⟩ ∉ first :: rest := by
        intro hmem
        have hle := (remaining_le_of_mem (by omega) (h.subset hmem)).2
        omega
      rw [transmitFrom, List.dropWhile_cons_of_pos (by simpa using hnot)]
      exact ih (by omega) h
    | cons_cons _ h =>
      rw [transmitFrom, List.dropWhile_cons_of_neg (by simp), hval]
      exact ⟨rfl, by omega, h⟩

/-- The lost packets are those that the first packet announces, less those that arrive. -/
theorem length_lostAfterFirst {seqno : UInt32} {count : ℕ} (hc : count < 2 ^ 32) {first : Req} {rest : List Req}
    (h : (first :: rest).Sublist (transmitFrom seqno count)) :
    (lostAfterFirst (transmitFrom seqno count) (first :: rest)).length + (first :: rest).length = first.remaining := by
  obtain ⟨hdrop, hpos, hrest⟩ := dropWhile_lost hc h
  have hnodup : (first :: transmitFrom first.seqno (first.remaining - 1)).Nodup := by
    rw [← hdrop]
    exact (transmitFrom_nodup seqno hc).sublist (List.dropWhile_sublist _)
  have hsub := hrest.cons_cons first
  -- the packets that arrive are those of the run that are among them
  have hperm : List.Perm ((first :: transmitFrom first.seqno (first.remaining - 1)).filter fun p => p ∈ first :: rest)
      (first :: rest) := by
    refine (List.perm_ext_iff_of_nodup (hnodup.filter _) (hnodup.sublist hsub)).mpr fun p => ?_
    simp only [List.mem_filter, decide_eq_true_eq, and_iff_right_iff_imp]
    exact fun hp => hsub.subset hp
  have hlen := List.length_eq_length_filter_add (l := first :: transmitFrom first.seqno (first.remaining - 1))
    fun p => decide (p ∈ first :: rest)
  rw [hperm.length_eq, List.length_cons, transmitFrom_length] at hlen
  rw [lostAfterFirst, hdrop]
  simp only [decide_not]
  omega

/-! ## What is printed about one packet -/

/-- The number in a line `Missing`. -/
def Line.gap : Line → Option ℕ
  | .missing gap _ => some gap.toNat
  | _ => none

def Line.isVerdict : Line → Bool
  | .testOk .. | .testNok .. => true
  | _ => false

/-- The record when a packet has been counted, before the verdict. -/
def Sndr.counted (sndr : Sndr) (pkt : Req) : Sndr :=
  ⟨pkt.seqno + 1, sndr.cnt + 1, if sndr.cnt = 0 then pkt.remainingPkts else sndr.totalCnt⟩

/-- The verdict on a record. -/
def Sndr.verdict (sndr : Sndr) (srcbuf : Text) : Line :=
  if sndr.cnt = sndr.totalCnt then .testOk sndr.cnt srcbuf else .testNok sndr.cnt srcbuf (sndr.totalCnt - sndr.cnt)

variable {verbose : Bool} {text : Text}

/-- The verdict is on the record that counts the packet, and leaves an empty one. -/
theorem handle_counted (s : Sndr) (p : Req) :
    (s.handle verbose text p).1 = (if p.remaining = 1 then .zero else s.counted p) ∧
      (s.handle verbose text p).2.filterMap Line.gap =
        (if p.seqno - s.rcvNxt ≠ 0 ∧ s.cnt ≠ 0 then [(p.seqno - s.rcvNxt).toNat] else []) ∧
      (s.handle verbose text p).2.filter Line.isVerdict =
        if p.remaining = 1 then [(s.counted p).verdict text] else [] := by
  have hnow : ∀ (c : Prop) [Decidable c] (n : UInt32), (if c then [Line.nowAt n text] else []).filterMap Line.gap = [] ∧
      (if c then [Line.nowAt n text] else []).filter Line.isVerdict = [] := by
    intro c _ n
    split <;> exact ⟨rfl, rfl⟩
  have hmissing : ∀ (c : Prop) [Decidable c] (n : UInt32),
      (if c then [Line.missing n text] else []).filterMap Line.gap = (if c then [n.toNat] else []) ∧
      (if c then [Line.missing n text] else []).filter Line.isVerdict = [] := by
    intro c _ n
    split <;> exact ⟨rfl, rfl⟩
  have hverdict : ∀ s : Sndr, [s.verdict text].filterMap Line.gap = [] ∧
      [s.verdict text].filter Line.isVerdict = [s.verdict text] := by
    intro s
    unfold Sndr.verdict
    split <;> exact ⟨rfl, rfl⟩
  by_cases hp : p.remaining = 1
  · have hlines : (s.handle verbose text p).2 =
        ((if p.seqno - s.rcvNxt ≠ 0 ∧ s.cnt ≠ 0 then [Line.missing (p.seqno - s.rcvNxt) text] else []) ++
          (if (s.cnt + 1) % 10000 = 0 ∧ verbose then [.nowAt (s.cnt + 1) text] else [])) ++
            [(s.counted p).verdict text] := by
      simp only [Sndr.handle, if_pos (Req.remaining_eq_one.mpr hp), Sndr.verdict, Sndr.counted]
      rfl
    rw [handle_of_last hp, hlines, List.filterMap_append, List.filterMap_append, List.filter_append, List.filter_append,
      (hmissing _ _).1, (hmissing _ _).2, (hnow _ _).1, (hnow _ _).2, (hverdict _).1, (hverdict _).2, if_pos hp, if_pos hp]
    simp
  · have hlines : (s.handle verbose text p).2 =
        (if p.seqno - s.rcvNxt ≠ 0 ∧ s.cnt ≠ 0 then [Line.missing (p.seqno - s.rcvNxt) text] else []) ++
          (if (s.cnt + 1) % 10000 = 0 ∧ verbose then [.nowAt (s.cnt + 1) text] else []) := by
      simp only [Sndr.handle, if_neg (mt Req.remaining_eq_one.mp hp)]
    rw [handle_of_not_last hp, hlines, List.filterMap_append, List.filter_append, (hmissing _ _).1, (hmissing _ _).2,
      (hnow _ _).1, (hnow _ _).2, if_neg hp, if_neg hp]
    simp [Sndr.counted]

/-- The gap to the expected number. -/
theorem toNat_gap {s : Sndr} {p : Req} (h : s.rcvNxt.toNat ≤ p.seq) :
    (p.seqno - s.rcvNxt).toNat = p.seq - s.rcvNxt.toNat := UInt32.toNat_sub_of_le _ _ h

/-! ## What is printed about a run -/

/-- The lines about some packets. -/
def linesOf (verbose : Bool) (text : Text) (s : Sndr) (reqs : List Req) : List Line :=
  (Slots.single (Sndr.handle verbose text) s reqs).flatMap Prod.snd

theorem linesOf_cons (s : Sndr) (p : Req) (reqs : List Req) :
    linesOf verbose text s (p :: reqs) =
      (s.handle verbose text p).2 ++ linesOf verbose text (s.handle verbose text p).1 reqs := rfl

/-- A record that is not empty notes every gap up to the last packet of the run. -/
theorem gaps_of_rest {s : Sndr} {reqs : List Req} (hcnt : s.cnt ≠ 0) (hlen : s.cnt.toNat + reqs.length < 2 ^ 32)
    (hlast : ∀ p ∈ reqs.dropLast, p.remaining ≠ 1) (hseq : ∀ p ∈ reqs, p.seq + 1 < 2 ^ 32)
    (hrising : Rising s.rcvNxt.toNat (reqs.map Req.seq)) :
    (linesOf verbose text s reqs).filterMap Line.gap =
      (gaps s.rcvNxt.toNat (reqs.map Req.seq)).filter fun n => n ≠ 0 := by
  induction reqs generalizing s with
  | nil => rfl
  | cons p reqs ih =>
    obtain ⟨hrec, hgap, -⟩ := @handle_counted verbose text s p
    have hnext : (p.seqno + 1).toNat = p.seq + 1 := by
      rw [add_one_toNat]
      exact Nat.mod_eq_of_lt (hseq p List.mem_cons_self)
    have hrest : (linesOf verbose text (s.handle verbose text p).1 reqs).filterMap Line.gap =
        (gaps (p.seq + 1) (reqs.map Req.seq)).filter fun n => n ≠ 0 := by
      cases reqs with
      | nil => rfl
      | cons q reqs =>
        have hp : p.remaining ≠ 1 := hlast p (by simp)
        rw [hrec, if_neg hp, ← hnext]
        rw [List.length_cons] at hlen
        apply ih
        · intro h0
          have hval := congrArg UInt32.toNat h0
          simp only [Sndr.counted, add_one_toNat] at hval
          rw [Nat.mod_eq_of_lt (by omega)] at hval
          exact absurd hval (Nat.succ_ne_zero _)
        · simp only [Sndr.counted, add_one_toNat]
          rw [Nat.mod_eq_of_lt (by omega)]
          omega
        · exact fun p' hp' => hlast p' (List.mem_cons_of_mem _ hp')
        · exact fun p' hp' => hseq p' (List.mem_cons_of_mem _ hp')
        · simp only [Sndr.counted, hnext]
          exact hrising.2
    have hzero : p.seqno - s.rcvNxt ≠ 0 ↔ p.seq - s.rcvNxt.toNat ≠ 0 := by
      rw [← toNat_gap hrising.1, ne_eq, ne_eq, ← UInt32.toNat_inj]
      rfl
    rw [linesOf_cons, List.filterMap_append, hgap, hrest, toNat_gap hrising.1, List.map_cons, gaps, List.filter_cons]
    simp only [hzero, hcnt, ne_eq, not_false_eq_true, and_true, decide_not, Bool.not_eq_true', decide_eq_false_iff_not]
    split <;> rfl

theorem linesOf_append (s : Sndr) (reqs reqs' : List Req) :
    linesOf verbose text s (reqs ++ reqs') =
      linesOf verbose text s reqs ++ linesOf verbose text (s.afterAll verbose text reqs) reqs' := by
  rw [linesOf, Slots.single_append, List.flatMap_append]
  rfl

/-- There is no verdict before the last packet. -/
theorem verdicts_of_not_last {s : Sndr} {reqs : List Req} (h : ∀ p ∈ reqs, p.remaining ≠ 1) :
    (linesOf verbose text s reqs).filter Line.isVerdict = [] := by
  induction reqs generalizing s with
  | nil => rfl
  | cons p reqs ih =>
    rw [linesOf_cons, List.filter_append, (handle_counted s p).2.2, if_neg (h p List.mem_cons_self),
      ih fun q hq => h q (List.mem_cons_of_mem _ hq)]
    rfl

/-! ## A run from an empty record on -/

variable {count : UInt32} {delivered before : List Req} {last : Req}

/-- The last packet of a run. -/
theorem last_eq (h : (mcastTransmitter count).getLast? = some last) : last.remaining = 1 ∧ last.seq + 1 = count.toNat := by
  have hcount := count.toNat_lt
  have hne : count.toNat ≠ 0 := by
    intro h0
    rw [mcastTransmitter, h0] at h
    cases h
  obtain ⟨l, hl⟩ := List.getLast?_eq_some_iff.mp h
  obtain ⟨hsum, -⟩ := seq_of_mem (List.mem_of_getLast? h)
  have hseq := congrArg (List.map Req.seq) hl
  rw [mcastTransmitter_seq, List.map_append] at hseq
  have hlen := congrArg List.length hl
  rw [mcastTransmitter, transmitFrom_length, List.length_append, List.length_singleton] at hlen
  have hget := congrArg (fun l => l[count.toNat - 1]?) hseq
  simp only [List.map_cons, List.map_nil] at hget
  rw [List.getElem?_append_right (by rw [List.length_map]; omega), List.length_map,
    show count.toNat - 1 - l.length = 0 by omega, List.getElem?_range' (by omega)] at hget
  simp at hget
  omega

/-- What is counted with the last packet: the packets that arrived, of those that the first one announced. -/
theorem counted_last (verbose : Bool) (text : Text) {first : Req} {rest : List Req} (hd : before ++ [last] = first :: rest)
    (hbefore : ∀ p ∈ before, p.remaining ≠ 1) (hlen : (first :: rest).length < 2 ^ 32) :
    ((Sndr.zero.afterAll verbose text before).counted last).cnt.toNat = (first :: rest).length ∧
      ((Sndr.zero.afterAll verbose text before).counted last).totalCnt = first.remainingPkts := by
  rw [← hd, List.length_append, List.length_singleton] at hlen ⊢
  have hcnt := cnt_afterAll verbose text .zero hbefore
  rw [show Sndr.zero.cnt.toNat = 0 from rfl, Nat.zero_add, Nat.mod_eq_of_lt (by omega)] at hcnt
  constructor
  · rw [Sndr.counted, add_one_toNat, hcnt, Nat.mod_eq_of_lt hlen]
  · cases before with
    | nil =>
      obtain ⟨rfl, -⟩ := List.cons.inj hd
      rfl
    | cons q before =>
      obtain ⟨rfl, -⟩ := List.cons.inj hd
      have hne : (Sndr.zero.afterAll verbose text (q :: before)).cnt ≠ 0 := by
        intro h0
        rw [h0] at hcnt
        nomatch hcnt
      rw [Sndr.counted, if_neg hne]
      exact totalCnt_afterAll verbose text rfl hbefore (by omega)

/-- Nothing is noted at the first packet, and at the others the gaps. -/
theorem gaps_of_run (verbose : Bool) (text : Text) {first : Req} {rest : List Req}
    (hsub : (first :: rest).Sublist (mcastTransmitter count)) (hbefore : ∀ p ∈ (first :: rest).dropLast, p.remaining ≠ 1) :
    (linesOf verbose text .zero (first :: rest)).filterMap Line.gap =
      (gaps (first.seq + 1) (rest.map Req.seq)).filter fun n => n ≠ 0 := by
  have hcount := count.toNat_lt
  have hlen := hsub.length_le
  rw [mcastTransmitter, transmitFrom_length, List.length_cons] at hlen
  have hseq : ∀ p ∈ first :: rest, p.seq + 1 < 2 ^ 32 := by
    intro p hp
    obtain ⟨hsum, hpos⟩ := seq_of_mem (hsub.subset hp)
    omega
  have hrising : Rising (first.seq + 1) (rest.map Req.seq) := by
    have hseqs := hsub.map Req.seq
    rw [mcastTransmitter_seq] at hseqs
    exact (Rising.of_sublist hseqs).2
  rw [linesOf_cons, List.filterMap_append, (handle_counted _ first).2.1, if_neg (by simp [Sndr.zero]), List.nil_append]
  cases rest with
  | nil => rfl
  | cons q rest =>
    have hfirst : first.remaining ≠ 1 := hbefore first List.mem_cons_self
    have hnext : (first.seqno + 1).toNat = first.seq + 1 := by
      rw [add_one_toNat]
      exact Nat.mod_eq_of_lt (hseq first List.mem_cons_self)
    rw [(handle_counted _ first).1, if_neg hfirst, ← hnext]
    apply gaps_of_rest
    · exact show (0 + 1 : UInt32) ≠ 0 by decide
    · show 1 + (q :: rest).length < 2 ^ 32
      omega
    · exact fun p hp => hbefore p (List.mem_cons_of_mem _ hp)
    · exact fun p hp => hseq p (List.mem_cons_of_mem _ hp)
    · show Rising (first.seqno + 1).toNat _
      rw [hnext]
      exact hrising

/-- The gaps of a run sum to what is lost. -/
theorem sum_gaps (verbose : Bool) (text : Text) (hsub : delivered.Sublist (mcastTransmitter count))
    (hlast : (mcastTransmitter count).getLast? = some last) (hmem : last ∈ delivered) :
    ((linesOf verbose text .zero delivered).filterMap Line.gap).sum =
      (lostAfterFirst (mcastTransmitter count) delivered).length := by
  have hcount := count.toNat_lt
  obtain ⟨hone, hend⟩ := last_eq hlast
  obtain ⟨before, after, rfl⟩ := List.append_of_mem hmem
  obtain ⟨rfl, hbefore⟩ := last_of_remaining hcount hsub hone
  have hget : ((before ++ [last]).map Req.seq).getLast? = some last.seq := by
    rw [List.getLast?_map, List.getLast?_concat]
    rfl
  have hdrop : (before ++ [last]).dropLast = before := List.dropLast_concat
  obtain ⟨first, rest, hd⟩ : ∃ first rest, before ++ [last] = first :: rest :=
    List.exists_cons_of_ne_nil (List.append_ne_nil_of_right_ne_nil before (List.cons_ne_nil last []))
  rw [hd] at hsub hget hdrop ⊢
  have hlost := length_lostAfterFirst hcount hsub
  obtain ⟨hfirst, -⟩ := seq_of_mem (hsub.subset List.mem_cons_self)
  have hseqs := hsub.map Req.seq
  rw [mcastTransmitter_seq] at hseqs
  have hsum := gaps_sum (Rising.of_sublist hseqs).2
  -- the number that is expected in the end is the one behind the last packet
  have hexpected : expected (first.seq + 1) (rest.map Req.seq) = last.seq + 1 := @expected_of_getLast? first.seq _ _ hget
  rw [hexpected, List.length_map] at hsum
  rw [List.length_cons] at hlost
  rw [gaps_of_run verbose text hsub (hdrop ▸ hbefore), sum_filter_ne_zero, mcastTransmitter]
  omega

/-! ## The receiver -/

/-- The receiver after some messages. -/
def receiveAll (verbose : Bool) : Receiver → List Msg → Option Receiver
  | st, [] => some st
  | st, m :: ms => (receive verbose st m).bind fun p => receiveAll verbose p.1 ms

/-- A record after some messages is what its own messages make of it. -/
theorem receiveAll_sndrs (verbose : Bool) (k : UInt32) (st : Receiver) {ms : List Msg} (hne : ∀ m ∈ ms, m.payload ≠ []) :
    ∃ st', receiveAll verbose st ms = some st' ∧
      st'.sndrs k = Slots.after (handleView verbose) (st.sndrs k) ((views st.buf ms).filter fun v => slot v.1.src = k) := by
  induction ms generalizing st with
  | nil => exact ⟨st, rfl, rfl⟩
  | cons m ms ih =>
    have hm : m.payload ≠ [] := hne m List.mem_cons_self
    rw [receiveAll, receive, if_neg hm]
    obtain ⟨st', hst', hk⟩ := ih ⟨overlay bufLen st.buf m.payload, Function.update st.sndrs (slot m.src)
      (handleView verbose (st.sndrs (slot m.src)) (m, reqOf (overlay bufLen st.buf m.payload))).1⟩
      fun m' hm' => hne m' (List.mem_cons_of_mem _ hm')
    refine ⟨st', hst', ?_⟩
    rw [hk, views, List.filter_cons]
    by_cases hslot : slot m.src = k
    · subst hslot
      simp [Slots.after]
    · simp [hslot, Function.update_of_ne (Ne.symm hslot)]

/-- The messages of packets, as they arrive from `src`. -/
def msgsOf (src : TipcAddr) (len : ℕ) (reqs : List Req) : List Msg := reqs.map fun p => ⟨src, packet len p⟩

section
variable {src : TipcAddr} {len : ℕ} {reqs : List Req} {ms : List Msg} {st : Receiver}

theorem long_of_msgsOf (hlen : sizeofReq ≤ len) (hms : mates src ms = msgsOf src len reqs) :
    ∀ m ∈ mates src ms, sizeofReq ≤ m.payload.length := by
  intro m hm
  rw [hms] at hm
  obtain ⟨p, -, rfl⟩ := List.mem_map.mp hm
  exact length_packet hlen p

theorem map_msgsOf (src : TipcAddr) (hlen : sizeofReq ≤ len) (reqs : List Req) :
    ((msgsOf src len reqs).map fun m => (m, reqOf m.payload)) = reqs.map fun p => (⟨src, packet len p⟩, p) := by
  rw [msgsOf, List.map_map]
  apply List.map_congr_left
  intro p _
  show (_, reqOf (packet len p)) = _
  rw [reqOf_packet hlen]

/-- What is printed about `src`, where its record sees no other messages. -/
theorem linesAbout_msgsOf (hlen : sizeofReq ≤ len) (hne : ∀ m ∈ ms, m.payload ≠ [])
    (hms : mates src ms = msgsOf src len reqs) :
    linesAbout src (mcastReceiver verbose st ms) =
      linesOf verbose (tipcDtoa src.domain sizeofSrcbuf) (st.sndrs (slot src)) reqs := by
  rw [linesAbout_eq verbose src hne (long_of_msgsOf hlen hms), hms, map_msgsOf src hlen]
  clear hms
  generalize st.sndrs (slot src) = s
  induction reqs generalizing s with
  | nil => rfl
  | cons p reqs ih =>
    rw [List.map_cons, Slots.single, List.filter_cons_of_pos (by simp), List.flatMap_cons, linesOf_cons]
    exact congrArg _ (ih _)

/-- The record of `src` afterwards. -/
theorem after_msgsOf (verbose : Bool) (st : Receiver) (hlen : sizeofReq ≤ len) (hne : ∀ m ∈ ms, m.payload ≠ [])
    (hms : mates src ms = msgsOf src len reqs) :
    ∃ st', receiveAll verbose st ms = some st' ∧
      st'.sndrs (slot src) = (st.sndrs (slot src)).afterAll verbose (tipcDtoa src.domain sizeofSrcbuf) reqs := by
  obtain ⟨st', hst', hk⟩ := receiveAll_sndrs verbose (slot src) st hne
  refine ⟨st', hst', ?_⟩
  have hviews := views_filter (fun m => slot m.src = slot src) st.buf fun m hm hslot =>
    long_of_msgsOf hlen hms m (List.mem_filter.mpr ⟨hm, hslot⟩)
  rw [hk, hviews, show ms.filter _ = mates src ms from rfl, hms, map_msgsOf src hlen, Slots.after, List.foldl_map]
  rfl

end

/-- What the last packet of a run finds, and the verdict on it. -/
theorem verdict_of_last (verbose : Bool) (text : Text) (hsub : (before ++ [last]).Sublist (mcastTransmitter count))
    (hlast : last.remaining = 1) :
    let s := (Sndr.zero.afterAll verbose text before).counted last
    let lost := (lostAfterFirst (mcastTransmitter count) (before ++ [last])).length
    (s.totalCnt - s.cnt).toNat = lost ∧
      s.verdict text = if lost = 0 then .testOk (.ofNat (before ++ [last]).length) text
        else .testNok (.ofNat (before ++ [last]).length) text (.ofNat lost) := by
  intro s lost
  have hcount := count.toNat_lt
  obtain ⟨-, hbefore⟩ := last_of_remaining hcount hsub hlast
  obtain ⟨first, rest, hd⟩ : ∃ first rest, before ++ [last] = first :: rest :=
    List.exists_cons_of_ne_nil (List.append_ne_nil_of_right_ne_nil before (List.cons_ne_nil last []))
  have hlen := hsub.length_le
  rw [mcastTransmitter, transmitFrom_length] at hlen
  have hsum : lost + (before ++ [last]).length = first.remaining := by
    rw [hd] at hsub
    have h := length_lostAfterFirst hcount hsub
    rwa [← hd] at h
  obtain ⟨hcnt, htotal⟩ := counted_last verbose text hd hbefore (by rw [← hd]; omega)
  rw [← hd] at hcnt
  have hcnt' : s.cnt = .ofNat (before ++ [last]).length := by
    apply UInt32.toNat_inj.mp
    rw [hcnt, UInt32.toNat_ofNat_of_lt' (by show _ < 2 ^ 32; omega)]
  have hdiff : (s.totalCnt - s.cnt).toNat = lost := by
    rw [htotal, UInt32.toNat_sub_of_le _ _ (UInt32.le_iff_toNat_le.mpr (by
      show s.cnt.toNat ≤ first.remaining
      rw [hcnt]
      omega))]
    show first.remaining - s.cnt.toNat = lost
    rw [hcnt]
    omega
  refine ⟨hdiff, ?_⟩
  have hzero : s.cnt = s.totalCnt ↔ lost = 0 := by
    rw [← hdiff, ← UInt32.toNat_inj, htotal]
    show s.cnt.toNat = first.remaining ↔ (first.remainingPkts - s.cnt).toNat = 0
    rw [← htotal, hdiff, hcnt]
    omega
  rw [Sndr.verdict, if_congr hzero rfl rfl, hcnt', ← hcnt', ← hdiff, UInt32.ofNat_toNat]

/-- **Losses are accounted for.** Of a run of a transmitter that reaches its last packet, with messages that hold a
    packet, and that a receiver with an empty record for the node takes in, whatever other nodes with other records
    send in between: the gaps that are printed sum to the packets lost after the first one that arrives, so does the
    count of the packets against the one that the first announces, the verdict is `Test OK` if this is 0 and else
    `Test NOK` with it, and the record is empty again. -/
theorem losses_accounted (verbose : Bool) (hsub : delivered.Sublist (mcastTransmitter count))
    (hlast : (mcastTransmitter count).getLast? = some last) (hmem : last ∈ delivered) {len : ℕ} (hlen : sizeofReq ≤ len)
    {src : TipcAddr} {st : Receiver} (hst : st.sndrs (slot src) = .zero) {ms : List Msg} (hne : ∀ m ∈ ms, m.payload ≠ [])
    (hms : mates src ms = msgsOf src len delivered) :
    let lines := linesAbout src (mcastReceiver verbose st ms)
    let lost := (lostAfterFirst (mcastTransmitter count) delivered).length
    let srcbuf := tipcDtoa src.domain sizeofSrcbuf
    (lines.filterMap Line.gap).sum = lost ∧
    (∀ before m after, ms = before ++ m :: after → m.src = src → reqOf m.payload = last →
      ∃ st', receiveAll verbose st before = some st' ∧
        (((st'.sndrs (slot src)).counted last).totalCnt - ((st'.sndrs (slot src)).counted last).cnt).toNat = lost) ∧
    lines.filter Line.isVerdict =
      [if lost = 0 then .testOk (.ofNat delivered.length) srcbuf
        else .testNok (.ofNat delivered.length) srcbuf (.ofNat lost)] ∧
    ∃ st', receiveAll verbose st ms = some st' ∧ st'.sndrs (slot src) = .zero := by
  intro lines lost srcbuf
  have hcount := count.toNat_lt
  obtain ⟨hone, -⟩ := last_eq hlast
  obtain ⟨before, after, rfl⟩ := List.append_of_mem hmem
  obtain ⟨rfl, hbefore⟩ := last_of_remaining hcount hsub hone
  have hlines : lines = linesOf verbose srcbuf .zero (before ++ [last]) :=
    (linesAbout_msgsOf hlen hne hms).trans (by rw [hst])
  obtain ⟨hdiff, hverdict⟩ := verdict_of_last verbose srcbuf hsub hone
  refine ⟨?_, ?_, ?_, ?_⟩
  · rw [hlines]
    exact sum_gaps verbose srcbuf hsub hlast hmem
  · intro msBefore m msAfter hsplit hsrc hreq
    -- the message of the last packet is the last one that its record sees
    have hm : mates src ms = mates src msBefore ++ m :: mates src msAfter := by
      rw [hsplit, mates, List.filter_append, List.filter_cons_of_pos (by simp [hsrc])]
      rfl
    obtain ⟨d₁, d₂, hd, hd₁, hd₂⟩ := List.map_eq_append_iff.mp (hms.symm.trans hm)
    obtain ⟨p, d₃, rfl, rfl, -⟩ := List.map_eq_cons_iff.mp hd₂
    rw [reqOf_packet hlen] at hreq
    subst hreq
    obtain ⟨rfl, -⟩ := last_of_remaining hcount (hd ▸ hsub) hone
    obtain rfl : before = d₁ := List.append_cancel_right hd
    obtain ⟨st', hst', hrec⟩ := after_msgsOf verbose st hlen
      (fun m' hm' => hne m' (hsplit ▸ List.mem_append_left _ hm')) hd₁.symm
    refine ⟨st', hst', ?_⟩
    rw [hrec, hst]
    exact hdiff
  · rw [hlines, linesOf_append, List.filter_append, verdicts_of_not_last hbefore, linesOf_cons, List.filter_append,
      (handle_counted _ last).2.2, if_pos hone, hverdict]
    rfl
  · obtain ⟨st', hst', hrec⟩ := after_msgsOf verbose st hlen hne hms
    refine ⟨st', hst', ?_⟩
    rw [hrec, afterAll_concat, handle_of_last hone]

/-- Of four packets the first and the third are lost. -/
theorem losses_accounted_four :
    ((linesAbout node1 (mcastReceiver false .start (msgsOf node1 8 [⟨1, 3⟩, ⟨3, 1⟩]))).filterMap Line.gap).sum = 1 :=
  have hsub : [⟨1, 3⟩, ⟨3, 1⟩].Sublist (mcastTransmitter 4) := by decide
  have hlast : (mcastTransmitter 4).getLast? = some ⟨3, 1⟩ := rfl
  (losses_accounted false hsub hlast (by decide) (by decide : sizeofReq ≤ 8) rfl (by decide) rfl).1

end Multicast
end Tipcutils
