import Mathlib.Data.List.Basic
import Mathlib.Data.List.Induction
import Tipcutils.Multicast.Receiver

/-!
# `Multicast.Runs` — the verdicts of the receiver over the runs of one node

A transmitter run after the other on one node, each with any of its packets lost. The record of the node is only reset
by a packet with `remaining_pkts` 1, so a run whose last packet is lost leaves its count to the next one
(**`Carried`**). **`testOk_sound_iff`**: a verdict `Test OK` is right exactly where nothing is left over.
-/

namespace Tipcutils
namespace Multicast

open Tipc Decimal

/-! ## The packets of a run -/

theorem transmitFrom_length (seqno : UInt32) (count : ℕ) : (transmitFrom seqno count).length = count := by
  induction count generalizing seqno with
  | zero => rfl
  | succ count ih => exact congrArg (· + 1) (ih _)

/-- The number of remaining packets as a natural number. -/
def Req.remaining (r : Req) : ℕ := r.remainingPkts.toNat

theorem Req.remaining_eq_one {r : Req} : r.remainingPkts = 1 ↔ r.remaining = 1 := by
  rw [Req.remaining, ← UInt32.toNat_inj]
  rfl

theorem remaining_le_of_mem {seqno : UInt32} {count : ℕ} {p : Req} (hc : count < 2 ^ 32)
    (h : p ∈ transmitFrom seqno count) : 1 ≤ p.remaining ∧ p.remaining ≤ count := by
  induction count generalizing seqno with
  | zero => nomatch h
  | succ count ih =>
    rcases List.mem_cons.mp h with rfl | hmem
    · have hval : Req.remaining ⟨seqno + 1, .ofNat (count + 1)⟩ = count + 1 := by
        simp only [Req.remaining, UInt32.toNat_ofNat']
        omega
      rw [hval]
      omega
    · have := ih (by omega) hmem
      omega

/-- The packets of a run count down. -/
theorem transmitFrom_pairwise (seqno : UInt32) {count : ℕ} (hc : count < 2 ^ 32) :
    (transmitFrom seqno count).Pairwise fun p q => q.remaining < p.remaining := by
  induction count generalizing seqno with
  | zero => exact List.Pairwise.nil
  | succ count ih =>
    refine List.Pairwise.cons (fun q hq => ?_) (ih _ (by omega))
    have hle := (remaining_le_of_mem (by omega) hq).2
    have hval : Req.remaining ⟨seqno + 1, .ofNat (count + 1)⟩ = count + 1 := by
      simp only [Req.remaining, UInt32.toNat_ofNat']
      omega
    omega

/-- Packets of a run that are as many as the first of them announces are all packets from there on. -/
theorem suffix_of_remaining {seqno : UInt32} {count : ℕ} (hc : count < 2 ^ 32) {p : Req} {l : List Req}
    (h : (p :: l).Sublist (transmitFrom seqno count)) (hlen : p.remaining = (p :: l).length) :
    p :: l <:+ transmitFrom seqno count := by
  induction count generalizing seqno with
  | zero => nomatch h
  | succ count ih =>
    rw [transmitFrom] at h ⊢
    cases h with
    | cons _ h => exact (ih (by omega) h).trans (List.suffix_cons _ _)
    | cons_cons _ h =>
      -- the first packet of the run
      have hval : Req.remaining ⟨seqno + 1, .ofNat (count + 1)⟩ = count + 1 := by
        simp only [Req.remaining, UInt32.toNat_ofNat']
        omega
      rw [hval, List.length_cons] at hlen
      obtain rfl := h.eq_of_length (by rw [transmitFrom_length]; omega)
      exact List.suffix_refl _

/-- Of the packets of a run only the last has one remaining. -/
theorem last_of_remaining {seqno : UInt32} {count : ℕ} (hc : count < 2 ^ 32) {before rest : List Req} {p : Req}
    (h : (before ++ p :: rest).Sublist (transmitFrom seqno count)) (hp : p.remaining = 1) :
    rest = [] ∧ ∀ q ∈ before, q.remaining ≠ 1 := by
  have hpair := (transmitFrom_pairwise seqno hc).sublist h
  obtain ⟨-, hrest, hbefore⟩ := List.pairwise_append.mp hpair
  constructor
  · cases rest with
    | nil => rfl
    | cons q rest =>
      have hq := (List.pairwise_cons.mp hrest).1 q List.mem_cons_self
      have hmem : q ∈ transmitFrom seqno count := h.subset (by simp)
      have := (remaining_le_of_mem hc hmem).1
      omega
  · intro q hq
    have := hbefore q hq p List.mem_cons_self
    omega

/-! ## The record -/

variable {verbose : Bool} {text : Text}

theorem handle_of_last {s : Sndr} {p : Req} (hp : p.remaining = 1) : (s.handle verbose text p).1 = .zero := by
  simp [Sndr.handle, Req.remaining_eq_one.mpr hp]

theorem handle_of_not_last {s : Sndr} {p : Req} (hp : p.remaining ≠ 1) :
    (s.handle verbose text p).1 = ⟨p.seqno + 1, s.cnt + 1, if s.cnt = 0 then p.remainingPkts else s.totalCnt⟩ := by
  have hne : p.remainingPkts ≠ 1 := fun h => hp (Req.remaining_eq_one.mp h)
  simp [Sndr.handle, hne]

/-- A `Test OK` comes with the last packet, and gives the count, which agrees with the expected one. -/
theorem testOk_of_mem {s : Sndr} {p : Req} {n : UInt32} {src : Text}
    (h : Line.testOk n src ∈ (s.handle verbose text p).2) :
    p.remaining = 1 ∧ n = s.cnt + 1 ∧ n = if s.cnt = 0 then p.remainingPkts else s.totalCnt := by
  by_cases hp : p.remainingPkts = 1
  · refine ⟨Req.remaining_eq_one.mp hp, ?_⟩
    simp only [Sndr.handle, hp, if_true, List.mem_append, List.mem_singleton] at h
    rcases h with (h | h) | h
    · split at h
      · simp at h
      · nomatch h
    · split at h
      · simp at h
      · nomatch h
    · by_cases heq : s.cnt + 1 = if s.cnt = 0 then 1 else s.totalCnt
      · rw [if_pos heq] at h
        obtain ⟨rfl, -⟩ := Line.testOk.inj h
        exact ⟨rfl, by rw [hp]; exact heq⟩
      · rw [if_neg heq] at h
        nomatch h
  · simp only [Sndr.handle, hp, if_false, List.mem_append] at h
    rcases h with h | h
    · split at h
      · simp at h
      · nomatch h
    · split at h
      · simp at h
      · nomatch h

/-- The record after some packets. -/
def Sndr.afterAll (verbose : Bool) (text : Text) (s : Sndr) (reqs : List Req) : Sndr :=
  Slots.after (Sndr.handle verbose text) s reqs

theorem afterAll_concat (s : Sndr) (reqs : List Req) (p : Req) :
    s.afterAll verbose text (reqs ++ [p]) = ((s.afterAll verbose text reqs).handle verbose text p).1 :=
  Slots.after_append _ _ _

theorem add_one_toNat (x : UInt32) : (x + 1).toNat = (x.toNat + 1) % 2 ^ 32 := by
  simp [UInt32.toNat_add]

/-- Packets that are no last ones are counted. -/
theorem cnt_afterAll (verbose : Bool) (text : Text) (s : Sndr) {reqs : List Req} (h : ∀ p ∈ reqs, p.remaining ≠ 1) :
    (s.afterAll verbose text reqs).cnt.toNat = (s.cnt.toNat + reqs.length) % 2 ^ 32 := by
  induction reqs using List.reverseRecOn with
  | nil =>
    have := s.cnt.toNat_lt
    show s.cnt.toNat = (s.cnt.toNat + 0) % 2 ^ 32
    omega
  | append_singleton reqs p ih =>
    have hp := h p (List.mem_append_right _ (List.mem_singleton_self p))
    have hcnt := ih fun q hq => h q (List.mem_append_left _ hq)
    rw [afterAll_concat, handle_of_not_last hp, add_one_toNat, hcnt, List.length_append, List.length_singleton]
    omega

/-- From an empty record on, the first packet of a run sets the expected count. -/
theorem totalCnt_afterAll (verbose : Bool) (text : Text) {s : Sndr} (hs : s.cnt = 0) {p : Req} {reqs : List Req}
    (h : ∀ q ∈ p :: reqs, q.remaining ≠ 1) (hlen : (p :: reqs).length < 2 ^ 32) :
    (s.afterAll verbose text (p :: reqs)).totalCnt = p.remainingPkts := by
  induction reqs using List.reverseRecOn with
  | nil =>
    show (s.handle verbose text p).1.totalCnt = _
    rw [handle_of_not_last (h p List.mem_cons_self)]
    simp [hs]
  | append_singleton reqs q ih =>
    rw [← List.cons_append] at h hlen ⊢
    have hq := h q (List.mem_append_right _ (List.mem_singleton_self q))
    have hold : ∀ r ∈ p :: reqs, r.remaining ≠ 1 := fun r hr => h r (List.mem_append_left _ hr)
    simp only [List.length_append, List.length_cons, List.length_nil] at hlen
    have hcnt := cnt_afterAll verbose text s hold
    have hne : (s.afterAll verbose text (p :: reqs)).cnt ≠ 0 := by
      intro h0
      rw [h0, hs] at hcnt
      simp at hcnt
      omega
    rw [afterAll_concat, handle_of_not_last hq, if_neg hne]
    exact ih hold (by simp; omega)

/-- The packets since the last one with `remaining_pkts` 1. -/
def carried (reqs : List Req) : ℕ := (reqs.reverse.takeWhile fun p => p.remaining ≠ 1).length

/-- The record counts the packets that are carried over. -/
theorem cnt_carried (verbose : Bool) (text : Text) (reqs : List Req) :
    (Sndr.zero.afterAll verbose text reqs).cnt.toNat = carried reqs % 2 ^ 32 := by
  induction reqs using List.reverseRecOn with
  | nil => rfl
  | append_singleton reqs p ih =>
    rw [afterAll_concat, carried, List.reverse_append, List.reverse_singleton, List.singleton_append,
      List.takeWhile_cons]
    by_cases hp : p.remaining = 1
    · rw [handle_of_last hp]
      simp [hp, Sndr.zero]
    · rw [handle_of_not_last hp, add_one_toNat, ih]
      simp only [ne_eq, hp, not_false_eq_true, decide_true, if_true, List.length_cons]
      rw [carried]
      simp only [ne_eq]
      omega

/-! ## The verdicts -/

/-- One run of a transmitter, and the packets of it that arrive. -/
structure Run where
  inst : UInt32
  len : ℕ
  count : UInt32
  delivered : List Req
  len_ok : sizeofReq ≤ len
  sub : delivered.Sublist (mcastTransmitter count)

/-- The messages that arrive of a run on the node `domain`. -/
def Run.msgs (domain : UInt32) (r : Run) : List Msg := r.delivered.map fun p => ⟨⟨0, r.inst, domain⟩, packet r.len p⟩

/-- What the receiver prints about the run `r` between the runs `earlier` and `later`. -/
def reportOf (verbose : Bool) (domain : UInt32) (earlier : List Run) (r : Run) (later : List Run) : List Line :=
  (((mcastReceiver verbose .start ((earlier ++ r :: later).flatMap (Run.msgs domain))).drop
    (earlier.flatMap (Run.msgs domain)).length).take (r.msgs domain).length).flatMap Prod.snd

/-- The packets that arrive of some runs. -/
def arrived (runs : List Run) : List Req := runs.flatMap Run.delivered

theorem Run.msgs_length (domain : UInt32) (r : Run) : (r.msgs domain).length = r.delivered.length := List.length_map _

theorem msgs_length (domain : UInt32) (runs : List Run) :
    (runs.flatMap (Run.msgs domain)).length = (arrived runs).length := by
  simp only [arrived, List.length_flatMap, Run.msgs_length]

/-- Every message shows its packet, and comes from the node. -/
theorem Run.msgs_spec {domain : UInt32} {r : Run} {m : Msg} (h : m ∈ r.msgs domain) :
    sizeofReq ≤ m.payload.length ∧ m.src.domain = domain := by
  obtain ⟨p, -, rfl⟩ := List.mem_map.mp h
  exact ⟨length_packet r.len_ok p, rfl⟩

theorem reqOf_msgs (domain : UInt32) (runs : List Run) :
    ((runs.flatMap (Run.msgs domain)).map fun m => reqOf m.payload) = arrived runs := by
  rw [List.map_flatMap, arrived]
  apply List.flatMap_congr
  intro r _
  rw [Run.msgs, List.map_map]
  apply List.map_id''
  intro p
  exact reqOf_packet r.len_ok p

/-- Packets of one node are handled with one text. -/
theorem single_handleView {domain : UInt32} {vs : List (Msg × Req)} (h : ∀ v ∈ vs, v.1.src.domain = domain) (s : Sndr) :
    (Slots.single (handleView verbose) s vs).map Prod.snd =
      (Slots.single (Sndr.handle verbose (tipcDtoa domain sizeofSrcbuf)) s (vs.map Prod.snd)).map Prod.snd := by
  induction vs generalizing s with
  | nil => rfl
  | cons v vs ih =>
    have hv := h v List.mem_cons_self
    simp only [Slots.single, List.map_cons, handleView, hv]
    rw [ih fun v' hv' => h v' (List.mem_cons_of_mem _ hv')]

/-- The messages of the runs of one node are one sequence of packets for one record. -/
theorem mcastReceiver_runs (verbose : Bool) (domain : UInt32) (runs : List Run) :
    (mcastReceiver verbose .start (runs.flatMap (Run.msgs domain))).map Prod.snd =
      (Slots.single (Sndr.handle verbose (tipcDtoa domain sizeofSrcbuf)) .zero (arrived runs)).map Prod.snd := by
  have hspec : ∀ m ∈ runs.flatMap (Run.msgs domain), sizeofReq ≤ m.payload.length ∧ m.src.domain = domain := by
    intro m hm
    obtain ⟨r, -, hr⟩ := List.mem_flatMap.mp hm
    exact Run.msgs_spec hr
  have hne : ∀ m ∈ runs.flatMap (Run.msgs domain), m.payload ≠ [] := by
    intro m hm hnil
    have := (hspec m hm).1
    rw [hnil] at this
    exact absurd this (by decide)
  have hviews : views Receiver.start.buf (runs.flatMap (Run.msgs domain)) =
      (runs.flatMap (Run.msgs domain)).map fun m => (m, reqOf m.payload) := by
    have h := views_filter (fun _ => true) Receiver.start.buf
      fun m (hm : m ∈ runs.flatMap (Run.msgs domain)) _ => (hspec m hm).1
    rw [List.filter_eq_self.mpr fun _ _ => rfl, List.filter_eq_self.mpr fun _ _ => rfl] at h
    exact h
  have hdomain : ∀ v ∈ (runs.flatMap (Run.msgs domain)).map fun m => (m, reqOf m.payload),
      v.1.src.domain = domain := by
    intro v hv
    obtain ⟨m, hm, rfl⟩ := List.mem_map.mp hv
    exact (hspec m hm).2
  have hslot : ∀ v ∈ (runs.flatMap (Run.msgs domain)).map fun m => (m, reqOf m.payload),
      slot v.1.src = domain &&& maxRcvrs := fun v hv => by rw [slot, hdomain v hv]
  rw [mcastReceiver_eq verbose .start hne, hviews, Slots.run_eq_single _ hslot, List.map_map]
  show (Slots.single (handleView verbose) Sndr.zero _).map Prod.snd = _
  rw [single_handleView hdomain, List.map_map]
  congr 2
  exact reqOf_msgs domain runs

/-- What is printed about a run comes from its packets and the record that the earlier runs leave. -/
theorem reportOf_eq (verbose : Bool) (domain : UInt32) (earlier : List Run) (r : Run) (later : List Run) :
    reportOf verbose domain earlier r later =
      (Slots.single (Sndr.handle verbose (tipcDtoa domain sizeofSrcbuf))
        (Sndr.zero.afterAll verbose (tipcDtoa domain sizeofSrcbuf) (arrived earlier)) r.delivered).flatMap
          Prod.snd := by
  have hall : arrived (earlier ++ r :: later) = arrived earlier ++ (r.delivered ++ arrived later) := by
    simp [arrived]
  rw [reportOf, List.flatMap_def, List.map_take, List.map_drop, mcastReceiver_runs, hall,
    Slots.single_append, Slots.single_append, msgs_length, Run.msgs_length, List.map_append,
    List.drop_left' (by rw [List.length_map, Slots.length_single]), List.map_append,
    List.take_left' (by rw [List.length_map, Slots.length_single])]
  rfl

/-- **When a verdict is right.** Of the runs of one node, each with messages that hold a packet and with any packets
    lost: where the receiver prints `Test OK` about a run, then no packet of the run is lost from the first one that
    arrived on, and the printed count is that of the packets that arrived, if and only if the packets that arrived
    of earlier runs since the last packet with `remaining_pkts` 1 are none (or a multiple of 2^32). -/
theorem testOk_sound_iff (verbose : Bool) (domain : UInt32) (earlier : List Run) (r : Run) (later : List Run)
    {n : UInt32} {src : Text} (h : .testOk n src ∈ reportOf verbose domain earlier r later) :
    (r.delivered <:+ mcastTransmitter r.count ∧ n.toNat = r.delivered.length) ↔
      carried (arrived earlier) % 2 ^ 32 = 0 := by
  rw [reportOf_eq] at h
  obtain ⟨⟨p, lines⟩, hmem, hline⟩ := List.mem_flatMap.mp h
  obtain ⟨before, rest, hdelivered, hlines⟩ := Slots.mem_single hmem
  rw [hlines] at hline
  obtain ⟨hp, hn, htotal⟩ := testOk_of_mem hline
  have hcount := r.count.toNat_lt
  have hsub := r.sub
  rw [hdelivered] at hsub
  -- the verdict comes with the last packet of the run
  obtain ⟨rfl, hbefore⟩ := last_of_remaining hcount hsub hp
  have hlen := hsub.length_le
  rw [mcastTransmitter, transmitFrom_length, List.length_append, List.length_singleton] at hlen
  rw [← cnt_carried verbose (tipcDtoa domain sizeofSrcbuf)]
  have hs := (Sndr.zero.afterAll verbose (tipcDtoa domain sizeofSrcbuf) (arrived earlier)).cnt.toNat_lt
  generalize Sndr.zero.afterAll verbose (tipcDtoa domain sizeofSrcbuf) (arrived earlier) = s at hn htotal hs ⊢
  have hcnt := cnt_afterAll verbose (tipcDtoa domain sizeofSrcbuf) s hbefore
  have hnval : n.toNat = (s.cnt.toNat + before.length + 1) % 2 ^ 32 := by
    rw [hn, add_one_toNat]
    show ((s.afterAll verbose (tipcDtoa domain sizeofSrcbuf) before).cnt.toNat + 1) % 2 ^ 32 = _
    rw [hcnt]
    omega
  rw [hdelivered, List.length_append, List.length_singleton]
  constructor
  · -- a record that is not empty adds to the count
    rintro ⟨-, hright⟩
    omega
  · intro hzero
    have hs0 : s.cnt = 0 := UInt32.toNat_inj.mp hzero
    have hright : n.toNat = before.length + 1 := by omega
    refine ⟨?_, hright⟩
    -- the first packet that arrived announced as many
    cases before with
    | nil => exact suffix_of_remaining hcount hsub hp
    | cons q before =>
      apply suffix_of_remaining hcount hsub
      have hlong : (q :: before).length < 2 ^ 32 := by omega
      have hne : (s.afterAll verbose (tipcDtoa domain sizeofSrcbuf) (q :: before)).cnt ≠ 0 := by
        intro h0
        rw [h0, hzero] at hcnt
        simp at hcnt hlong
        omega
      have htotal' := totalCnt_afterAll verbose (tipcDtoa domain sizeofSrcbuf) hs0 hbefore hlong
      rw [Sndr.afterAll] at hne htotal'
      rw [if_neg hne, htotal'] at htotal
      rw [Req.remaining, ← htotal, hright]
      simp

/-- A run of two packets that both arrive. -/
def wholeRun : Run := ⟨1, 8, 2, [⟨0, 2⟩, ⟨1, 1⟩], by decide, by decide⟩

theorem testOk_sound_iff_whole :
    (wholeRun.delivered <:+ mcastTransmitter 2 ∧ (2 : UInt32).toNat = 2) ↔ carried (arrived []) % 2 ^ 32 = 0 :=
  have h : .testOk 2 "1.1.1".toList ∈ reportOf false 0x01001001 [] wholeRun [] := by
    rw [reportOf_eq]
    decide +kernel
  testOk_sound_iff false 0x01001001 [] wholeRun [] h

/-- A run of four packets whose last two are lost, and a run of three packets whose second is lost. -/
def unfinishedRun : Run := ⟨1, 8, 4, [⟨0, 4⟩, ⟨1, 3⟩], by decide, by decide⟩
def nextRun : Run := ⟨2, 8, 3, [⟨0, 3⟩, ⟨2, 1⟩], by decide, by decide⟩

/-- **A verdict on a record that was left over:** `Test OK` for four packets, where two arrived and one was lost
    between them. -/
theorem testOk_unsound :
    .testOk 4 "1.1.1".toList ∈ reportOf false 0x01001001 [unfinishedRun] nextRun [] ∧
      ¬ nextRun.delivered <:+ mcastTransmitter nextRun.count ∧ (4 : UInt32).toNat ≠ nextRun.delivered.length := by
  refine ⟨?_, by decide, by decide⟩
  rw [reportOf_eq]
  decide +kernel

end Multicast
end Tipcutils
