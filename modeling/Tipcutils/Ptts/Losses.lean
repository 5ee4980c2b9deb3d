import Mathlib.Data.List.Nodup
import Tipcutils.Ptts.Arrangements
import Tipcutils.Ptts.Mcast

/-!
# `Ptts.Losses` — which losses let the receive loops end

The losses are what the multicast test is to find: of the burst of `client_mcast` each socket gets some messages, in order
(`Kept`). For these arrangements the condition of `Ptts.Arrangements` is a statement about the numbers that have arrived.

**`losses_end_iff`**: the loops end if and only if every number has come to as many sockets as are expected, or is
not less than any number that has come to a socket. So only the end of the burst may be lost.
-/

namespace Tipcutils
namespace Ptts
namespace Burst

open Mcast (Agrees agrees call shows_message length_message checkArray_message reads_of_eq)

/-- What a socket has got of the burst from `msgno` on: some of the numbers, in order. -/
structure Kept (numSubTest msgno : ℕ) (ns : List ℕ) : Prop where
  ascends : ns.Pairwise (· < ·)
  bounds : ∀ i ∈ ns, msgno ≤ i ∧ i < expectedBurst numSubTest

/-- The messages with these numbers, from a client with the byte order of the server. -/
def messagesOf (host : Endian) (numSubTest : ℕ) (ns : List ℕ) : List Octets :=
  ns.map ((call numSubTest).message host)

/-- The numbers behind `msgno`. -/
def beyond (msgno : ℕ) (ns : List ℕ) : List ℕ := ns.filter (msgno < ·)

variable {host : Endian} {numSubTest msgno k i : ℕ} {ns : List ℕ} {kept : List (List ℕ)}

theorem mem_beyond : i ∈ beyond msgno ns ↔ i ∈ ns ∧ msgno < i := by
  rw [beyond, List.mem_filter, decide_eq_true_eq]

theorem Kept.next (h : Kept numSubTest msgno ns) : Kept numSubTest (msgno + 1) (beyond msgno ns) :=
  ⟨h.ascends.filter _, fun i hi => ⟨(mem_beyond.mp hi).2, (h.bounds i (mem_beyond.mp hi).1).2⟩⟩

theorem kept_of_sublist (h : ns.Sublist (List.range (expectedBurst numSubTest))) : Kept numSubTest 0 ns :=
  ⟨List.pairwise_lt_range.sublist h, fun i hi => ⟨Nat.zero_le i, List.mem_range.mp (h.subset hi)⟩⟩

/-! ## One queue -/

theorem shows_message_iff (hsub : numSubTest < 7) (hi : i < expectedBurst numSubTest)
    (hmsgno : msgno < expectedBurst numSubTest) :
    shows host msgno ((call numSubTest).message host i) = true ↔ i = msgno := by
  have hburst := (agrees hsub).burst_le
  rw [shows_message, decide_eq_true_eq, reads_of_eq rfl i]
  constructor
  · intro heq
    have hnat := congrArg UInt32.toNat heq
    rwa [UInt32.toNat_ofNat_of_lt' (by simp [UInt32.size]; omega),
      UInt32.toNat_ofNat_of_lt' (by simp [UInt32.size]; omega)] at hnat
  · exact congrArg _

/-- Where only greater numbers have come, none of them is taken. -/
theorem Kept.later (host : Endian) (hsub : numSubTest < 7) (h : Kept numSubTest (msgno + 1) ns)
    (hmsgno : msgno < expectedBurst numSubTest) :
    beyond msgno ns = ns ∧ leading host msgno (messagesOf host numSubTest ns) = 0 := by
  refine ⟨List.filter_eq_self.mpr fun j hj => decide_eq_true (h.bounds j hj).1, ?_⟩
  cases ns with
  | nil => rfl
  | cons j ns =>
    obtain ⟨hlt, hburst⟩ := h.bounds j List.mem_cons_self
    apply leading_of_not_shows
    rw [Bool.eq_false_iff, Ne, shows_message_iff hsub hburst hmsgno]
    omega

/-- The message at the head is the one that is waited for, or none is. -/
theorem Kept.head (host : Endian) (hsub : numSubTest < 7) (h : Kept numSubTest msgno ns)
    (hmsgno : msgno < expectedBurst numSubTest) :
    (∃ rest, ns = msgno :: rest ∧ beyond msgno ns = rest ∧ leading host msgno (messagesOf host numSubTest ns) = 1) ∨
      msgno ∉ ns ∧ beyond msgno ns = ns ∧ leading host msgno (messagesOf host numSubTest ns) = 0 := by
  by_cases hmem : msgno ∈ ns
  · refine .inl ?_
    cases ns with
    | nil => exact absurd hmem List.not_mem_nil
    | cons j rest =>
      obtain ⟨hfirst, hascends⟩ := List.pairwise_cons.mp h.ascends
      have hle := (h.bounds j List.mem_cons_self).1
      -- nothing is behind the first number but greater ones
      obtain rfl : j = msgno := by
        rcases List.mem_cons.mp hmem with heq | hmem
        · exact heq.symm
        · have := hfirst msgno hmem
          omega
      have hkept : Kept numSubTest (j + 1) rest :=
        ⟨hascends, fun i hi => ⟨hfirst i hi, (h.bounds i (List.mem_cons_of_mem j hi)).2⟩⟩
      obtain ⟨hbeyond, hlead⟩ := hkept.later host hsub hmsgno
      refine ⟨rest, rfl, ?_, ?_⟩
      · rw [beyond, List.filter_cons_of_neg (by simp)]
        exact hbeyond
      · rw [messagesOf, List.map_cons, leading_of_shows ((shows_message_iff hsub hmsgno hmsgno).mpr rfl)]
        exact congrArg (· + 1) hlead
  · have hkept : Kept numSubTest (msgno + 1) ns := by
      refine ⟨h.ascends, fun i hi => ⟨?_, (h.bounds i hi).2⟩⟩
      have hle := (h.bounds i hi).1
      have hne : i ≠ msgno := fun heq => hmem (heq ▸ hi)
      omega
    exact .inr ⟨hmem, hkept.later host hsub hmsgno⟩

theorem Kept.leave_one (hsub : numSubTest < 7) (h : Kept numSubTest msgno ns) (hmsgno : msgno < expectedBurst numSubTest) :
    leave host msgno 1 (messagesOf host numSubTest ns) = messagesOf host numSubTest (beyond msgno ns) := by
  rcases h.head host hsub hmsgno with ⟨rest, rfl, hbeyond, hlead⟩ | ⟨-, hbeyond, hlead⟩
  · rw [leave, hlead, hbeyond]
    rfl
  · rw [leave, hlead, hbeyond, Nat.zero_min, List.drop_zero]

theorem length_burst (host : Endian) (hsub : numSubTest < 7) (i : ℕ) :
    ((call numSubTest).message host i).length = expectedSzs numSubTest := by
  have ha := agrees hsub
  rw [length_message _ _ (by rw [ha.size]; exact ha.size_ge), ha.size]

/-- No message of the burst is faulty. -/
theorem Kept.sound (hsub : numSubTest < 7) (h : Kept numSubTest msgno ns) :
    ¬ Faulty numSubTest (messagesOf host numSubTest ns) := by
  have ha := agrees hsub
  cases ns with
  | nil => exact id
  | cons i rest =>
    have hlen := length_burst host hsub i
    have hcheck := checkArray_message (call numSubTest) host (by rw [ha.size]; exact ha.size_ge)
      (by rw [ha.size]; exact ha.size_le) i []
    rw [ha.size, recvInto_eq, List.drop_nil, List.append_nil] at hcheck
    rintro (hshort | hbad | ⟨hsole, hmore⟩)
    · omega
    · exact hbad hcheck
    · cases rest with
      | nil => exact hmore rfl
      | cons j rest =>
        have hlt := (List.pairwise_cons.mp h.ascends).1 j List.mem_cons_self
        have hburst := (h.bounds j (List.mem_cons_of_mem i List.mem_cons_self)).2
        have hone := ha.sole hsole
        omega

/-! ## All queues -/

/-- What waits at the sockets. -/
def queuesOf (host : Endian) (numSubTest : ℕ) (kept : List (List ℕ)) : List (List Octets) :=
  kept.map (messagesOf host numSubTest)

theorem leave_queuesOf (hsub : numSubTest < 7) (h : ∀ ns ∈ kept, Kept numSubTest msgno ns)
    (hmsgno : msgno < expectedBurst numSubTest) :
    (queuesOf host numSubTest kept).map (leave host msgno 1) = queuesOf host numSubTest (kept.map (beyond msgno)) := by
  rw [queuesOf, queuesOf, List.map_map, List.map_map]
  exact List.map_congr_left fun ns hns => (h ns hns).leave_one hsub hmsgno

/-- One round takes a message from each socket that the number has come to. -/
theorem taken_queuesOf (hsub : numSubTest < 7) (h : ∀ ns ∈ kept, Kept numSubTest msgno ns)
    (hmsgno : msgno < expectedBurst numSubTest) :
    taken host msgno 1 (queuesOf host numSubTest kept) = kept.countP (msgno ∈ ·) := by
  induction kept with
  | nil => rfl
  | cons ns kept ih =>
    have hrest := ih fun ns' hns' => h ns' (List.mem_cons_of_mem ns hns')
    have hfirst : min (leading host msgno (messagesOf host numSubTest ns)) 1 = if msgno ∈ ns then 1 else 0 := by
      rcases (h ns List.mem_cons_self).head host hsub hmsgno with ⟨rest, rfl, -, hlead⟩ | ⟨hnot, -, hlead⟩
      · rw [hlead, if_pos List.mem_cons_self, Nat.min_self]
      · rw [hlead, if_neg hnot, Nat.zero_min]
    rw [taken, queuesOf, List.map_cons, List.map_cons, List.sum_cons, hfirst, List.countP_cons, ← hrest, Nat.add_comm]
    simp only [decide_eq_true_eq]
    rfl

theorem leading_queuesOf (hsub : numSubTest < 7) (h : ∀ ns ∈ kept, Kept numSubTest msgno ns)
    (hmsgno : msgno < expectedBurst numSubTest) :
    ∀ queue ∈ queuesOf host numSubTest (kept.map (beyond msgno)), leading host msgno queue = 0 := by
  rw [← leave_queuesOf hsub h hmsgno]
  intro queue' hqueue'
  obtain ⟨queue, hqueue, rfl⟩ := List.mem_map.mp hqueue'
  obtain ⟨ns, hns, rfl⟩ := List.mem_map.mp hqueue
  rw [leading_leave_one]
  rcases (h ns hns).head host hsub hmsgno with ⟨-, -, -, hlead⟩ | ⟨-, -, hlead⟩ <;> rw [hlead]

theorem queuesOf_empty_iff :
    (∀ queue ∈ queuesOf host numSubTest kept, queue = []) ↔ ∀ ns ∈ kept, ∀ i ∈ ns, False := by
  simp [queuesOf, messagesOf, List.eq_nil_iff_forall_not_mem]

theorem numbered_queuesOf (hsub : numSubTest < 7) : Numbered (queuesOf host numSubTest kept) := by
  intro queue hqueue msg hmsg
  obtain ⟨ns, -, rfl⟩ := List.mem_map.mp hqueue
  obtain ⟨i, -, rfl⟩ := List.mem_map.mp hmsg
  rw [length_burst host hsub]
  exact (agrees hsub).size_ge

/-- The number has come to as many sockets as are expected, or no greater one has come to any. -/
def Served (numSubTest : ℕ) (kept : List (List ℕ)) (n : ℕ) : Prop :=
  expNum numSubTest ≤ kept.countP (n ∈ ·) ∨ ∀ ns ∈ kept, ∀ i ∈ ns, i ≤ n

/-- What has been taken does not matter for the numbers to come. -/
theorem served_beyond {n : ℕ} (hn : msgno < n) :
    Served numSubTest (kept.map (beyond msgno)) n ↔ Served numSubTest kept n := by
  unfold Served
  rw [List.countP_map]
  have hcount : kept.countP ((fun ns => decide (n ∈ ns)) ∘ beyond msgno) = kept.countP fun ns => decide (n ∈ ns) := by
    apply List.countP_congr
    intro ns _
    simp only [Function.comp_apply, decide_eq_true_eq, mem_beyond]
    exact and_iff_left hn
  rw [hcount]
  apply or_congr_right
  rw [List.forall_mem_map]
  constructor
  · intro h ns hns i hi
    by_cases hlt : msgno < i
    · exact h ns hns i (mem_beyond.mpr ⟨hi, hlt⟩)
    · omega
  · exact fun h ns hns i hi => h ns hns i (mem_beyond.mp hi).1

/-- The wait for a number is over after one round exactly if it is served. -/
theorem over_queuesOf_iff (host : Endian) (hsub : numSubTest < 7) (h : ∀ ns ∈ kept, Kept numSubTest msgno ns)
    (hmsgno : msgno < expectedBurst numSubTest) :
    Over host numSubTest msgno (taken host msgno 1 (queuesOf host numSubTest kept)) 0
      (queuesOf host numSubTest (kept.map (beyond msgno))) ↔ Served numSubTest kept msgno := by
  have hnone : (∀ queue ∈ queuesOf host numSubTest (kept.map (beyond msgno)), queue = []) ↔
      ∀ ns ∈ kept, ∀ i ∈ ns, i ≤ msgno := by
    rw [queuesOf_empty_iff, List.forall_mem_map]
    simp only [mem_beyond, not_and, imp_false, not_lt]
  simp only [Over, taken_zero, Nat.add_zero, leave_zero, hnone, taken_queuesOf hsub h hmsgno, Served]

/-- **Which losses let the loops end**, from the wait for some number on. -/
theorem finishes_queuesOf_iff (hsub : numSubTest < 7) (h : ∀ ns ∈ kept, Kept numSubTest msgno ns)
    (hk : msgno + k = expectedBurst numSubTest) :
    Finishes host numSubTest k msgno 0 (queuesOf host numSubTest kept) ↔
      ∀ n, msgno ≤ n → n < msgno + k → Served numSubTest kept n := by
  induction k generalizing msgno kept with
  | zero => exact iff_of_true trivial fun n hle hlt => absurd hlt (Nat.not_lt_of_le hle)
  | succ k ih =>
    have hmsgno : msgno < expectedBurst numSubTest := by omega
    have hsplit : (∀ n, msgno ≤ n → n < msgno + (k + 1) → Served numSubTest kept n) ↔
        Served numSubTest kept msgno ∧ ∀ n, msgno + 1 ≤ n → n < msgno + 1 + k → Served numSubTest kept n := by
      constructor
      · exact fun h => ⟨h msgno le_rfl (by omega), fun n hle hlt => h n (by omega) (by omega)⟩
      · rintro ⟨hfirst, hrest⟩ n hle hlt
        rcases Nat.eq_or_lt_of_le hle with rfl | hlt'
        · exact hfirst
        · exact hrest n hlt' (by omega)
    by_cases hempty : ∀ queue ∈ queuesOf host numSubTest kept, queue = []
    · -- every number is served where nothing has come
      refine iff_of_true (finishes_of_empty hempty) fun n _ _ => .inr fun ns hns i hi => ?_
      exact absurd hi (queuesOf_empty_iff.mp hempty ns hns i)
    · have hwait : ∃ queue ∈ queuesOf host numSubTest kept, queue ≠ [] := by
        simpa only [not_forall, exists_prop] using hempty
      have hnot := @not_over_zero host numSubTest msgno 0 _ (agrees hsub).some hwait
      have hsound : ∀ queue ∈ queuesOf host numSubTest kept, 0 < leading host msgno queue → ¬ Faulty numSubTest queue := by
        intro queue hqueue _
        obtain ⟨ns, hns, rfl⟩ := List.mem_map.mp hqueue
        exact (h ns hns).sound hsub
      have hnext : ∀ ns ∈ kept.map (beyond msgno), Kept numSubTest (msgno + 1) ns :=
        List.forall_mem_map.mpr fun ns hns => (h ns hns).next
      rw [← finishes_round hnot hsound, Nat.zero_add, leave_queuesOf hsub h hmsgno, hsplit]
      have hiff := over_queuesOf_iff host hsub h hmsgno
      by_cases hover : Served numSubTest kept msgno
      · rw [finishes_next (hiff.mpr hover), ih hnext (by omega)]
        rw [and_iff_right hover]
        exact forall_congr' fun n => forall_congr' fun hle => imp_congr_right fun _ => served_beyond hle
      · -- a later message is in the way
        exact iff_of_false (not_finishes (mt hiff.mp hover) (leading_queuesOf hsub h hmsgno)) fun hall => hover hall.1

/-- **Which losses let the loops end.** Where each socket has got some messages of the burst, in order, from a client with
    the same byte order: if and only if each number has come to as many sockets as are expected, or no greater one has come
    to any. -/
theorem losses_end_iff (host : Endian) (hsub : numSubTest < 7) (buf : Octets)
    (hkept : ∀ ns ∈ kept, ns.Sublist (List.range (expectedBurst numSubTest))) :
    (∃ fuel t, serverMcast host numSubTest fuel (start buf (queuesOf host numSubTest kept)) = some t) ↔
      ∀ n < expectedBurst numSubTest, expNum numSubTest ≤ kept.countP (n ∈ ·) ∨ ∀ ns ∈ kept, ∀ i ∈ ns, i ≤ n := by
  have hk (ns : List ℕ) (hns : ns ∈ kept) : Kept numSubTest 0 ns := kept_of_sublist (hkept ns hns)
  have hserved : (start buf (queuesOf host numSubTest kept)).Finishes host numSubTest ↔
      ∀ n < expectedBurst numSubTest, Served numSubTest kept n := by
    have hnofail : ¬ (start buf (queuesOf host numSubTest kept)).failed ≠ none := not_not_intro rfl
    rw [State.Finishes, or_iff_right hnofail]
    have hfin := @finishes_queuesOf_iff host numSubTest 0 (expectedBurst numSubTest) kept hsub hk (Nat.zero_add _)
    rw [Nat.zero_add] at hfin
    exact hfin.trans (forall_congr' fun n => forall_prop_of_true (Nat.zero_le n))
  have hnum : Numbered (queuesOf host numSubTest kept) := numbered_queuesOf hsub
  exact ⟨fun h => hserved.mp (finishes_of_ends hnum h), fun h => ends_of_finishes hnum (hserved.mpr h)⟩

end Burst
end Ptts
end Tipcutils
