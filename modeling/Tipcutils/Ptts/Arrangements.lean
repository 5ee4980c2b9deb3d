import Mathlib.Algebra.Order.BigOperators.Group.List
import Mathlib.Algebra.Order.Group.Nat
import Mathlib.Data.List.TakeWhile
import Mathlib.Tactic.IntervalCases
import Tipcutils.Ptts.Burst

/-!
# `Ptts.Arrangements` — which messages let the receive loops end

What waits at the sockets of `server_mcast`, in order, decides whether its loops end. The messages at the head of a queue
that have the number that is waited for (`leading`) are taken one by one, as long as the count of the sockets is short of
`exp_num`. So the wait is over when enough of them have been taken, or when nothing is waiting (`Over`); then the next
number is waited for, with what is left of the queues (`Finishes`).

**`mcast_ends_iff`**: the loops end if and only if the arrangement finishes. **`exists_over_iff`** counts: the wait for a
number is over at some time exactly if the queues have enough leading messages with it, or no other messages.
-/

namespace Tipcutils
namespace Ptts
namespace Burst

variable (host : Endian) (numSubTest : ℕ)

/-! ## Arrangements -/

/-- The messages at the head of a queue that have the number. -/
def leading (msgno : ℕ) (queue : List Octets) : ℕ := (queue.takeWhile (shows host msgno)).length

/-- What is left of a queue when up to `r` of them are taken. -/
def leave (msgno r : ℕ) (queue : List Octets) : List Octets := queue.drop (min (leading host msgno queue) r)

/-- How many are taken when up to `r` of them are taken from each queue. -/
def taken (msgno r : ℕ) (queues : List (List Octets)) : ℕ :=
  (queues.map fun queue => min (leading host msgno queue) r).sum

/-- The first message of the queue is too short or corrupted, or it is a second one where there is to be one. -/
def Faulty : List Octets → Prop
  | [] => False
  | msg :: rest => msg.length < expectedSzs numSubTest ∨
      checkArray ((msg.take (expectedSzs numSubTest)).drop 4) (expectedSzs numSubTest - 4) ≠ 0 ∨
      numSubTest < 4 ∧ rest ≠ []

/-- With up to `r` messages of each queue, the expected sockets have been counted, or nothing is left. -/
def Over (msgno skCnt r : ℕ) (queues : List (List Octets)) : Prop :=
  expNum numSubTest ≤ skCnt + taken host msgno r queues ∨ ∀ queue ∈ queues, leave host msgno r queue = []

/-- The queues serve the `k` numbers from `msgno` on: a faulty message is taken before the wait for a number is over, or
    the wait is over with some `r`, the least one, and what is left serves the other numbers. -/
def Finishes : ℕ → ℕ → ℕ → List (List Octets) → Prop
  | 0, _, _, _ => True
  | k + 1, msgno, skCnt, queues =>
    (∃ r, ¬ Over host numSubTest msgno skCnt r queues ∧
      ∃ queue ∈ queues, r < leading host msgno queue ∧ Faulty numSubTest (queue.drop r)) ∨
    ∃ r, Over host numSubTest msgno skCnt r queues ∧ (∀ r' < r, ¬ Over host numSubTest msgno skCnt r' queues) ∧
      Finishes k (msgno + 1) 0 (queues.map (leave host msgno r))

/-- Every message has a number. -/
def Numbered (queues : List (List Octets)) : Prop := ∀ queue ∈ queues, ∀ msg ∈ queue, 4 ≤ msg.length

instance (queues : List (List Octets)) : Decidable (Numbered queues) :=
  inferInstanceAs (Decidable (∀ queue ∈ queues, ∀ msg ∈ queue, 4 ≤ msg.length))

/-! ## Leading messages -/

section
variable {host : Endian} {numSubTest msgno skCnt r k : ℕ} {msg : Octets} {rest queue : List Octets}
  {queues : List (List Octets)}

theorem leading_of_shows (h : shows host msgno msg = true) :
    leading host msgno (msg :: rest) = leading host msgno rest + 1 := by
  rw [leading, List.takeWhile_cons_of_pos h, List.length_cons, leading]

theorem leading_of_not_shows (h : shows host msgno msg = false) : leading host msgno (msg :: rest) = 0 := by
  rw [leading, List.takeWhile_cons_of_neg (by simp [h]), List.length_nil]

@[simp] theorem leading_nil : leading host msgno [] = 0 := rfl

@[simp] theorem leave_nil : leave host msgno r [] = [] := List.drop_nil

@[simp] theorem leave_zero (queue : List Octets) : leave host msgno 0 queue = queue := by
  rw [leave, Nat.min_zero, List.drop_zero]

@[simp] theorem taken_zero (queues : List (List Octets)) : taken host msgno 0 queues = 0 := by
  simp [taken]

theorem leading_leave_one (queue : List Octets) :
    leading host msgno (leave host msgno 1 queue) = leading host msgno queue - 1 := by
  cases queue with
  | nil => rfl
  | cons msg rest =>
    cases h : shows host msgno msg with
    | true =>
      rw [leave, leading_of_shows h, Nat.min_eq_right (Nat.succ_le_succ (Nat.zero_le _))]
      rfl
    | false => rw [leave, leading_of_not_shows h, Nat.zero_min, List.drop_zero, leading_of_not_shows h]

theorem leave_leave_one (r : ℕ) (queue : List Octets) :
    leave host msgno r (leave host msgno 1 queue) = leave host msgno (r + 1) queue := by
  rw [leave, leading_leave_one, leave, List.drop_drop, leave]
  congr 1
  omega

theorem taken_succ (r : ℕ) (queues : List (List Octets)) : taken host msgno (r + 1) queues =
    taken host msgno 1 queues + taken host msgno r (queues.map (leave host msgno 1)) := by
  unfold taken
  rw [List.map_map, ← List.sum_map_add]
  congr 1
  apply List.map_congr_left
  intro queue _
  show _ = min _ 1 + min (leading host msgno (leave host msgno 1 queue)) r
  rw [leading_leave_one]
  omega

/-! ## The wait for a number -/

theorem Over.mono {r' : ℕ} (h : Over host numSubTest msgno skCnt r queues) (hr : r ≤ r') :
    Over host numSubTest msgno skCnt r' queues := by
  rcases h with henough | hempty
  · have hsum : taken host msgno r queues ≤ taken host msgno r' queues :=
      List.sum_le_sum fun queue _ => by omega
    exact .inl (by omega)
  · refine .inr fun queue hqueue => ?_
    have hnone := hempty queue hqueue
    rw [leave, List.drop_eq_nil_iff] at hnone ⊢
    omega

/-- One message of each queue, and then the others. -/
theorem over_succ : Over host numSubTest msgno skCnt (r + 1) queues ↔
    Over host numSubTest msgno (skCnt + taken host msgno 1 queues) r (queues.map (leave host msgno 1)) := by
  unfold Over
  rw [taken_succ, ← Nat.add_assoc]
  simp only [List.forall_mem_map, leave_leave_one]

/-- **When the wait is over at some time:** the queues have enough leading messages with the number, or no other ones. -/
theorem exists_over_iff : (∃ r, Over host numSubTest msgno skCnt r queues) ↔
    expNum numSubTest ≤ skCnt + (queues.map (leading host msgno)).sum ∨
      ∀ queue ∈ queues, ∀ msg ∈ queue, shows host msgno msg = true := by
  have hall (queue : List Octets) : (∀ msg ∈ queue, shows host msgno msg = true) ↔
      leading host msgno queue = queue.length := by
    rw [← List.takeWhile_eq_self_iff]
    exact ⟨fun h => congrArg List.length h, fun h => (List.takeWhile_prefix _).eq_of_length h⟩
  have hle (queue : List Octets) : leading host msgno queue ≤ queue.length := (List.takeWhile_prefix _).length_le
  constructor
  · rintro ⟨r, henough | hempty⟩
    · have hsum : taken host msgno r queues ≤ (queues.map (leading host msgno)).sum :=
        List.sum_le_sum fun queue _ => Nat.min_le_left _ _
      exact .inl (by omega)
    · refine .inr fun queue hqueue => (hall queue).mpr ?_
      have hnone := List.drop_eq_nil_iff.mp (hempty queue hqueue)
      have hlead := hle queue
      omega
  · intro h
    -- as many as there are in all queues
    set r := (queues.map (leading host msgno)).sum with hr
    have hmax (queue : List Octets) (hqueue : queue ∈ queues) : leading host msgno queue ≤ r :=
      List.le_sum_of_mem (List.mem_map_of_mem hqueue)
    refine ⟨r, h.imp (fun henough => ?_) fun hsame queue hqueue => ?_⟩
    · have hsum : taken host msgno r queues = r := by
        rw [hr, taken]
        congr 1
        exact List.map_congr_left fun queue hqueue => Nat.min_eq_left (hmax queue hqueue)
      rwa [hsum]
    · have hlead := (hall queue).mp (hsame queue hqueue)
      rw [leave, Nat.min_eq_left (hmax queue hqueue), hlead, List.drop_length]

/-- With a socket still expected and a message waiting, the wait is not over. -/
theorem not_over_zero (hexp : skCnt < expNum numSubTest) (hwait : ∃ queue ∈ queues, queue ≠ []) :
    ¬ Over host numSubTest msgno skCnt 0 queues := by
  obtain ⟨queue, hqueue, hne⟩ := hwait
  rintro (henough | hempty)
  · rw [taken_zero] at henough
    omega
  · exact hne ((leave_zero queue).symm.trans (hempty queue hqueue))

theorem over_zero (h : ¬ (skCnt < expNum numSubTest ∧ ∃ queue ∈ queues, queue ≠ [])) :
    Over host numSubTest msgno skCnt 0 queues := by
  by_cases hexp : skCnt < expNum numSubTest
  · refine .inr fun queue hqueue => ?_
    rw [leave_zero]
    by_contra hne
    exact h ⟨hexp, queue, hqueue, hne⟩
  · exact .inl (by rw [taken_zero]; omega)

/-! ## What a round does to an arrangement -/

/-- Where the wait is over, the next number is waited for. -/
theorem finishes_next (h : Over host numSubTest msgno skCnt 0 queues) :
    Finishes host numSubTest (k + 1) msgno skCnt queues ↔ Finishes host numSubTest k (msgno + 1) 0 queues := by
  have hleft : queues.map (leave host msgno 0) = queues :=
    (List.map_congr_left fun queue _ => leave_zero queue).trans (List.map_id' queues)
  constructor
  · rintro (⟨r, hnot, -⟩ | ⟨r, -, hleast, hrest⟩)
    · exact absurd (h.mono (Nat.zero_le r)) hnot
    · obtain rfl : r = 0 := by
        by_contra hne
        exact hleast 0 (Nat.pos_of_ne_zero hne) h
      rwa [hleft] at hrest
  · intro hrest
    exact .inr ⟨0, h, fun _ hr => absurd hr (Nat.not_lt_zero _), by rwa [hleft]⟩

/-- A faulty message ends the test. -/
theorem finishes_of_faulty (h : ¬ Over host numSubTest msgno skCnt 0 queues) (hqueue : queue ∈ queues)
    (hlead : 0 < leading host msgno queue) (hfaulty : Faulty numSubTest queue) :
    Finishes host numSubTest (k + 1) msgno skCnt queues :=
  .inl ⟨0, h, queue, hqueue, hlead, hfaulty⟩

/-- A round takes one leading message of each queue. -/
theorem finishes_round (h : ¬ Over host numSubTest msgno skCnt 0 queues)
    (hsound : ∀ queue ∈ queues, 0 < leading host msgno queue → ¬ Faulty numSubTest queue) :
    Finishes host numSubTest (k + 1) msgno (skCnt + taken host msgno 1 queues) (queues.map (leave host msgno 1)) ↔
      Finishes host numSubTest (k + 1) msgno skCnt queues := by
  have hdrop (queue : List Octets) (r : ℕ) (hr : r + 1 < leading host msgno queue) :
      (leave host msgno 1 queue).drop r = queue.drop (r + 1) := by
    rw [leave, List.drop_drop]
    congr 1
    omega
  constructor
  · rintro (⟨r, hnot, queue', hqueue', hlt, hfaulty⟩ | ⟨r, hover, hleast, hrest⟩)
    · obtain ⟨queue, hqueue, rfl⟩ := List.mem_map.mp hqueue'
      rw [leading_leave_one] at hlt
      rw [hdrop queue r (by omega)] at hfaulty
      exact .inl ⟨r + 1, fun hover => hnot (over_succ.mp hover), queue, hqueue, by omega, hfaulty⟩
    · refine .inr ⟨r + 1, over_succ.mpr hover, fun r' hr' => ?_, ?_⟩
      · cases r' with
        | zero => exact h
        | succ r' => exact fun hover' => hleast r' (by omega) (over_succ.mp hover')
      · rw [List.map_map] at hrest
        simpa only [Function.comp_def, leave_leave_one] using hrest
  · rintro (⟨r, hnot, queue, hqueue, hlt, hfaulty⟩ | ⟨r, hover, hleast, hrest⟩)
    · cases r with
      | zero => exact absurd hfaulty (hsound queue hqueue hlt)
      | succ r =>
        refine .inl ⟨r, fun hover => hnot (over_succ.mpr hover), _, List.mem_map_of_mem hqueue, ?_, ?_⟩
        · rw [leading_leave_one]
          omega
        · rw [hdrop queue r hlt]
          exact hfaulty
    · cases r with
      | zero => exact absurd hover h
      | succ r =>
        refine .inr ⟨r, over_succ.mp hover, fun r' hr' hover' => hleast (r' + 1) (by omega) (over_succ.mpr hover'), ?_⟩
        rw [List.map_map]
        simpa only [Function.comp_def, leave_leave_one] using hrest

/-- Waiting messages without the number are never taken. -/
theorem not_finishes (h : ¬ Over host numSubTest msgno skCnt 0 queues)
    (hnone : ∀ queue ∈ queues, leading host msgno queue = 0) :
    ¬ Finishes host numSubTest (k + 1) msgno skCnt queues := by
  have hnever (r : ℕ) : ¬ Over host numSubTest msgno skCnt r queues := by
    have hmin (queue : List Octets) (hqueue : queue ∈ queues) : min (leading host msgno queue) r = 0 := by
      rw [hnone queue hqueue, Nat.zero_min]
    rintro (henough | hempty)
    · have htaken : taken host msgno r queues = 0 := List.sum_eq_zero fun n hn => by
        obtain ⟨queue, hqueue, rfl⟩ := List.mem_map.mp hn
        exact hmin queue hqueue
      exact h (.inl (by rw [taken_zero, ← htaken]; exact henough))
    · refine h (.inr fun queue hqueue => ?_)
      have hleave := hempty queue hqueue
      rw [leave, hmin queue hqueue, List.drop_zero] at hleave
      rw [leave_zero, hleave]
  rintro (⟨r, -, queue, hqueue, hlt, -⟩ | ⟨r, hover, -⟩)
  · rw [hnone queue hqueue] at hlt
    exact absurd hlt (Nat.not_lt_zero r)
  · exact hnever r hover

/-- Where nothing is waiting, `select` times out for every number. -/
theorem finishes_of_empty (h : ∀ queue ∈ queues, queue = []) : Finishes host numSubTest k msgno skCnt queues := by
  induction k generalizing msgno skCnt with
  | zero => trivial
  | succ k ih =>
    refine (finishes_next (over_zero ?_)).mpr ih
    rintro ⟨-, queue, hqueue, hne⟩
    exact hne (h queue hqueue)

/-! ## The loop over the sockets -/

variable {t : Turn} {s : State}

/-- What becomes of the message at the head of one queue. -/
theorem turn_spec (hsize : 4 ≤ expectedSzs numSubTest) (hf : t.failed = none) (hnum : ∀ msg ∈ queue, 4 ≤ msg.length) :
    (0 < leading host msgno queue ∧ Faulty numSubTest queue ∧ (turn host numSubTest msgno queue t).2.failed ≠ none) ∨
    (¬ (0 < leading host msgno queue ∧ Faulty numSubTest queue) ∧
      (turn host numSubTest msgno queue t).1 = leave host msgno 1 queue ∧
      (turn host numSubTest msgno queue t).2.failed = none ∧
      (turn host numSubTest msgno queue t).2.skCnt = t.skCnt + min (leading host msgno queue) 1) := by
  cases queue with
  | nil => exact .inr ⟨fun h => h.2, rfl, hf, rfl⟩
  | cons msg rest =>
    have hshows := @shows_recvInto host msgno _ msg hsize (hnum msg List.mem_cons_self) t.buf
    cases h : shows host msgno msg with
    | false =>
      have hlead := @leading_of_not_shows host msgno msg rest h
      rw [turn_of_not_shows hf (hshows.trans h)]
      refine .inr ⟨fun hboth => ?_, ?_, hf, ?_⟩
      · rw [hlead] at hboth
        exact absurd hboth.1 (Nat.lt_irrefl 0)
      · rw [leave, hlead, Nat.zero_min, List.drop_zero]
      · rw [hlead, Nat.zero_min, Nat.add_zero]
    | true =>
      have hlead : 0 < leading host msgno (msg :: rest) := by
        rw [leading_of_shows h]
        exact Nat.succ_pos _
      have hone : min (leading host msgno (msg :: rest)) 1 = 1 := Nat.min_eq_right hlead
      have hleave : leave host msgno 1 (msg :: rest) = rest := by
        rw [leave, hone]
        rfl
      have hrc : (msg.take (expectedSzs numSubTest)).length ≠ expectedSzs numSubTest ↔
          msg.length < expectedSzs numSubTest := by
        rw [List.length_take]
        omega
      rw [hleave, hone]
      simp only [turn, hf, Option.isSome_none, hshows.trans h, Bool.not_true, Bool.false_eq_true, if_false, hlead, true_and]
      by_cases hshort : msg.length < expectedSzs numSubTest
      · rw [if_pos (hrc.mpr hshort)]
        exact .inl ⟨.inl hshort, Option.some_ne_none _⟩
      · have hwhole : (msg.take (expectedSzs numSubTest)).length = expectedSzs numSubTest :=
          not_not.mp (mt hrc.mp hshort)
        -- the check sees the message, and nothing behind it
        have hcheck : checkArray ((recvInto (expectedSzs numSubTest) t.buf msg).drop 4) (expectedSzs numSubTest - 4) =
            checkArray ((msg.take (expectedSzs numSubTest)).drop 4) (expectedSzs numSubTest - 4) := by
          have hdata : ((msg.take (expectedSzs numSubTest)).drop 4).length = expectedSzs numSubTest - 4 := by
            rw [List.length_drop, hwhole]
          rw [recvInto_eq, List.drop_append_of_le_length (by omega), ← hdata]
          exact checkArray_append _ _
        rw [if_neg (mt hrc.mp hshort), hwhole, hcheck]
        by_cases hbad : checkArray ((msg.take (expectedSzs numSubTest)).drop 4) (expectedSzs numSubTest - 4) ≠ 0
        · rw [if_pos hbad]
          exact .inl ⟨.inr (.inl hbad), Option.some_ne_none _⟩
        · rw [if_neg hbad]
          have hsound (hsecond : ¬ (numSubTest < 4 ∧ rest ≠ [])) : ¬ Faulty numSubTest (msg :: rest) := by
            rintro (hlt | hne | hboth)
            · exact hshort hlt
            · exact hbad hne
            · exact hsecond hboth
          cases rest with
          | nil => exact .inr ⟨hsound fun hboth => hboth.2 rfl, rfl, rfl, rfl⟩
          | cons msg' rest' =>
            dsimp only
            by_cases hsub : numSubTest < 4
            · rw [if_pos hsub]
              exact .inl ⟨.inr (.inr ⟨hsub, List.cons_ne_nil _ _⟩), Option.some_ne_none _⟩
            · rw [if_neg hsub]
              exact .inr ⟨hsound fun hboth => hsub hboth.1, rfl, rfl, rfl⟩

theorem turns_of_failed (queues : List (List Octets)) (h : t.failed.isSome = true) :
    (turns host numSubTest msgno queues t).2 = t := by
  have hturn (queue : List Octets) : (turn host numSubTest msgno queue t).2 = t := by
    cases queue with
    | nil => rfl
    | cons msg rest => simp only [turn, h, if_true]
  induction queues with
  | nil => rfl
  | cons queue queues ih =>
    rw [turns]
    dsimp only
    rw [hturn, ih]

/-- What becomes of the messages at the heads of all queues. -/
theorem turns_spec (hsize : 4 ≤ expectedSzs numSubTest) (hf : t.failed = none) (hnum : Numbered queues) :
    ((∃ queue ∈ queues, 0 < leading host msgno queue ∧ Faulty numSubTest queue) ∧
      (turns host numSubTest msgno queues t).2.failed ≠ none) ∨
    ((∀ queue ∈ queues, 0 < leading host msgno queue → ¬ Faulty numSubTest queue) ∧
      (turns host numSubTest msgno queues t).1 = queues.map (leave host msgno 1) ∧
      (turns host numSubTest msgno queues t).2.failed = none ∧
      (turns host numSubTest msgno queues t).2.skCnt = t.skCnt + taken host msgno 1 queues) := by
  induction queues generalizing t with
  | nil => exact .inr ⟨nofun, rfl, hf, rfl⟩
  | cons queue queues ih =>
    have hrest : Numbered queues := fun queue' hqueue' => hnum queue' (List.mem_cons_of_mem queue hqueue')
    rw [turns]
    dsimp only
    rcases @turn_spec host numSubTest msgno queue t hsize hf (hnum queue List.mem_cons_self) with
      ⟨hlead, hfaulty, hfailed⟩ | ⟨hsound, hqueue, hfailed, hcount⟩
    · refine .inl ⟨⟨queue, List.mem_cons_self, hlead, hfaulty⟩, ?_⟩
      rw [turns_of_failed queues (Option.isSome_iff_ne_none.mpr hfailed)]
      exact hfailed
    · rcases ih hfailed hrest with ⟨⟨queue', hqueue', hboth⟩, hfailed'⟩ | ⟨hsounds, hqueues, hfailed', hcounts⟩
      · exact .inl ⟨⟨queue', List.mem_cons_of_mem queue hqueue', hboth⟩, hfailed'⟩
      · refine .inr ⟨?_, ?_, hfailed', ?_⟩
        · intro queue' hqueue' hlead
          rcases List.mem_cons.mp hqueue' with rfl | hmem
          · exact fun hfaulty => hsound ⟨hlead, hfaulty⟩
          · exact hsounds queue' hmem hlead
        · rw [hqueue, hqueues, List.map_cons]
        · rw [hcounts, hcount, taken, taken, List.map_cons, List.sum_cons, Nat.add_assoc]

/-! ## When the loops end -/

theorem four_le_expectedSzs (h : 0 < expectedBurst numSubTest) : 4 ≤ expectedSzs numSubTest := by
  have hsub : numSubTest < 7 := by
    by_contra hge
    rw [expectedBurst, List.getD_eq_default _ _ (by simpa using hge)] at h
    exact absurd h (Nat.lt_irrefl 0)
  interval_cases numSubTest <;> decide

/-- What waits in the state lets the loops end, or `err` has been called. -/
def State.Finishes (host : Endian) (numSubTest : ℕ) (s : State) : Prop :=
  s.failed ≠ none ∨ Burst.Finishes host numSubTest (expectedBurst numSubTest - s.msgno) s.msgno s.skCnt s.queues

theorem numbered_leave (h : Numbered queues) (r : ℕ) : Numbered (queues.map (leave host msgno r)) := by
  intro queue' hqueue' msg hmsg
  obtain ⟨queue, hqueue, rfl⟩ := List.mem_map.mp hqueue'
  exact h queue hqueue msg (List.mem_of_mem_drop hmsg)

/-- **A round neither makes nor breaks an arrangement.** -/
theorem finishes_round_iff (hgo : s.goesOn numSubTest = true) (hnum : Numbered s.queues) :
    ((s.round host numSubTest).Finishes host numSubTest ↔ s.Finishes host numSubTest) ∧
      ((s.round host numSubTest).failed = none → Numbered (s.round host numSubTest).queues) := by
  rw [State.goesOn, Bool.and_eq_true, Option.isNone_iff_eq_none, decide_eq_true_eq] at hgo
  obtain ⟨hf, hburst⟩ := hgo
  have hsize := four_le_expectedSzs (Nat.zero_lt_of_lt hburst)
  obtain ⟨k, hk⟩ : ∃ k, expectedBurst numSubTest - s.msgno = k + 1 := ⟨expectedBurst numSubTest - s.msgno - 1, by omega⟩
  have hs : s.Finishes host numSubTest ↔ Burst.Finishes host numSubTest (k + 1) s.msgno s.skCnt s.queues := by
    rw [State.Finishes, hk]
    exact or_iff_right (not_not_intro hf)
  by_cases hsome : s.skCnt < expNum numSubTest ∧ ∃ queue ∈ s.queues, queue ≠ []
  · rw [hs, round_turns host hsome.1 hsome.2]
    have hwait := @not_over_zero host numSubTest s.msgno s.skCnt s.queues hsome.1 hsome.2
    rcases @turns_spec host numSubTest s.msgno s.queues s.toTurn hsize hf hnum with
      ⟨⟨queue, hqueue, hlead, hfaulty⟩, hfailed⟩ | ⟨hsound, hqueues, hfailed, hcount⟩
    · exact ⟨iff_of_true (.inl hfailed) (finishes_of_faulty hwait hqueue hlead hfaulty), fun h => absurd h hfailed⟩
    · constructor
      · rw [State.Finishes]
        dsimp only
        rw [hk, hqueues, hcount, or_iff_right (not_not_intro hfailed)]
        exact finishes_round hwait hsound
      · intro _
        dsimp only
        rw [hqueues]
        exact numbered_leave hnum 1
  · rw [hs, round_next hsome, finishes_next (over_zero hsome), State.Finishes]
    dsimp only
    rw [or_iff_right (not_not_intro hf), show expectedBurst numSubTest - (s.msgno + 1) = k by omega]
    exact ⟨Iff.rfl, fun _ => hnum⟩

theorem leading_of_premature {buf : Octets} (hsize : 4 ≤ expectedSzs numSubTest) (hnum : Numbered queues)
    (h : Premature host numSubTest msgno queues buf) : ∀ queue ∈ queues, leading host msgno queue = 0 := by
  induction queues generalizing buf with
  | nil => exact nofun
  | cons queue queues ih =>
    have hrest : Numbered queues := fun queue' hqueue' => hnum queue' (List.mem_cons_of_mem queue hqueue')
    rw [List.forall_mem_cons]
    cases queue with
    | nil => exact ⟨rfl, ih hrest h⟩
    | cons msg rest =>
      have hmsg := hnum (msg :: rest) List.mem_cons_self msg List.mem_cons_self
      exact ⟨leading_of_not_shows ((shows_recvInto hsize hmsg buf).symm.trans h.1), ih hrest h.2⟩

/-- A state that stands still does not finish. -/
theorem not_finishes_of_spins (hgo : s.goesOn numSubTest = true) (hnum : Numbered s.queues)
    (h : s.Spins host numSubTest) : ¬ s.Finishes host numSubTest := by
  rw [State.goesOn, Bool.and_eq_true, Option.isNone_iff_eq_none, decide_eq_true_eq] at hgo
  obtain ⟨hf, hburst⟩ := hgo
  have hsize := four_le_expectedSzs (Nat.zero_lt_of_lt hburst)
  obtain ⟨k, hk⟩ : ∃ k, expectedBurst numSubTest - s.msgno = k + 1 := ⟨expectedBurst numSubTest - s.msgno - 1, by omega⟩
  rw [State.Finishes, hk, or_iff_right (not_not_intro hf)]
  exact not_finishes (not_over_zero h.expected h.waiting) (leading_of_premature hsize hnum h.premature)

/-- Where messages are in the way, the loops go on. -/
theorem goesOn_of_not_finishes (h : ¬ s.Finishes host numSubTest) : s.goesOn numSubTest = true := by
  rw [State.Finishes, not_or, not_not] at h
  rw [State.goesOn, h.1, Option.isNone_none, Bool.true_and, decide_eq_true_eq]
  by_contra hle
  rw [Nat.sub_eq_zero_of_le (not_lt.mp hle)] at h
  exact h.2 trivial

/-- Loops that end have had an arrangement that finishes. -/
theorem finishes_of_ends (hnum : Numbered s.queues) (hend : ∃ fuel t, serverMcast host numSubTest fuel s = some t) :
    s.Finishes host numSubTest := by
  obtain ⟨fuel, t, hend⟩ := hend
  by_contra hnot
  -- no round makes the arrangement finish
  have hstep : ∀ s s' : State, Numbered s.queues ∧ ¬ s.Finishes host numSubTest →
      some (s.round host numSubTest) = some s' → Numbered s'.queues ∧ ¬ s'.Finishes host numSubTest := by
    rintro s s' ⟨hnum, hnot⟩ hs
    obtain rfl := Option.some.inj hs
    obtain ⟨hiff, hnum'⟩ := finishes_round_iff (goesOn_of_not_finishes hnot) hnum
    have hnot' := mt hiff.mp hnot
    exact ⟨hnum' (not_not.mp fun hf => hnot' (.inl hf)), hnot'⟩
  have hnever := whileLoop_of_never (fun s : State => Numbered s.queues ∧ ¬ s.Finishes host numSubTest)
    (fun s hs => goesOn_of_not_finishes hs.2) hstep ⟨hnum, hnot⟩ fuel
  rw [serverMcast, hnever] at hend
  exact absurd hend.symm (Option.some_ne_none t)

/-- An arrangement that finishes lets the loops end. -/
theorem ends_of_finishes (hnum : Numbered s.queues) (hfin : s.Finishes host numSubTest) :
    ∃ fuel t, serverMcast host numSubTest fuel s = some t := by
  rw [mcast_ends_iff_never_spins]
  intro k t hrounds hgo
  -- no round breaks the arrangement
  have hstep : ∀ s s' : State, s.Finishes host numSubTest ∧ (s.failed = none → Numbered s.queues) →
      s.goesOn numSubTest = true → some (s.round host numSubTest) = some s' →
      s'.Finishes host numSubTest ∧ (s'.failed = none → Numbered s'.queues) := by
    rintro s s' ⟨hfin, hnum⟩ hgo hs
    obtain rfl := Option.some.inj hs
    have hf := hgo
    rw [State.goesOn, Bool.and_eq_true, Option.isNone_iff_eq_none] at hf
    obtain ⟨hiff, hnum'⟩ := finishes_round_iff hgo (hnum hf.1)
    exact ⟨hiff.mpr hfin, hnum'⟩
  obtain ⟨hfin', hnum'⟩ := hrounds.inv hstep ⟨hfin, fun _ => hnum⟩
  have hf := hgo
  rw [State.goesOn, Bool.and_eq_true, Option.isNone_iff_eq_none] at hf
  exact fun hspins => not_finishes_of_spins hgo (hnum' hf.1) hspins hfin'

/-- **When the loops of `server_mcast` end** once no message arrives any more, from any point in them on and for any messages
    with a number: if and only if `err` has been called, or the messages that are waiting serve the numbers to come. -/
theorem mcast_ends_iff (host : Endian) (numSubTest : ℕ) (s : State) (hnum : Numbered s.queues) :
    (∃ fuel t, serverMcast host numSubTest fuel s = some t) ↔
      s.failed ≠ none ∨
        Burst.Finishes host numSubTest (expectedBurst numSubTest - s.msgno) s.msgno s.skCnt s.queues :=
  ⟨finishes_of_ends hnum, ends_of_finishes hnum⟩

end

/-- The message of the fifth subtest with the number 0. -/
def messageZero : Octets := storeU32 .little 0 ++ makeArray 96 0 255

/-- Both sockets get the message 0, and all others are lost. -/
theorem mcast_ends_iff_rest_lost : ∃ fuel t, serverMcast .little 4 fuel
    (start (List.replicate 66000 0) [[messageZero], [messageZero], [], [], []]) = some t := by
  have hnum : Numbered [[messageZero], [messageZero], [], [], []] := by decide
  have hempty : ∀ queue ∈ [[messageZero], [messageZero], [], [], []].map (leave .little 0 1), queue = [] := by decide
  refine (mcast_ends_iff .little 4 (start (List.replicate 66000 0) [[messageZero], [messageZero], [], [], []]) hnum).mpr ?_
  refine .inr (.inr ⟨1, .inl (by decide), fun r hr => ?_, finishes_of_empty hempty⟩)
  obtain rfl : r = 0 := Nat.lt_one_iff.mp hr
  exact not_over_zero (by decide) ⟨[messageZero], List.mem_cons_self, nofun⟩

end Burst
end Ptts
end Tipcutils
