import Tipcutils.Ptts.Transfer

/-!
# `Ptts.SendHelpers` — the two helpers that send a message a number of times

`sendSocketBuffTIPC` and `sendtoSocketBuffTIPC` count the calls that do not take the whole message, and are told how many
of them there should be. The comments on them are the same, but the first one compares the two numbers after every message,
and the second one behind the loop.

**`judge_alike_iff`** says exactly when both attempt all messages, and judge by the number of failures over the whole call.
-/

namespace Tipcutils
namespace Ptts
namespace Transfer

/-! ## `sendtoSocketBuffTIPC` -/

/-- What a number of calls of `sendto` has transferred, and the text that `err` was called with. -/
structure SentTo where
  msgs : List Octets
  failed : Option String
deriving DecidableEq

/-- The text that is formatted for `err`. -/
def sendtoErrors (sendErrorCount : ℕ) (sendErrorTarget : ℤ) (msgSize : ℕ) : String :=
  s!"sendto() errors {sendErrorCount} expected {sendErrorTarget} Message Size = {msgSize}"

/-- The loop: `sendto i` is how many octets the `i`-th call of `sendto` takes, `none` is -1. -/
def sendtoLoop (sendto : ℕ → Option ℕ) (msg : Octets) : ℕ → ℕ → ℕ → List Octets → List Octets × ℕ
  | 0, _, sendErrorCount, msgs => (msgs, sendErrorCount)
  | todo + 1, i, sendErrorCount, msgs =>
    sendtoLoop sendto msg todo (i + 1) (if sendto i ≠ some msg.length then sendErrorCount + 1 else sendErrorCount)
      (msgs ++ [msg.take ((sendto i).getD 0)])

/-- `sendtoSocketBuffTIPC`. -/
def sendtoSocketBuffTIPC (sendto : ℕ → Option ℕ) (msgArea : Octets) (numTimes : ℤ) (msgSize : ℕ)
    (sendErrorTarget : ℤ) : SentTo :=
  if numTimes = 0 ∨ msgSize = 0 then ⟨[], none⟩
  else
    let (msgs, sendErrorCount) := sendtoLoop sendto (msgArea.take msgSize) numTimes.toNat 0 0 []
    if sendErrorTarget ≥ 0 ∧ (sendErrorCount : ℤ) ≠ sendErrorTarget then
      ⟨msgs, some (sendtoErrors sendErrorCount sendErrorTarget msgSize)⟩
    else ⟨msgs, none⟩

/-! ## What the comments say -/

/-- How many of some calls in a row fail, the `i`-th one first. -/
def failures (send : ℕ → Option ℕ) (msgSize i n : ℕ) : ℕ := (List.range' i n).countP (send · ≠ some msgSize)

/-- What the comments say about both helpers: all messages are attempted, unless `err` is called, and it is called if a
    number of errors is expected that is not the one over the whole call. -/
structure JudgeAlike (send : ℕ → Option ℕ) (msgArea : Octets) (numTimes msgSize : ℕ) (sendErrorTarget : ℤ) : Prop where
  sent : (sendSocketBuffTIPC send msgArea numTimes msgSize sendErrorTarget).failed = none →
    (sendSocketBuffTIPC send msgArea numTimes msgSize sendErrorTarget).msgs.length = numTimes
  sentTo : (sendtoSocketBuffTIPC send msgArea numTimes msgSize sendErrorTarget).failed = none →
    (sendtoSocketBuffTIPC send msgArea numTimes msgSize sendErrorTarget).msgs.length = numTimes
  send_returns : (sendSocketBuffTIPC send msgArea numTimes msgSize sendErrorTarget).failed = none ↔
    ¬ (sendErrorTarget ≥ 0 ∧ (failures send msgSize 0 numTimes : ℤ) ≠ sendErrorTarget)
  sendto_returns : (sendtoSocketBuffTIPC send msgArea numTimes msgSize sendErrorTarget).failed = none ↔
    ¬ (sendErrorTarget ≥ 0 ∧ (failures send msgSize 0 numTimes : ℤ) ≠ sendErrorTarget)

/-! ## The loops -/

section
variable {send : ℕ → Option ℕ} {msg : Octets} {sendErrorTarget : ℤ} {msgSize i c n : ℕ} {msgs : List Octets}

theorem failures_succ : failures send msgSize i (n + 1) =
    (if send i ≠ some msgSize then 1 else 0) + failures send msgSize (i + 1) n := by
  rw [failures, List.range'_succ, List.countP_cons, Nat.add_comm]
  simp only [decide_eq_true_eq]
  rfl

theorem failures_mono {m : ℕ} (h : m ≤ n) : failures send msgSize i m ≤ failures send msgSize i n := by
  have hsub : (List.range' i m).Sublist (List.range' i n) := List.range'_sublist_right.mpr h
  exact hsub.countP_le

/-- The error counter of a loop after a call. -/
theorem count_succ (c : ℕ) :
    (if send i ≠ some msgSize then c + 1 else c) = c + if send i ≠ some msgSize then 1 else 0 := by
  split
  · rfl
  · rfl

theorem sendtoLoop_eq (send : ℕ → Option ℕ) (msg : Octets) (n i c : ℕ) (msgs : List Octets) :
    (sendtoLoop send msg n i c msgs).1.length = msgs.length + n ∧
      (sendtoLoop send msg n i c msgs).2 = c + failures send msg.length i n := by
  induction n generalizing i c msgs with
  | zero => exact ⟨rfl, rfl⟩
  | succ n ih =>
    rw [sendtoLoop]
    obtain ⟨hlen, hcount⟩ := ih (i + 1) (if send i ≠ some msg.length then c + 1 else c)
      (msgs ++ [msg.take ((send i).getD 0)])
    refine ⟨?_, ?_⟩
    · rw [hlen, List.length_append, List.length_singleton]
      omega
    · rw [hcount, failures_succ, count_succ c, Nat.add_assoc]

/-- The loop of `send` ends without `err` if and only if the number of errors was right after every message. -/
theorem sendLoop_failed_iff (send : ℕ → Option ℕ) (msg : Octets) (sendErrorTarget : ℤ) (n i c : ℕ) (msgs : List Octets) :
    (sendLoop send msg sendErrorTarget n i c msgs).failed = none ↔
      ∀ k < n, ¬ (sendErrorTarget ≥ 0 ∧ ((c + failures send msg.length i (k + 1) : ℕ) : ℤ) ≠ sendErrorTarget) := by
  induction n generalizing i c msgs with
  | zero => exact iff_of_true rfl fun k hk => absurd hk (Nat.not_lt_zero k)
  | succ n ih =>
    obtain ⟨c', hc'⟩ : ∃ c', c' = if send i ≠ some msg.length then c + 1 else c := ⟨_, rfl⟩
    have htail (k : ℕ) : c + failures send msg.length i (k + 1) = c' + failures send msg.length (i + 1) k := by
      rw [hc', count_succ c, failures_succ, Nat.add_assoc]
    unfold sendLoop
    dsimp only
    rw [← hc']
    split
    next hbad => exact iff_of_false (Option.some_ne_none _) fun hall => hall 0 (Nat.succ_pos n) (htail 0 ▸ hbad)
    next hgood =>
      rw [ih]
      constructor
      · intro hall k hk
        rw [htail]
        cases k with
        | zero => exact hgood
        | succ k => exact hall k (by omega)
      · intro hall k hk
        rw [← htail]
        exact hall (k + 1) (by omega)

/-- Then it has attempted all messages. -/
theorem length_sendLoop (n i c : ℕ) (msgs : List Octets) (h : (sendLoop send msg sendErrorTarget n i c msgs).failed = none) :
    (sendLoop send msg sendErrorTarget n i c msgs).msgs.length = msgs.length + n := by
  induction n generalizing i c msgs with
  | zero => rfl
  | succ n ih =>
    obtain ⟨c', hc'⟩ : ∃ c', c' = if send i ≠ some msg.length then c + 1 else c := ⟨_, rfl⟩
    unfold sendLoop at h ⊢
    dsimp only at h ⊢
    rw [← hc'] at h ⊢
    split at h
    next => cases h
    next hgood =>
      rw [if_neg hgood, ih _ _ _ h, List.length_append, List.length_singleton]
      omega

/-! ## The judgements -/

variable {msgArea : Octets} {numTimes : ℕ}

/-- The number of errors is right after every message if and only if it is right in the end, and none is expected, or one,
    with the first message. -/
theorem right_throughout_iff (hn : numTimes ≠ 0) :
    (∀ k < numTimes, ¬ (sendErrorTarget ≥ 0 ∧ (failures send msgSize 0 (k + 1) : ℤ) ≠ sendErrorTarget)) ↔
      ¬ (sendErrorTarget ≥ 0 ∧ (failures send msgSize 0 numTimes : ℤ) ≠ sendErrorTarget) ∧
        (sendErrorTarget ≤ 0 ∨ sendErrorTarget = 1 ∧ send 0 ≠ some msgSize) := by
  have hone : failures send msgSize 0 (0 + 1) = if send 0 ≠ some msgSize then 1 else 0 := by
    rw [failures_succ]
    rfl
  have hlast : numTimes - 1 + 1 = numTimes := by omega
  constructor
  · intro hall
    refine ⟨hlast ▸ hall (numTimes - 1) (by omega), ?_⟩
    have hfirst := hall 0 (by omega)
    rw [hone] at hfirst
    by_cases hfails : send 0 ≠ some msgSize
    · rw [if_pos hfails] at hfirst
      rcases Int.lt_or_le 0 sendErrorTarget with hpos | hle
      · exact .inr ⟨by omega, hfails⟩
      · exact .inl hle
    · rw [if_neg hfails] at hfirst
      exact .inl (by omega)
  · rintro ⟨hend, htarget⟩ k hk ⟨h0, hne⟩
    have hle : failures send msgSize 0 (k + 1) ≤ failures send msgSize 0 numTimes := failures_mono hk
    have hge : failures send msgSize 0 (0 + 1) ≤ failures send msgSize 0 (k + 1) := failures_mono (by omega)
    rw [hone] at hge
    rcases htarget with hnone | ⟨hfirst, hfails⟩
    · omega
    · rw [if_pos hfails] at hge
      omega

/-- Without messages, or with empty ones, both return at once. -/
theorem judge_at_once_iff (h : numTimes = 0 ∨ msgSize = 0) :
    JudgeAlike send msgArea numTimes msgSize sendErrorTarget ↔ numTimes = 0 ∧ sendErrorTarget ≤ 0 := by
  have hguard : (numTimes : ℤ) = 0 ∨ msgSize = 0 := h.imp_left Int.natCast_eq_zero.mpr
  have hsend : sendSocketBuffTIPC send msgArea numTimes msgSize sendErrorTarget = ⟨[], none⟩ := if_pos hguard
  have hsendto : sendtoSocketBuffTIPC send msgArea numTimes msgSize sendErrorTarget = ⟨[], none⟩ := if_pos hguard
  have h0 : failures send msgSize 0 0 = 0 := rfl
  constructor
  · intro halike
    have hlen := halike.sent (by rw [hsend])
    rw [hsend] at hlen
    obtain rfl : 0 = numTimes := hlen
    have hquiet := halike.send_returns.mp (by rw [hsend])
    rw [h0] at hquiet
    exact ⟨rfl, by omega⟩
  · rintro ⟨rfl, htarget⟩
    have hquiet : ¬ (sendErrorTarget ≥ 0 ∧ (failures send msgSize 0 0 : ℤ) ≠ sendErrorTarget) := by
      rw [h0]
      omega
    constructor
    · rw [hsend]
      exact fun _ => rfl
    · rw [hsendto]
      exact fun _ => rfl
    · rw [hsend]
      exact iff_of_true rfl hquiet
    · rw [hsendto]
      exact iff_of_true rfl hquiet

/-- `sendtoSocketBuffTIPC` does what its comment says, if it does not return at once. -/
theorem sendtoSocketBuffTIPC_judges (send : ℕ → Option ℕ) (sendErrorTarget : ℤ) (harea : msgSize ≤ msgArea.length) (h : ¬ (numTimes = 0 ∨ msgSize = 0)) :
    (sendtoSocketBuffTIPC send msgArea numTimes msgSize sendErrorTarget).msgs.length = numTimes ∧
      ((sendtoSocketBuffTIPC send msgArea numTimes msgSize sendErrorTarget).failed = none ↔
        ¬ (sendErrorTarget ≥ 0 ∧ (failures send msgSize 0 numTimes : ℤ) ≠ sendErrorTarget)) := by
  have hguard : ¬ ((numTimes : ℤ) = 0 ∨ msgSize = 0) := mt (Or.imp_left Int.natCast_eq_zero.mp) h
  obtain ⟨hlen, hcount⟩ := sendtoLoop_eq send (msgArea.take msgSize) numTimes 0 0 []
  rw [List.length_take_of_le harea, Nat.zero_add] at hcount
  rw [List.length_nil, Nat.zero_add] at hlen
  rw [sendtoSocketBuffTIPC, if_neg hguard, Int.toNat_natCast]
  simp only [hcount]
  split
  next hbad => exact ⟨hlen, iff_of_false nofun fun h => h hbad⟩
  next hgood => exact ⟨hlen, iff_of_true rfl hgood⟩

/-- `sendSocketBuffTIPC` does so if it does not call `err` with a number of errors that is right in the end. -/
theorem judge_loops_iff (harea : msgSize ≤ msgArea.length) (h : ¬ (numTimes = 0 ∨ msgSize = 0)) :
    JudgeAlike send msgArea numTimes msgSize sendErrorTarget ↔
      sendErrorTarget ≤ 0 ∨ (failures send msgSize 0 numTimes : ℤ) ≠ sendErrorTarget ∨
        sendErrorTarget = 1 ∧ send 0 ≠ some msgSize := by
  have hguard : ¬ ((numTimes : ℤ) = 0 ∨ msgSize = 0) := mt (Or.imp_left Int.natCast_eq_zero.mp) h
  have hsend : sendSocketBuffTIPC send msgArea numTimes msgSize sendErrorTarget =
      sendLoop send (msgArea.take msgSize) sendErrorTarget numTimes 0 0 [] := if_neg hguard
  have hreturns := sendLoop_failed_iff send (msgArea.take msgSize) sendErrorTarget numTimes 0 0 []
  simp only [List.length_take_of_le harea, Nat.zero_add] at hreturns
  rw [right_throughout_iff fun hn => h (.inl hn), ← hsend] at hreturns
  obtain ⟨hlen, hsendto⟩ := sendtoSocketBuffTIPC_judges send sendErrorTarget harea h
  constructor
  · intro halike
    by_cases hright : (failures send msgSize 0 numTimes : ℤ) = sendErrorTarget
    · have hquiet := halike.send_returns.mpr fun hbad => hbad.2 hright
      exact (hreturns.mp hquiet).2.imp_right .inr
    · exact .inr (.inl hright)
  · intro hcond
    refine ⟨fun hnone => ?_, fun _ => hlen, ?_, hsendto⟩
    · rw [hsend] at hnone ⊢
      rw [length_sendLoop _ _ _ _ hnone, List.length_nil, Nat.zero_add]
    · rw [hreturns, and_iff_left_iff_imp]
      intro hquiet
      rcases hcond with hnone | hwrong | hone
      · exact .inl hnone
      · exact .inl (by omega)
      · exact .inr hone

end

/-- **When the two helpers judge alike, and as their comments say.** Where they return at once, if there is no message and
    no error is expected; else, if none is expected, or the number of errors is wrong in the end, or one is expected and
    the first message fails. -/
theorem judge_alike_iff (send : ℕ → Option ℕ) (msgArea : Octets) (numTimes msgSize : ℕ) (sendErrorTarget : ℤ)
    (harea : msgSize ≤ msgArea.length) :
    JudgeAlike send msgArea numTimes msgSize sendErrorTarget ↔
      if numTimes = 0 ∨ msgSize = 0 then numTimes = 0 ∧ sendErrorTarget ≤ 0
      else sendErrorTarget ≤ 0 ∨ (failures send msgSize 0 numTimes : ℤ) ≠ sendErrorTarget ∨
        sendErrorTarget = 1 ∧ send 0 ≠ some msgSize := by
  split
  next hreturn => exact judge_at_once_iff hreturn
  next hsome => exact judge_loops_iff harea hsome

/-- The first of two messages fails, and one error is expected. -/
theorem judge_alike_iff_two : JudgeAlike (fun i => if i = 0 then none else some 3) [1, 2, 3] 2 3 1 :=
  (judge_alike_iff (fun i => if i = 0 then none else some 3) [1, 2, 3] 2 3 1 (by decide)).mpr (by decide)

/-- **The helpers judge differently:** where the second of two messages fails, and one error is expected, `send`'s helper
    calls `err` after the first message, and `sendto`'s returns. -/
theorem judge_differs : ¬ ∀ (send : ℕ → Option ℕ) (msgArea : Octets) (numTimes msgSize : ℕ) (sendErrorTarget : ℤ),
    msgSize ≤ msgArea.length → JudgeAlike send msgArea numTimes msgSize sendErrorTarget := by
  intro h
  have halike := h (fun i => if i = 1 then none else some 3) [1, 2, 3] 2 3 1 (by decide)
  exact absurd (halike.send_returns.mpr (by decide)) (by decide)

end Transfer
end Ptts
end Tipcutils
