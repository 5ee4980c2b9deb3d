import Mathlib.Data.List.Forall2
import Tipcutils.Lib.While
import Tipcutils.Ptts.Vector

/-!
# `Ptts.Transfer` — test messages over a connected socket

`sendSocketTIPC` sends a test message a number of times, `recvSocketTIPC` receives as many and counts the calls of `recv`
that fail and the messages that `checkArray` finds wrong. **`transfer_oracle`**: of what has been altered in transit, no
message is missed and none is counted twice.

Not modelled: `malloc` does not fail.
-/

namespace Tipcutils
namespace Ptts
namespace Transfer

/-- The calls of `err`. -/
inductive TransferErr where
  | sendErrors
  | disconnect
  | recvErrors
  | corrupted
deriving DecidableEq

/-- The text that `err` prints. -/
def TransferErr.text : TransferErr → String
  | .sendErrors => "unexpected number of send() errors"
  | .disconnect => "recv() returned unexpected disconnect"
  | .recvErrors => "unexpected number of recv() errors"
  | .corrupted => "unexpected number of corrupted messages received"

/-! ## The sender -/

/-- What a number of calls of `send` has transferred, and whether `err` was called. -/
structure Sent where
  msgs : List Octets
  failed : Option TransferErr

/-- The loop of `sendSocketBuffTIPC`: `send i` is how many octets the `i`-th call of `send` takes, `none` is -1. -/
def sendLoop (send : ℕ → Option ℕ) (msg : Octets) (sendErrorTarget : ℤ) : ℕ → ℕ → ℕ → List Octets → Sent
  | 0, _, _, msgs => ⟨msgs, none⟩
  | todo + 1, i, sendErrorCount, msgs =>
    let msgs := msgs ++ [msg.take ((send i).getD 0)]
    let sendErrorCount := if send i ≠ some msg.length then sendErrorCount + 1 else sendErrorCount
    if sendErrorTarget ≥ 0 ∧ (sendErrorCount : ℤ) ≠ sendErrorTarget then ⟨msgs, some .sendErrors⟩
    else sendLoop send msg sendErrorTarget todo (i + 1) sendErrorCount msgs

/-- `sendSocketBuffTIPC`. -/
def sendSocketBuffTIPC (send : ℕ → Option ℕ) (msgArea : Octets) (numTimes : ℤ) (msgSize : ℕ) (sendErrorTarget : ℤ) :
    Sent :=
  if numTimes = 0 ∨ msgSize = 0 then ⟨[], none⟩
  else sendLoop send (msgArea.take msgSize) sendErrorTarget numTimes.toNat 0 0 []

/-- `sendSocketTIPC`. -/
def sendSocketTIPC (send : ℕ → Option ℕ) (numTimes : ℤ) (msgSize : ℕ) (sendErrorTarget : ℤ) : Sent :=
  if numTimes = 0 ∨ msgSize = 0 then ⟨[], none⟩
  else sendSocketBuffTIPC send (makeArray msgSize 0 255) numTimes msgSize sendErrorTarget

/-! ## The receiver -/

structure Receiver where
  numTimes : ℤ
  /-- what is still to come on the connection -/
  stream : Octets
  msgArea : Octets
  /-- how often `recv` has been called -/
  calls : ℕ
  recvErrorCount : ℕ
  checkErrorCount : ℕ
  /-- the loop has been left by `break` -/
  broke : Bool
  failed : Option TransferErr
deriving DecidableEq

/-- The test of the loop. -/
def Receiver.goesOn (r : Receiver) : Bool := !r.broke && r.failed.isNone && (r.numTimes < 0 || r.numTimes ≠ 0)

/-- One round of the loop; `fails i` says that the `i`-th call of `recv` yields -1. -/
def recvRound (fails : ℕ → Bool) (maxSize : ℕ) (checkErrorTarget : ℤ) (r : Receiver) : Receiver :=
  let got := r.stream.take maxSize
  let r := { r with numTimes := if r.numTimes < 0 then r.numTimes else r.numTimes - 1, calls := r.calls + 1 }
  if fails (r.calls - 1) then
    { r with recvErrorCount := r.recvErrorCount + 1, checkErrorCount := r.checkErrorCount + 1 }
  else if got.length = 0 then
    if r.numTimes < 0 then { r with broke := true } else { r with failed := some .disconnect }
  else
    let msgArea := overlay maxSize r.msgArea got
    { r with
      stream := r.stream.drop maxSize
      msgArea := msgArea
      checkErrorCount :=
        if checkErrorTarget ≥ 0 ∧ checkArray msgArea got.length ≠ 0 then r.checkErrorCount + 1
        else r.checkErrorCount }

/-- The two tests behind the loop. -/
def Receiver.judge (r : Receiver) (recvErrorTarget checkErrorTarget : ℤ) : Receiver :=
  if r.failed.isSome then r
  else if recvErrorTarget ≥ 0 ∧ (r.recvErrorCount : ℤ) ≠ recvErrorTarget then { r with failed := some .recvErrors }
  else if checkErrorTarget ≥ 0 ∧ (r.checkErrorCount : ℤ) ≠ checkErrorTarget then { r with failed := some .corrupted }
  else r

/-- `recvSocketTIPC`, for at most `fuel` rounds; `msgArea` is what `malloc` yields. -/
def recvSocketTIPC (fuel : ℕ) (fails : ℕ → Bool) (msgArea stream : Octets) (numTimes : ℤ) (maxSize : ℕ)
    (recvErrorTarget checkErrorTarget : ℤ) : Option Receiver :=
  let r : Receiver := ⟨numTimes, stream, msgArea, 0, 0, 0, false, none⟩
  if numTimes = 0 ∨ maxSize = 0 then some r
  else
    (whileLoop Receiver.goesOn (fun r => some (recvRound fails maxSize checkErrorTarget r)) fuel r).map
      fun r => r.judge recvErrorTarget checkErrorTarget

/-! ## A connection that loses nothing -/

/-- Every call of `send` takes the whole message. -/
theorem sendLoop_reliable (msg : Octets) (todo i : ℕ) (msgs : List Octets) :
    sendLoop (fun _ => some msg.length) msg 0 todo i 0 msgs = ⟨msgs ++ List.replicate todo msg, none⟩ := by
  induction todo generalizing i msgs with
  | zero => rw [sendLoop, List.replicate_zero, List.append_nil]
  | succ todo ih =>
    have hgood : ¬ ((0 : ℤ) ≥ 0 ∧ ((0 : ℕ) : ℤ) ≠ 0) := fun h => h.2 rfl
    simp only [sendLoop, ne_eq, not_true_eq_false, if_false, Option.getD_some, List.take_length]
    rw [if_neg hgood, ih, List.append_assoc, List.singleton_append, List.replicate_succ]

theorem sendSocketTIPC_reliable {n m : ℕ} (hn : 1 ≤ n) (hm : 1 ≤ m) :
    sendSocketTIPC (fun _ => some m) n m 0 = ⟨List.replicate n (makeArray m 0 255), none⟩ := by
  have hsome : ¬ ((n : ℤ) = 0 ∨ m = 0) := by omega
  have hlen : (makeArray m 0 255).length = m := length_makeArray m 0 255
  have hloop := sendLoop_reliable (makeArray m 0 255) n 0 []
  rw [hlen] at hloop
  rw [sendSocketTIPC, if_neg hsome, sendSocketBuffTIPC, if_neg hsome, List.take_of_length_le (by omega),
    Int.toNat_natCast, hloop, List.nil_append]

variable {m : ℕ} {r : Receiver} {checkErrorTarget : ℤ}

/-- A round that finds the next message on the connection. -/
theorem recvRound_msg {g rest : Octets} (hm : 1 ≤ m) (hg : g.length = m) (ht : 0 ≤ checkErrorTarget)
    (hn : 0 < r.numTimes) (hs : r.stream = g ++ rest) :
    recvRound (fun _ => false) m checkErrorTarget r =
      { r with
        numTimes := r.numTimes - 1
        calls := r.calls + 1
        stream := rest
        msgArea := g ++ r.msgArea.drop m
        checkErrorCount := r.checkErrorCount + if checkArray g m ≠ 0 then 1 else 0 } := by
  have htake : r.stream.take m = g := by rw [hs, List.take_left' hg]
  have hdrop : r.stream.drop m = rest := by rw [hs, List.drop_left' hg]
  have hsome : ¬ m = 0 := by omega
  have hcheck : checkArray (g ++ r.msgArea.drop m) m = checkArray g m := by
    -- what older messages have left behind in `msgArea` is not looked at
    rw [← hg]
    exact checkArray_append _ _
  have harea : overlay m r.msgArea g = g ++ r.msgArea.drop m := by
    rw [overlay_of_le (Nat.le_of_eq hg), hg]
  unfold recvRound
  simp only [htake, hdrop, hg, if_neg hsome, if_neg (Int.not_lt.mpr (Int.le_of_lt hn)), harea, hcheck, ge_iff_le, ht,
    true_and, Bool.false_eq_true, if_false]
  split <;> rfl

/-- The loop receives the messages one after the other. -/
theorem recv_run (hm : 1 ≤ m) (ht : 0 ≤ checkErrorTarget) (rest : Octets) {got : List Octets}
    (hgot : ∀ g ∈ got, g.length = m) (hn : r.numTimes = got.length) (hs : r.stream = got.flatten ++ rest)
    (hb : r.broke = false) (hf : r.failed = none) :
    ∃ r', whileLoop Receiver.goesOn (fun r => some (recvRound (fun _ => false) m checkErrorTarget r))
        (got.length + 1) r = some r' ∧
      r'.stream = rest ∧ r'.recvErrorCount = r.recvErrorCount ∧
      r'.checkErrorCount = r.checkErrorCount + got.countP (fun g => checkArray g m ≠ 0) ∧ r'.failed = none := by
  induction got generalizing r with
  | nil =>
    have hstop : r.goesOn = false := by simp [Receiver.goesOn, hn]
    exact ⟨r, whileLoop_of_false hstop, hs, rfl, rfl, hf⟩
  | cons g got ih =>
    have hpos : 0 < r.numTimes := by rw [hn, List.length_cons]; omega
    have hgo : r.goesOn = true := by simp [Receiver.goesOn, hb, hf]; omega
    have hstream : r.stream = g ++ (got.flatten ++ rest) := by rw [hs, List.flatten_cons, List.append_assoc]
    have hround := recvRound_msg hm (hgot g List.mem_cons_self) ht hpos hstream
    obtain ⟨r', hrun, hstream, hrecv, hcheck, hfailed⟩ :=
      ih (r := recvRound (fun _ => false) m checkErrorTarget r) (fun g' hg' => hgot g' (List.mem_cons_of_mem g hg'))
        (by rw [hround, hn, List.length_cons]; push_cast; omega) (by rw [hround]) (by rw [hround]; exact hb)
        (by rw [hround]; exact hf)
    refine ⟨r', ?_, hstream, ?_, ?_, hfailed⟩
    · have hfirst : whileLoop Receiver.goesOn (fun r => some (recvRound (fun _ => false) m checkErrorTarget r))
          (got.length + 1 + 1) r =
          whileLoop Receiver.goesOn (fun r => some (recvRound (fun _ => false) m checkErrorTarget r)) (got.length + 1)
            (recvRound (fun _ => false) m checkErrorTarget r) :=
        whileLoop_of_true hgo rfl
      exact hfirst.trans hrun
    · rw [hrecv, hround]
    · rw [hcheck, hround, List.countP_cons, Nat.add_assoc, Nat.add_comm _ (got.countP _)]
      simp only [decide_eq_true_eq]

/-! ## The oracle -/

/-- What happens to a message in transit: nothing, or one of its octets is altered. -/
def InTransit (sent got : Octets) : Prop := got = sent ∨ Altered sent got

theorem inTransit_replicate {n : ℕ} {msg : Octets} {got : List Octets}
    (h : List.Forall₂ InTransit (List.replicate n msg) got) :
    got.length = n ∧ (∀ g ∈ got, InTransit msg g) ∧
      ((List.replicate n msg).zip got).countP (fun p => p.2 ≠ p.1) = got.countP (· ≠ msg) := by
  induction n generalizing got with
  | zero =>
    obtain rfl := List.forall₂_nil_left_iff.mp h
    exact ⟨rfl, nofun, rfl⟩
  | succ n ih =>
    obtain ⟨g, got', hg, hrest, rfl⟩ := List.forall₂_cons_left_iff.mp h
    obtain ⟨hlen, hall, hcount⟩ := ih hrest
    refine ⟨by rw [List.length_cons, hlen], ?_, ?_⟩
    · intro g' hg'
      rcases List.mem_cons.mp hg' with rfl | hmem
      · exact hg
      · exact hall g' hmem
    · rw [List.replicate_succ, List.zip_cons_cons, List.countP_cons, List.countP_cons, hcount]

/-- The tests behind the loop, where no `recv` has failed. -/
theorem judge_zero (hf : r.failed = none) (hr : r.recvErrorCount = 0) :
    r.judge 0 0 = if r.checkErrorCount = 0 then r else { r with failed := some .corrupted } := by
  unfold Receiver.judge
  by_cases hc : r.checkErrorCount = 0 <;> simp [hf, hr, hc]

/-- **The transfer oracle.** However many messages of whatever size are sent, and whichever of them have one octet
    altered in transit, the receiver takes exactly these messages from the connection, counts exactly the altered ones,
    and returns if and only if there are none. -/
theorem transfer_oracle {n m : ℕ} (hn : 1 ≤ n) (hm : 1 ≤ m) (hint : m < 2 ^ 31) (msgArea rest : Octets)
    {got : List Octets} (hgot : List.Forall₂ InTransit (sendSocketTIPC (fun _ => some m) n m 0).msgs got) :
    (sendSocketTIPC (fun _ => some m) n m 0).failed = none ∧ got.length = n ∧ got.flatten.length = n * m ∧
      ∃ r, recvSocketTIPC (n + 1) (fun _ => false) msgArea (got.flatten ++ rest) n m 0 0 = some r ∧ r.stream = rest ∧
        r.checkErrorCount =
          ((sendSocketTIPC (fun _ => some m) n m 0).msgs.zip got).countP (fun p => p.2 ≠ p.1) ∧
        (r.failed = none ↔ got = (sendSocketTIPC (fun _ => some m) n m 0).msgs) := by
  rw [sendSocketTIPC_reliable hn hm] at hgot ⊢
  obtain ⟨hlen, hall, hcount⟩ := inTransit_replicate hgot
  have hsize : ∀ g ∈ got, g.length = m := by
    intro g hg
    rcases hall g hg with rfl | halt
    · exact length_makeArray m 0 255
    · rw [halt.length_eq, length_makeArray]
  have hflat : got.flatten.length = n * m := by
    rw [List.length_flatten, List.map_congr_left hsize, List.map_const', List.sum_replicate_nat, hlen]
  obtain ⟨r, hrun, hstream, hrecv, hcheck, hfailed⟩ :=
    recv_run (r := ⟨n, got.flatten ++ rest, msgArea, 0, 0, 0, false, none⟩) hm (Int.le_refl 0) rest hsize
      (by rw [hlen]) rfl rfl rfl
  -- what `checkArray` counts are the messages that differ from what was sent
  have hwrong : got.countP (fun g => checkArray g m ≠ 0) = got.countP (· ≠ makeArray m 0 255) := by
    apply List.countP_congr
    intro g hg
    have hiff := checkArray_eq_zero_iff (by omega) (hall g hg)
    simp only [decide_eq_true_eq]
    exact not_congr hiff
  have hclean : got.countP (· ≠ makeArray m 0 255) = 0 ↔ got = List.replicate n (makeArray m 0 255) := by
    rw [List.countP_eq_zero, List.eq_replicate_iff]
    simp [hlen]
  have hsome : ¬ ((n : ℤ) = 0 ∨ m = 0) := by omega
  rw [hwrong] at hcheck
  rw [hlen] at hrun
  refine ⟨rfl, hlen, hflat, r.judge 0 0, ?_, ?_⟩
  · rw [recvSocketTIPC, if_neg hsome, hrun]
    rfl
  · rw [judge_zero hfailed hrecv, hcount, ← hclean]
    have hcount' : r.checkErrorCount = got.countP (· ≠ makeArray m 0 255) := hcheck.trans (Nat.zero_add _)
    rw [← hcount']
    by_cases hc : r.checkErrorCount = 0
    · simp [hc, hstream, hfailed]
    · simp [hc, hstream]

/-- The message of nine octets, and what arrives when the first octet of its data is altered. -/
def sentNine : Octets := makeArray 9 0 255
def gotNine : Octets := sentNine.set 7 0xFF

theorem inTransit_gotNine : List.Forall₂ InTransit [sentNine, sentNine] [sentNine, gotNine] := by
  refine .cons (.inl rfl) (.cons (.inr ⟨sentNine.take 7, 0, 0xFF, [1], ?_, ?_, ?_⟩) .nil) <;> decide

theorem transfer_oracle_gotNine :
    ∃ r, recvSocketTIPC 3 (fun _ => false) [] [sentNine, gotNine].flatten 2 9 0 0 = some r ∧ r.stream = [] ∧
      r.checkErrorCount = 1 ∧ r.failed ≠ none := by
  have hsent : (sendSocketTIPC (fun _ => some 9) (2 : ℕ) 9 0).msgs = [sentNine, sentNine] := by decide
  obtain ⟨-, -, -, r, hrun, hstream, hcount, hreturn⟩ :=
    transfer_oracle (n := 2) (m := 9) (by decide) (by decide) (by decide) [] [] (hsent ▸ inTransit_gotNine)
  rw [hsent] at hcount hreturn
  rw [List.append_nil] at hrun
  refine ⟨r, hrun, hstream, ?_, fun h => absurd (hreturn.mp h) ?_⟩
  · rw [hcount]
    decide
  · decide

end Transfer
end Ptts
end Tipcutils
