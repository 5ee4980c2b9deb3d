import Mathlib.Algebra.BigOperators.Group.List.Basic
import Mathlib.Algebra.GroupWithZero.Nat
import Mathlib.Data.Prod.Lex
import Tipcutils.Lib.While
import Tipcutils.Ptts.Vector

/-!
# `Ptts.Burst` — the receive loops of the multicast test

`server_mcast` waits for a burst of numbered messages on several sockets, one number after the other. It looks at a message
with `MSG_PEEK`, and takes it from its socket if it has the number that it waits for; another one stays at the head of its
queue, and `select` reports its socket again.

**`mcast_ends_iff_never_spins`** says that the loops end, once no message arrives any more, unless they come to a point
where messages are waiting, sockets are still expected, and no waiting message has the number. `Ptts.Arrangements` says
which arrangements of messages lead there.

Not modelled: calls of `select` and `recvfrom` that fail, clients of other clusters (for which there is no loop), the
synchronisation, which is in `Ptts.Tests`, and the traces.
-/

namespace Tipcutils
namespace Ptts
namespace Burst

/-- `exp_num`, `expected_burst`, `expected_szs` and `used_sks`, for the subtests from 0 on. -/
def expNum (numSubTest : ℕ) : ℕ := [3, 2, 2, 5, 2, 2, 2].getD numSubTest 0
def expectedBurst (numSubTest : ℕ) : ℕ := [1, 1, 1, 1, 200, 200, 40].getD numSubTest 0
def expectedSzs (numSubTest : ℕ) : ℕ := [100, 100, 100, 100, 100, 1000, 66000].getD numSubTest 0
def usedSks (numSubTest : ℕ) : ℕ := [3, 2, 2, 5, 2, 2, 2].getD numSubTest 0

/-- The calls of `err`. -/
inductive McastErr where
  | wrongSize
  | corrupted
  | second
  | wrongNumber
deriving DecidableEq

/-- The text that `err` prints. -/
def McastErr.text : McastErr → String
  | .wrongSize => "multicast message wrong size"
  | .corrupted => "received multicast msg corrupted\n"
  | .second => "second multicast message received"
  | .wrongNumber => "Received wrong number of multicast messages\n"

/-- The variables of the `for` loop over the sockets. -/
structure Turn where
  buf : Octets
  msgcnt : ℕ
  skCnt : ℕ
  failed : Option McastErr
deriving DecidableEq

/-- The state at the head of the inner loop; a queue is what is waiting at a socket. -/
structure State extends Turn where
  queues : List (List Octets)
  msgno : ℕ
deriving DecidableEq

variable (host : Endian) (numSubTest : ℕ)

/-- What `recvfrom` leaves in the buffer; a message that is too long is cut. -/
def recvInto (size : ℕ) (buf msg : Octets) : Octets := overlay size buf (msg.take size)

/-- The number in the buffer is the one that is waited for: `msgno == *(int*) buf`. -/
def shows (msgno : ℕ) (buf : Octets) : Bool := loadU32 host buf = .ofNat msgno

/-- One round of the `for` loop, for a socket with the messages `queue`. -/
def turn (msgno : ℕ) (queue : List Octets) (t : Turn) : List Octets × Turn :=
  match queue with
  -- not in `fds`
  | [] => ([], t)
  | msg :: rest =>
    if t.failed.isSome then (queue, t)
    else
      let buf := recvInto (expectedSzs numSubTest) t.buf msg
      let rc := (msg.take (expectedSzs numSubTest)).length
      if !shows host msgno buf then (queue, { t with buf := buf })
      else if rc ≠ expectedSzs numSubTest then (rest, { t with buf := buf, failed := some .wrongSize })
      else if checkArray (buf.drop 4) (rc - 4) ≠ 0 then (rest, { t with buf := buf, failed := some .corrupted })
      else
        let t := { t with buf := buf, msgcnt := t.msgcnt + 1, skCnt := t.skCnt + 1 }
        match rest with
        | [] => (rest, t)
        | msg :: rest' =>
          -- `sizeof(buf)` is the size of a pointer
          if numSubTest < 4 then (rest', { t with buf := recvInto 8 t.buf msg, failed := some .second }) else (rest, t)

/-- The `for` loop. -/
def turns (msgno : ℕ) : List (List Octets) → Turn → List (List Octets) × Turn
  | [], t => ([], t)
  | queue :: queues, t =>
    let (queue, t) := turn host numSubTest msgno queue t
    let (queues, t) := turns msgno queues t
    (queue :: queues, t)

/-- One round of the inner loop, or its end, where the outer one goes on to the next number. -/
def State.round (s : State) : State :=
  if s.skCnt < expNum numSubTest then
    if s.queues.all List.isEmpty then
      -- `select` times out
      { s with msgno := s.msgno + 1, skCnt := 0 }
    else
      let (queues, t) := turns host numSubTest s.msgno s.queues s.toTurn
      { s with toTurn := t, queues := queues }
  else { s with msgno := s.msgno + 1, skCnt := 0 }

/-- The test of the outer loop; `err` ends the process. -/
def State.goesOn (s : State) : Bool := s.failed.isNone && s.msgno < expectedBurst numSubTest

/-- The check behind the loops. -/
def State.finish (s : State) : State :=
  if s.failed = none ∧ s.msgcnt ≠ s.msgno * usedSks numSubTest then { s with failed := some .wrongNumber } else s

/-- `server_mcast` from a point in its loops on, for at most `fuel` rounds, if no message arrives any more. -/
def serverMcast (fuel : ℕ) (s : State) : Option State :=
  (whileLoop (State.goesOn numSubTest) (fun s => some (s.round host numSubTest)) fuel s).map (State.finish numSubTest)

/-- The state in which the loops begin, with the messages that have arrived. -/
def start (buf : Octets) (queues : List (List Octets)) : State := ⟨⟨buf, 0, 0, none⟩, queues, 0⟩

/-! ## Messages that stay -/

/-- What the heads of the queues leave in the buffer, where none of them is taken. -/
def peeks : List (List Octets) → Octets → Octets
  | [], buf => buf
  | [] :: queues, buf => peeks queues buf
  | (msg :: _) :: queues, buf => peeks queues (recvInto (expectedSzs numSubTest) buf msg)

/-- None of the heads of the queues shows the number. -/
def Premature (msgno : ℕ) : List (List Octets) → Octets → Prop
  | [], _ => True
  | [] :: queues, buf => Premature msgno queues buf
  | (msg :: _) :: queues, buf =>
    shows host msgno (recvInto (expectedSzs numSubTest) buf msg) = false ∧
      Premature msgno queues (recvInto (expectedSzs numSubTest) buf msg)

/-- Messages are waiting while sockets are expected, and none of them has the number that is waited for; the buffer is as
    the waiting messages leave it. -/
structure State.Spins (s : State) : Prop where
  expected : s.skCnt < expNum numSubTest
  waiting : ∃ queue ∈ s.queues, queue ≠ []
  premature : Premature host numSubTest s.msgno s.queues s.buf
  peeked : peeks numSubTest s.queues s.buf = s.buf

/-! ## The buffer -/

section
variable {host : Endian} {numSubTest : ℕ} {msgno : ℕ} {queues : List (List Octets)} {t : Turn} {s : State}

theorem recvInto_eq (size : ℕ) (buf msg : Octets) :
    recvInto size buf msg = msg.take size ++ buf.drop (msg.take size).length := by
  rw [recvInto, overlay_of_le (by rw [List.length_take]; omega)]

/-- The heads of the queues leave the same octets in front of any buffer. -/
theorem peeks_eq (numSubTest : ℕ) (queues : List (List Octets)) (front : Octets) :
    ∃ front' : Octets, ∀ buf : Octets, peeks numSubTest queues (front ++ buf.drop front.length) =
      front' ++ buf.drop front'.length := by
  induction queues generalizing front with
  | nil => exact ⟨front, fun _ => rfl⟩
  | cons queue queues ih =>
    cases queue with
    | nil => exact ih front
    | cons msg rest =>
      obtain ⟨head, hhead⟩ : ∃ head, head = msg.take (expectedSzs numSubTest) := ⟨_, rfl⟩
      obtain ⟨front', hfront'⟩ := ih (head ++ front.drop head.length)
      refine ⟨front', fun buf => ?_⟩
      rw [← hfront', peeks, recvInto_eq, ← hhead]
      congr 1
      rw [List.append_assoc]
      congr 1
      rw [List.drop_append, List.drop_drop, List.length_append, List.length_drop]
      congr 2
      omega

/-- What they leave, they leave again. -/
theorem peeks_peeks (buf : Octets) :
    peeks numSubTest queues (peeks numSubTest queues buf) = peeks numSubTest queues buf := by
  obtain ⟨front, hfront⟩ := peeks_eq numSubTest queues []
  have hall (buf : Octets) : peeks numSubTest queues buf = front ++ buf.drop front.length := hfront buf
  rw [hall, hall, List.drop_left]

/-! ## One round -/

/-- The messages that are waiting. -/
def waiting (queues : List (List Octets)) : ℕ := (queues.map List.length).sum

theorem waiting_cons (queue : List Octets) (queues : List (List Octets)) :
    waiting (queue :: queues) = queue.length + waiting queues := rfl

/-- A message with another number stays where it is. -/
theorem turn_of_not_shows {msg : Octets} {rest : List Octets} (hf : t.failed = none)
    (h : shows host msgno (recvInto (expectedSzs numSubTest) t.buf msg) = false) :
    turn host numSubTest msgno (msg :: rest) t =
      (msg :: rest, { t with buf := recvInto (expectedSzs numSubTest) t.buf msg }) := by
  simp only [turn, hf, Option.isSome_none, h, Bool.not_false, if_true, Bool.false_eq_true, if_false]

/-- A message with the right number is taken, whatever becomes of it. -/
theorem turn_of_shows {msg : Octets} {rest : List Octets} (hf : t.failed = none)
    (h : shows host msgno (recvInto (expectedSzs numSubTest) t.buf msg) = true) :
    (turn host numSubTest msgno (msg :: rest) t).1.length < (msg :: rest).length := by
  simp only [turn, hf, Option.isSome_none, h, Bool.not_true, Bool.false_eq_true, if_false, List.length_cons]
  split
  · exact Nat.lt_succ_self _
  · split
    · exact Nat.lt_succ_self _
    · split
      · exact Nat.lt_succ_self _
      · split
        · simp only [List.length_cons]
          omega
        · exact Nat.lt_succ_self _

theorem turn_length_le (msgno : ℕ) (queue : List Octets) (t : Turn) :
    (turn host numSubTest msgno queue t).1.length ≤ queue.length := by
  cases queue with
  | nil => exact Nat.le_refl 0
  | cons msg rest =>
    cases hf : t.failed with
    | some e => simp [turn, hf]
    | none =>
      cases h : shows host msgno (recvInto (expectedSzs numSubTest) t.buf msg) with
      | false => rw [turn_of_not_shows hf h]
      | true => exact Nat.le_of_lt (turn_of_shows hf h)

theorem turns_waiting_le (queues : List (List Octets)) (t : Turn) :
    waiting (turns host numSubTest msgno queues t).1 ≤ waiting queues := by
  induction queues generalizing t with
  | nil => exact Nat.le_refl 0
  | cons queue queues ih =>
    have hturn := @turn_length_le host numSubTest msgno queue t
    have hrest := ih (turn host numSubTest msgno queue t).2
    rw [turns, waiting_cons, waiting_cons]
    omega

/-- If no head shows the number, all messages stay. -/
theorem turns_of_premature (hf : t.failed = none) (h : Premature host numSubTest msgno queues t.buf) :
    turns host numSubTest msgno queues t = (queues, { t with buf := peeks numSubTest queues t.buf }) := by
  induction queues generalizing t with
  | nil => rfl
  | cons queue queues ih =>
    cases queue with
    | nil =>
      have hfirst : turn host numSubTest msgno [] t = ([], t) := rfl
      rw [turns, hfirst]
      dsimp only
      rw [ih hf h]
      rfl
    | cons msg rest =>
      have hrest := ih (t := { t with buf := recvInto (expectedSzs numSubTest) t.buf msg }) hf h.2
      rw [turns, turn_of_not_shows hf h.1]
      dsimp only
      rw [hrest]
      rfl

/-- If one of them does, a message is taken. -/
theorem turns_waiting_lt (hf : t.failed = none) (h : ¬ Premature host numSubTest msgno queues t.buf) :
    waiting (turns host numSubTest msgno queues t).1 < waiting queues := by
  induction queues generalizing t with
  | nil => exact absurd trivial h
  | cons queue queues ih =>
    rw [turns, waiting_cons, waiting_cons]
    cases queue with
    | nil =>
      have hrest := ih hf h
      exact Nat.add_lt_add_left hrest _
    | cons msg rest =>
      cases hshows : shows host msgno (recvInto (expectedSzs numSubTest) t.buf msg) with
      | false =>
        rw [turn_of_not_shows hf hshows]
        refine Nat.add_lt_add_left (ih ?_ ?_) _
        · exact hf
        · exact fun hrest => h ⟨hshows, hrest⟩
      | true => exact Nat.add_lt_add_of_lt_of_le (turn_of_shows hf hshows) (turns_waiting_le _ _)

/-- A round with no message to wait for: the next number. -/
theorem round_next (h : ¬ (s.skCnt < expNum numSubTest ∧ ∃ queue ∈ s.queues, queue ≠ [])) :
    s.round host numSubTest = { s with msgno := s.msgno + 1, skCnt := 0 } := by
  unfold State.round
  by_cases hexp : s.skCnt < expNum numSubTest
  · have hall : s.queues.all List.isEmpty = true := by
      rw [List.all_eq_true]
      intro queue hqueue
      rw [List.isEmpty_iff]
      by_contra hne
      exact h ⟨hexp, queue, hqueue, hne⟩
    rw [if_pos hexp, if_pos hall]
  · rw [if_neg hexp]

/-- A round with messages. -/
theorem round_turns (host : Endian) (hexp : s.skCnt < expNum numSubTest) (hwait : ∃ queue ∈ s.queues, queue ≠ []) :
    s.round host numSubTest = { s with
      toTurn := (turns host numSubTest s.msgno s.queues s.toTurn).2
      queues := (turns host numSubTest s.msgno s.queues s.toTurn).1 } := by
  have hsome : ¬ s.queues.all List.isEmpty = true := by
    rw [List.all_eq_true]
    intro hall
    obtain ⟨queue, hqueue, hne⟩ := hwait
    exact hne (List.isEmpty_iff.mp (hall queue hqueue))
  rw [State.round, if_pos hexp, if_neg hsome]

/-- A round leaves the state as it is if and only if it spins. -/
theorem round_eq_iff (hf : s.failed = none) : s.round host numSubTest = s ↔ s.Spins host numSubTest := by
  by_cases hsome : s.skCnt < expNum numSubTest ∧ ∃ queue ∈ s.queues, queue ≠ []
  · obtain ⟨hexp, hwait⟩ := hsome
    rw [round_turns host hexp hwait]
    by_cases hpre : Premature host numSubTest s.msgno s.queues s.buf
    · rw [turns_of_premature hf hpre]
      constructor
      · intro h
        exact ⟨hexp, hwait, hpre, congrArg (fun s : State => s.buf) h⟩
      · intro h
        dsimp only
        rw [h.peeked]
    · refine iff_of_false (fun h => ?_) fun h => hpre h.premature
      have hless : waiting (turns host numSubTest s.msgno s.queues s.toTurn).1 < waiting s.queues :=
        turns_waiting_lt hf hpre
      have hqueues := congrArg (fun s : State => waiting s.queues) h
      dsimp only at hqueues
      omega
  · rw [round_next hsome]
    refine iff_of_false (fun h => ?_) fun h => hsome ⟨h.expected, h.waiting⟩
    have hmsgno := congrArg State.msgno h
    dsimp only at hmsgno
    omega

/-- What a round takes away: a number that is waited for, a message, or what the buffer has held before the waiting
    messages. -/
def State.rank (numSubTest : ℕ) (s : State) : ℕ ×ₗ ℕ ×ₗ ℕ :=
  toLex (expectedBurst numSubTest - s.msgno,
    toLex (waiting s.queues, if peeks numSubTest s.queues s.buf = s.buf then 0 else 1))

/-- **Every round goes down, or leaves the state as it is.** -/
theorem round_rank (host : Endian) (hgo : s.goesOn numSubTest = true) :
    s.round host numSubTest = s ∨ (s.round host numSubTest).rank numSubTest < s.rank numSubTest := by
  rw [State.goesOn, Bool.and_eq_true, Option.isNone_iff_eq_none, decide_eq_true_eq] at hgo
  obtain ⟨hf, hburst⟩ := hgo
  by_cases hsome : s.skCnt < expNum numSubTest ∧ ∃ queue ∈ s.queues, queue ≠ []
  · rw [round_turns host hsome.1 hsome.2]
    by_cases hpre : Premature host numSubTest s.msgno s.queues s.buf
    · rw [turns_of_premature hf hpre]
      by_cases hpeeked : peeks numSubTest s.queues s.buf = s.buf
      · left
        dsimp only
        rw [hpeeked]
      · right
        refine Prod.Lex.toLex_lt_toLex.mpr (.inr ⟨rfl, Prod.Lex.toLex_lt_toLex.mpr (.inr ⟨rfl, ?_⟩)⟩)
        dsimp only
        rw [if_neg hpeeked, if_pos (peeks_peeks s.buf)]
        exact Nat.one_pos
    · right
      exact Prod.Lex.toLex_lt_toLex.mpr (.inr ⟨rfl, Prod.Lex.toLex_lt_toLex.mpr (.inl (turns_waiting_lt hf hpre))⟩)
  · right
    rw [round_next hsome]
    refine Prod.Lex.toLex_lt_toLex.mpr (.inl ?_)
    dsimp only
    omega

end

/-! ## When the loops end -/

/-- The rounds of the loops. -/
abbrev McastRounds (host : Endian) (numSubTest : ℕ) : ℕ → State → State → Prop :=
  Rounds (State.goesOn numSubTest) fun s => some (s.round host numSubTest)

/-- **What keeps the loops of `server_mcast` from ending** once no message arrives any more: that they come to a point at
    which messages are waiting while sockets are expected, and none of the waiting messages has the number that is waited
    for. -/
theorem mcast_ends_iff_never_spins (host : Endian) (numSubTest : ℕ) (s : State) :
    (∃ fuel t, serverMcast host numSubTest fuel s = some t) ↔
      ∀ k t, McastRounds host numSubTest k s t → t.goesOn numSubTest = true → ¬ t.Spins host numSubTest := by
  have hloop : (∃ fuel t, whileLoop (State.goesOn numSubTest) (fun s => some (s.round host numSubTest)) fuel s = some t) ↔
      ∀ k t, McastRounds host numSubTest k s t → t.goesOn numSubTest = true → t.round host numSubTest ≠ t :=
    whileLoop_ends_iff (InvImage.wf (State.rank numSubTest) wellFounded_lt) (fun s hgo => round_rank host hgo) s
  have hfinish : (∃ fuel t, serverMcast host numSubTest fuel s = some t) ↔
      ∃ fuel t, whileLoop (State.goesOn numSubTest) (fun s => some (s.round host numSubTest)) fuel s = some t := by
    simp only [serverMcast, Option.map_eq_some_iff]
    constructor
    · rintro ⟨fuel, -, t, hrun, rfl⟩
      exact ⟨fuel, t, hrun⟩
    · rintro ⟨fuel, t, hrun⟩
      exact ⟨fuel, _, t, hrun, rfl⟩
  rw [hfinish, hloop]
  refine forall₄_congr fun k t _ hgo => not_congr (round_eq_iff ?_)
  rw [State.goesOn, Bool.and_eq_true, Option.isNone_iff_eq_none] at hgo
  exact hgo.1

/-! ## A message that is lost -/

section
variable {host : Endian} {numSubTest msgno : ℕ} {queues : List (List Octets)} {s : State}

/-- A word is in its first four octets. -/
theorem loadU32_take (b : Octets) : loadU32 host (b.take 4) = loadU32 host b := by
  have hget : ∀ i < 4, (b.take 4).getD i 0 = b.getD i 0 := by
    intro i hi
    rw [List.getD_eq_getElem?_getD, List.getD_eq_getElem?_getD, List.getElem?_take_of_lt hi]
  cases host with
  | little =>
    simp only [loadU32, hget 0 (by decide), hget 1 (by decide), hget 2 (by decide), hget 3 (by decide)]
  | big =>
    simp only [loadU32, ofBe32, hget 0 (by decide), hget 1 (by decide), hget 2 (by decide), hget 3 (by decide)]

/-- What a message with a number shows does not depend on the buffer. -/
theorem shows_recvInto {size : ℕ} {msg : Octets} (hsize : 4 ≤ size) (h : 4 ≤ msg.length) (buf : Octets) :
    shows host msgno (recvInto size buf msg) = shows host msgno msg := by
  have htake : (recvInto size buf msg).take 4 = msg.take 4 := by
    rw [recvInto, take_overlay (by rw [List.length_take]; omega) hsize, List.take_take, Nat.min_eq_left hsize]
  rw [shows, ← loadU32_take, htake, loadU32_take]
  rfl

/-- All messages that are waiting at the heads of the queues have other numbers. -/
def Unexpected (host : Endian) (msgno : ℕ) (queues : List (List Octets)) : Prop :=
  ∀ queue ∈ queues, ∀ msg ∈ queue.head?, 4 ≤ msg.length ∧ shows host msgno msg = false

theorem premature_of_unexpected (hsize : 4 ≤ expectedSzs numSubTest) (h : Unexpected host msgno queues) (buf : Octets) :
    Premature host numSubTest msgno queues buf := by
  induction queues generalizing buf with
  | nil => trivial
  | cons queue queues ih =>
    have hrest := ih fun queue' hqueue' => h queue' (List.mem_cons_of_mem queue hqueue')
    cases queue with
    | nil => exact hrest buf
    | cons msg rest =>
      obtain ⟨hlen, hother⟩ := h (msg :: rest) List.mem_cons_self msg rfl
      exact ⟨(shows_recvInto hsize hlen buf).trans hother, hrest _⟩

/-- **Messages with other numbers keep the loops going for ever.** -/
theorem not_ends_of_unexpected (hsize : 4 ≤ expectedSzs numSubTest) (hgo : s.goesOn numSubTest = true)
    (hexp : s.skCnt < expNum numSubTest) (hwait : ∃ queue ∈ s.queues, queue ≠ []) (h : Unexpected host s.msgno s.queues)
    (fuel : ℕ) : serverMcast host numSubTest fuel s = none := by
  have hf : s.failed = none := by
    rw [State.goesOn, Bool.and_eq_true, Option.isNone_iff_eq_none] at hgo
    exact hgo.1
  -- the first round may leave another buffer, and no round after it does
  have hround := round_turns host hexp hwait
  rw [turns_of_premature hf (premature_of_unexpected hsize h s.buf)] at hround
  have hspins : (s.round host numSubTest).Spins host numSubTest := by
    rw [hround]
    exact ⟨hexp, hwait, premature_of_unexpected hsize h _, peeks_peeks s.buf⟩
  have hfixed : (s.round host numSubTest).round host numSubTest = s.round host numSubTest :=
    (round_eq_iff (by rw [hround]; exact hf)).mpr hspins
  have hgo' : (s.round host numSubTest).goesOn numSubTest = true := by
    rw [hround]
    exact hgo
  rw [serverMcast, Option.map_eq_none_iff]
  cases fuel with
  | zero => rfl
  | succ fuel =>
    rw [whileLoop, if_pos hgo]
    exact whileLoop_of_fixed hgo' hfixed fuel

end

/-- The message of the fifth subtest with the number 1. -/
def messageOne : Octets := storeU32 .little 1 ++ makeArray 96 0 255

/-- **A loss that is not detected:** both sockets have lost the message 0, and the message 1 is waiting. -/
theorem mcast_spins : ¬ ∀ (host : Endian) (numSubTest : ℕ) (buf : Octets) (queues : List (List Octets)),
    queues.length = 5 → ∃ fuel t, serverMcast host numSubTest fuel (start buf queues) = some t := by
  intro h
  obtain ⟨fuel, t, hend⟩ := h .little 4 (List.replicate 66000 0) [[messageOne], [messageOne], [], [], []] rfl
  have hother : Unexpected .little 0 [[messageOne], [messageOne], [], [], []] := by
    have hone : 4 ≤ messageOne.length ∧ shows .little 0 messageOne = false := by decide
    intro queue hqueue msg hmsg
    have hmsg' : msg = messageOne := by
      simp only [List.mem_cons, List.not_mem_nil, or_false] at hqueue
      rcases hqueue with rfl | rfl | rfl | rfl | rfl
      · exact (Option.some.inj hmsg).symm
      · exact (Option.some.inj hmsg).symm
      · nomatch hmsg
      · nomatch hmsg
      · nomatch hmsg
    rw [hmsg']
    exact hone
  rw [not_ends_of_unexpected (by decide) rfl (by decide) ⟨[messageOne], List.mem_cons_self, nofun⟩ hother] at hend
  nomatch hend

end Burst
end Ptts
end Tipcutils
