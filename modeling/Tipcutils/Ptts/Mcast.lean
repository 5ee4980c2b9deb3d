import Tipcutils.Lib.Lts
import Tipcutils.Ptts.Burst

/-!
# `Ptts.Mcast` — the multicast test on a network that delivers

`client_mcast` sends a burst of numbered messages to a range of instances, and the network brings every one of them to
each socket with a binding that meets the range: once, in the order of their sending at each socket, and within the
second for which `select` waits. Between the rounds of the loops of `server_mcast` (`Ptts.Burst`) any of the messages
may arrive; one that arrives in the `for` loop is behind what this loop looks at, so it might as well arrive after it.

The number of a message is stored as the client has it, and read as the server has it. **`mcast_passes_iff`**: whatever
the order of the arrivals, a subtest passes, if and only if the two hosts have the same byte order or its burst has one
message only.
-/

namespace Tipcutils
namespace Ptts
namespace Mcast

open Burst

/-! ## The client, the network and the server -/

/-- The arguments of a call of `client_mcast`. -/
structure Call where
  lower : ℕ
  upper : ℕ
  msgsize : ℕ
  burstsize : ℕ

/-- The calls of `client_test_multicast`. -/
def calls : List Call :=
  [⟨99, 100, 100, 1⟩, ⟨150, 250, 100, 1⟩, ⟨200, 399, 100, 1⟩, ⟨0, 399, 100, 1⟩, ⟨200, 399, 100, 200⟩,
    ⟨200, 399, 1000, 200⟩, ⟨200, 399, 66000, 40⟩]

def call (numSubTest : ℕ) : Call := calls.getD numSubTest ⟨0, 0, 0, 0⟩

/-- The calls of `server_bindMulticast`: the range, and the place of the socket in `sd`. -/
def bindings : List (ℕ × ℕ × ℕ) :=
  [(0, 99, 0), (0, 99, 1), (100, 199, 2), (200, 299, 3), (200, 299, 3), (300, 399, 4)]

/-- `TIPC_MCAST_SOCKETS`. -/
def tipcMcastSockets : ℕ := 5

/-- A multicast to the range reaches the socket. -/
def Call.reaches (c : Call) (sk : ℕ) : Bool :=
  bindings.any fun (lower, upper, i) => i == sk && decide (lower ≤ c.upper) && decide (c.lower ≤ upper)

/-- The sockets that are reached. -/
def Call.reached (c : Call) : List Bool := (List.range tipcMcastSockets).map c.reaches

/-- The message with the number `i`. -/
def Call.message (c : Call) (client : Endian) (i : ℕ) : Octets :=
  storeU32 client (.ofNat i) ++ makeArray (c.msgsize - 4) 0 (c.msgsize - 4 : ℕ)

/-- The messages of the burst. -/
def Call.messages (c : Call) (client : Endian) : List Octets := (List.range c.burstsize).map (c.message client)

/-- The server in its loops, and what is still to arrive at each socket. -/
structure State extends Burst.State where
  inFlight : List (List Octets)

def start (client : Endian) (numSubTest : ℕ) (buf : Octets) : State :=
  { Burst.start buf (List.replicate tipcMcastSockets []) with
    inFlight := (call numSubTest).reached.map fun r => if r then (call numSubTest).messages client else [] }

/-- A message arrives at a socket, or the loops make a round. -/
inductive Label where
  | arrive (sk : ℕ)
  | round

/-- The next message for the socket arrives. -/
def arriveAt : ℕ → List (List Octets) → List (List Octets) → Option (List (List Octets) × List (List Octets))
  | 0, queue :: queues, (msg :: msgs) :: inFlight => some ((queue ++ [msg]) :: queues, msgs :: inFlight)
  | sk + 1, queue :: queues, msgs :: inFlight =>
    (arriveAt sk queues inFlight).map fun (queues, inFlight) => (queue :: queues, msgs :: inFlight)
  | _, _, _ => none

/-- `select` waits: nothing has arrived, and something will. -/
def State.Blocks (numSubTest : ℕ) (s : State) : Prop :=
  s.skCnt < expNum numSubTest ∧ s.queues.all List.isEmpty = true ∧ s.inFlight.all List.isEmpty = false

instance (numSubTest : ℕ) (s : State) : Decidable (s.Blocks numSubTest) := inferInstanceAs (Decidable (_ ∧ _))

def step (server : Endian) (numSubTest : ℕ) (s : State) : Label → Option State
  | .arrive sk => (arriveAt sk s.queues s.inFlight).map fun (queues, inFlight) =>
      { s with queues := queues, inFlight := inFlight }
  | .round =>
    if s.goesOn numSubTest = true ∧ ¬ s.Blocks numSubTest then
      some { s.toState.round server numSubTest with inFlight := s.inFlight }
    else none

/-! ## The two tables -/

/-- The client's calls and the server's expectations. -/
structure Agrees (numSubTest : ℕ) : Prop where
  used : (call numSubTest).reached.count true = expNum numSubTest
  usedSks : usedSks numSubTest = expNum numSubTest
  some : 0 < expNum numSubTest
  burst : (call numSubTest).burstsize = expectedBurst numSubTest
  burst_le : expectedBurst numSubTest ≤ 200
  sole : numSubTest < 4 → expectedBurst numSubTest = 1
  several : 4 ≤ numSubTest → 1 < expectedBurst numSubTest
  size : (call numSubTest).msgsize = expectedSzs numSubTest
  size_ge : 4 ≤ expectedSzs numSubTest
  size_le : expectedSzs numSubTest ≤ 66000

theorem agrees {numSubTest : ℕ} (h : numSubTest < 7) : Agrees numSubTest := by
  constructor <;> revert numSubTest <;> decide

/-! ## Numbers -/

/-- The number is read as it has been stored. -/
def Reads (client server : Endian) (k : ℕ) : Prop := loadU32 server (storeU32 client (.ofNat k)) = .ofNat k

instance (client server : Endian) (k : ℕ) : Decidable (Reads client server k) := inferInstanceAs (Decidable (_ = _))

variable {client server : Endian} {numSubTest k : ℕ}

theorem reads_zero (client server : Endian) : Reads client server 0 := by
  cases client <;> cases server <;> decide

theorem reads_of_eq (h : client = server) (k : ℕ) : Reads client server k := by
  have hload := loadU32_storeU32 client (.ofNat k) []
  rw [List.append_nil] at hload
  rw [Reads, ← h]
  exact hload

/-- With different byte orders, 1 is read as another number. -/
theorem not_reads_one (h : client ≠ server) : ¬ Reads client server 1 := by
  cases client <;> cases server
  · exact absurd rfl h
  · decide
  · decide
  · exact absurd rfl h

/-- The next number is not read as this one. -/
theorem reads_succ_ne (hk : k < 2 ^ 31) (h : Reads client server k) :
    loadU32 server (storeU32 client (.ofNat (k + 1))) ≠ .ofNat k := by
  intro heq
  have hinj := loadU32_storeU32_inj (heq.trans h.symm)
  have hnat := congrArg UInt32.toNat hinj
  rw [UInt32.toNat_ofNat_of_lt' (by simp [UInt32.size]; omega), UInt32.toNat_ofNat_of_lt' (by simp [UInt32.size]; omega)]
    at hnat
  omega

section
variable (c : Call) (client : Endian)

/-- The messages from one number on. -/
theorem drop_messages {i : ℕ} (h : i < c.burstsize) :
    (c.messages client).drop i = c.message client i :: (c.messages client).drop (i + 1) := by
  rw [List.drop_eq_getElem_cons (by simpa [Call.messages] using h)]
  simp [Call.messages]

theorem length_message (h : 4 ≤ c.msgsize) (i : ℕ) : (c.message client i).length = c.msgsize := by
  rw [Call.message, List.length_append, length_makeArray]
  have hstore : (storeU32 client (.ofNat i)).length = 4 := by cases client <;> rfl
  omega

/-- A message shows its number, if this is read as it has been stored. -/
theorem shows_message (server : Endian) (msgno i : ℕ) :
    shows server msgno (c.message client i) = decide (loadU32 server (storeU32 client (.ofNat i)) = .ofNat msgno) := by
  have hstore : (storeU32 client (.ofNat i)).length = 4 := by cases client <;> rfl
  rw [shows, Call.message, ← loadU32_take, List.take_left' hstore]

/-- What is received of a message has no errors. -/
theorem checkArray_message (hge : 4 ≤ c.msgsize) (hle : c.msgsize ≤ 66000) (i : ℕ) (buf : Octets) :
    checkArray ((recvInto c.msgsize buf (c.message client i)).drop 4) (c.msgsize - 4) = 0 := by
  have hstore : (storeU32 client (.ofNat i)).length = 4 := by cases client <;> rfl
  have hlen := length_makeArray (c.msgsize - 4) 0 (c.msgsize - 4 : ℕ)
  rw [recvInto_eq, List.take_of_length_le (length_message c client hge i).le, Call.message, List.append_assoc,
    List.drop_left' hstore]
  have happend := checkArray_append (makeArray (c.msgsize - 4) 0 (c.msgsize - 4 : ℕ))
    (buf.drop (c.message client i).length)
  rw [hlen] at happend
  exact happend.trans (checkArray_makeArray (by omega) _ _)

end

/-! ## What is waiting, and what is to come -/

/-- Whether a socket is reached, and how many messages have been taken from it. -/
abbrev Taken := Bool × ℕ

/-- At every socket that is reached, what is waiting and then what is still to arrive are the messages of the burst that
    have not been taken; and nothing comes to the others. -/
def Lined (msgs : List Octets) : List Taken → List (List Octets) → List (List Octets) → Prop
  | [], [], [] => True
  | sk :: sks, queue :: queues, rest :: inFlight =>
    queue ++ rest = (if sk.1 then msgs.drop sk.2 else []) ∧ Lined msgs sks queues inFlight
  | _, _, _ => False

theorem Lined.arrive {msgs : List Octets} {sks : List Taken} {queues inFlight queues' inFlight' : List (List Octets)}
    {i : ℕ} (h : Lined msgs sks queues inFlight) (ha : arriveAt i queues inFlight = some (queues', inFlight')) :
    Lined msgs sks queues' inFlight' := by
  induction i generalizing sks queues inFlight queues' inFlight' with
  | zero =>
    match sks, queues, inFlight, h, ha with
    | [], [], [], _, ha => nomatch ha
    | sk :: sks, queue :: queues, (msg :: msgs') :: inFlight, ⟨hfirst, hrest⟩, ha =>
      obtain ⟨rfl, rfl⟩ := Prod.mk.inj (Option.some.inj ha)
      refine ⟨?_, hrest⟩
      rwa [List.append_assoc, List.singleton_append]
  | succ i ih =>
    match sks, queues, inFlight, h, ha with
    | [], [], [], _, ha => nomatch ha
    | sk :: sks, queue :: queues, msgs' :: inFlight, ⟨hfirst, hrest⟩, ha =>
      obtain ⟨⟨queues₁, inFlight₁⟩, ha₁, heq⟩ := Option.map_eq_some_iff.mp ha
      obtain ⟨rfl, rfl⟩ := Prod.mk.inj heq
      exact ⟨hfirst, ih hrest ha₁⟩

/-- How many sockets have yielded the message with the number `msgno`. -/
def done (msgno : ℕ) (sks : List Taken) : ℕ := sks.countP fun sk => sk.1 && sk.2 == msgno + 1

/-- A socket that is reached has yielded all messages before `msgno`, and perhaps this one, if it is read. -/
def Near (client server : Endian) (msgno : ℕ) (sk : Taken) : Prop :=
  sk.1 = true → sk.2 = msgno ∨ sk.2 = msgno + 1 ∧ Reads client server msgno

/-! ## One round -/

variable {msgno : ℕ} {t : Turn}

/-- What the loop over the sockets does with one of them. -/
structure Turned (client server : Endian) (numSubTest msgno : ℕ) (sk : Taken) (rest : List Octets) (t : Turn)
    (sk' : Taken) (queue' : List Octets) (t' : Turn) : Prop where
  reached : sk'.1 = sk.1
  lined : queue' ++ rest = if sk'.1 then ((call numSubTest).messages client).drop sk'.2 else []
  failed : t'.failed = none
  near : Near client server msgno sk'
  skCnt : t'.skCnt + done msgno [sk] = t.skCnt + done msgno [sk']
  msgcnt : t'.msgcnt + t.skCnt = t.msgcnt + t'.skCnt

theorem turn_spec (ha : Agrees numSubTest) (hno : msgno < 2 ^ 31) {sk : Taken} {queue rest : List Octets}
    (hlined : queue ++ rest = if sk.1 then ((call numSubTest).messages client).drop sk.2 else [])
    (hnear : Near client server msgno sk) (hf : t.failed = none) :
    ∃ sk', Turned client server numSubTest msgno sk rest t sk' (turn server numSubTest msgno queue t).1
      (turn server numSubTest msgno queue t).2 := by
  have hsize : (call numSubTest).msgsize = expectedSzs numSubTest := ha.size
  cases queue with
  | nil => exact ⟨sk, rfl, hlined, hf, hnear, rfl, rfl⟩
  | cons msg queue =>
    obtain ⟨reached, taken⟩ := sk
    cases reached with
    | false => nomatch hlined
    | true =>
      simp only [if_true, List.cons_append] at hlined
      -- the first message that has not been taken
      have hlt : taken < (call numSubTest).burstsize := by
        by_contra hle
        rw [List.drop_of_length_le] at hlined
        · nomatch hlined
        · simpa [Call.messages] using hle
      have hdrop := drop_messages (call numSubTest) client hlt
      rw [hdrop, List.cons.injEq] at hlined
      obtain ⟨rfl, hrest⟩ := hlined
      have hlen := length_message (call numSubTest) client (by rw [hsize]; exact ha.size_ge) taken
      have hshows : ∀ buf, shows server msgno (recvInto (expectedSzs numSubTest) buf
          ((call numSubTest).message client taken)) =
          decide (loadU32 server (storeU32 client (.ofNat taken)) = .ofNat msgno) := by
        intro buf
        rw [shows_recvInto ha.size_ge (by rw [hlen, hsize]; exact ha.size_ge), shows_message]
      by_cases hread : loadU32 server (storeU32 client (.ofNat taken)) = .ofNat msgno
      · obtain rfl : taken = msgno := by
          rcases hnear rfl with heq | ⟨rfl, hreads⟩
          · exact heq
          · exact absurd hread (reads_succ_ne hno hreads)
        have htake : (((call numSubTest).message client taken).take (expectedSzs numSubTest)).length =
            expectedSzs numSubTest := by
          rw [List.take_of_length_le (by omega), hlen, hsize]
        have hcheck := checkArray_message (call numSubTest) client (by rw [hsize]; exact ha.size_ge)
          (by rw [hsize]; exact ha.size_le) taken t.buf
        rw [hsize] at hcheck
        have hsole : numSubTest < 4 → queue = [] := by
          intro hn
          have hone := ha.sole hn
          rw [List.drop_of_length_le (by simp [Call.messages, ha.burst]; omega)] at hrest
          exact (List.append_eq_nil_iff.mp hrest).1
        have hturn : turn server numSubTest taken ((call numSubTest).message client taken :: queue) t =
            (queue, { t with
              buf := recvInto (expectedSzs numSubTest) t.buf ((call numSubTest).message client taken)
              msgcnt := t.msgcnt + 1
              skCnt := t.skCnt + 1 }) := by
          simp only [turn, hf, Option.isSome_none, Bool.false_eq_true, if_false, hshows, hread, decide_true, Bool.not_true,
            htake, ne_eq, not_true_eq_false, hcheck]
          split
          · rfl
          · rw [if_neg fun hn => List.cons_ne_nil _ _ (hsole hn)]
        rw [hturn]
        refine ⟨(true, taken + 1), rfl, hrest, hf, fun _ => .inr ⟨rfl, hread⟩, ?_, ?_⟩
        · simp [done]
        · show t.msgcnt + 1 + t.skCnt = t.msgcnt + (t.skCnt + 1)
          omega
      · rw [turn_of_not_shows hf (by rw [hshows, decide_eq_false hread])]
        refine ⟨(true, taken), rfl, ?_, hf, hnear, rfl, rfl⟩
        rw [if_pos rfl, hdrop, ← hrest]
        rfl

theorem done_cons (msgno : ℕ) (sk : Taken) (sks : List Taken) :
    done msgno (sk :: sks) = done msgno [sk] + done msgno sks := by
  rw [done, List.countP_cons, done, List.countP_singleton, done, Nat.add_comm]

variable {sks : List Taken} {queues inFlight : List (List Octets)}

/-- What it does with all of them. -/
theorem turns_spec (ha : Agrees numSubTest) (hno : msgno < 2 ^ 31)
    (hlined : Lined ((call numSubTest).messages client) sks queues inFlight)
    (hnear : ∀ sk ∈ sks, Near client server msgno sk) (hf : t.failed = none) :
    ∃ sks', sks'.map Prod.fst = sks.map Prod.fst ∧
      Lined ((call numSubTest).messages client) sks' (turns server numSubTest msgno queues t).1 inFlight ∧
      (turns server numSubTest msgno queues t).2.failed = none ∧ (∀ sk ∈ sks', Near client server msgno sk) ∧
      (turns server numSubTest msgno queues t).2.skCnt + done msgno sks = t.skCnt + done msgno sks' ∧
      (turns server numSubTest msgno queues t).2.msgcnt + t.skCnt =
        t.msgcnt + (turns server numSubTest msgno queues t).2.skCnt := by
  induction queues generalizing sks inFlight t with
  | nil =>
    match sks, inFlight, hlined with
    | [], [], _ => exact ⟨[], rfl, trivial, hf, nofun, rfl, rfl⟩
  | cons queue queues ih =>
    match sks, inFlight, hlined with
    | sk :: sks, rest :: inFlight, ⟨hfirst, hothers⟩ =>
      obtain ⟨sk', hturn⟩ := turn_spec ha hno hfirst (hnear sk List.mem_cons_self) hf
      obtain ⟨sks', hreached, hlined', hf', hnear', hskCnt, hmsgcnt⟩ :=
        ih hothers (fun sk hsk => hnear sk (List.mem_cons_of_mem _ hsk)) hturn.failed
      have hskCnt₁ := hturn.skCnt
      have hmsgcnt₁ := hturn.msgcnt
      refine ⟨sk' :: sks', ?_, ⟨hturn.lined, hlined'⟩, hf', ?_, ?_, ?_⟩
      · rw [List.map_cons, List.map_cons, hturn.reached, hreached]
      · intro sk hsk
        rcases List.mem_cons.mp hsk with rfl | hsk
        · exact hturn.near
        · exact hnear' sk hsk
      · rw [done_cons msgno sk, done_cons msgno sk', turns]
        dsimp only
        omega
      · rw [turns]
        dsimp only
        omega

/-! ## The loops -/

/-- What holds between the rounds. -/
structure Inv (client server : Endian) (numSubTest : ℕ) (s : State) (sks : List Taken) : Prop where
  reached : sks.map Prod.fst = (call numSubTest).reached
  lined : Lined ((call numSubTest).messages client) sks s.queues s.inFlight
  failed : s.failed = none
  near : ∀ sk ∈ sks, Near client server s.msgno sk
  skCnt : s.skCnt = done s.msgno sks
  msgcnt : s.msgcnt = s.msgno * expNum numSubTest + s.skCnt
  msgno : s.msgno ≤ expectedBurst numSubTest
  last : s.msgno = expectedBurst numSubTest → s.skCnt = 0
  reads : ∀ k < s.msgno, Reads client server k

variable {s s' : State}

/-- How many sockets still have to yield the message. -/
def behind (msgno : ℕ) (sks : List Taken) : ℕ := sks.countP fun sk => sk.1 && sk.2 == msgno

theorem behind_add_done (hnear : ∀ sk ∈ sks, Near client server msgno sk) :
    behind msgno sks + done msgno sks = (sks.map Prod.fst).count true := by
  induction sks with
  | nil => rfl
  | cons sk sks ih =>
    have hrest := ih fun sk hsk => hnear sk (List.mem_cons_of_mem _ hsk)
    have hsk := hnear sk List.mem_cons_self
    obtain ⟨reached, taken⟩ := sk
    unfold behind done at hrest ⊢
    rw [List.countP_cons, List.countP_cons, List.map_cons, List.count_cons]
    cases reached with
    | false =>
      simp
      omega
    | true =>
      rcases hsk rfl with heq | ⟨heq, -⟩
      · obtain rfl : taken = msgno := heq
        simp
        omega
      · obtain rfl : taken = msgno + 1 := heq
        simp
        omega

/-- The sockets that are expected are those that are reached. -/
theorem behind_add_done_eq (ha : Agrees numSubTest) (hreached : sks.map Prod.fst = (call numSubTest).reached)
    (hnear : ∀ sk ∈ sks, Near client server msgno sk) : behind msgno sks + done msgno sks = expNum numSubTest := by
  rw [behind_add_done hnear, hreached, ha.used]

theorem mem_of_behind (h : 0 < behind msgno sks) : (true, msgno) ∈ sks := by
  obtain ⟨⟨reached, taken⟩, hmem, hboth⟩ := List.countP_pos_iff.mp h
  simp only [Bool.and_eq_true, beq_iff_eq] at hboth
  obtain ⟨rfl, rfl⟩ := hboth
  exact hmem

/-- When none is behind, all that are reached have yielded the message, and so it has been read. -/
theorem all_done (ha : Agrees numSubTest) (hreached : sks.map Prod.fst = (call numSubTest).reached)
    (hnear : ∀ sk ∈ sks, Near client server msgno sk) (hnone : behind msgno sks = 0) :
    (∀ sk ∈ sks, sk.1 = true → sk.2 = msgno + 1) ∧ Reads client server msgno := by
  have hdone : ∀ sk ∈ sks, sk.1 = true → sk.2 = msgno + 1 ∧ Reads client server msgno := by
    intro sk hsk hr
    refine (hnear sk hsk hr).resolve_left ?_
    intro heq
    have hnot := List.countP_eq_zero.mp hnone sk hsk
    rw [hr, heq] at hnot
    simp at hnot
  refine ⟨fun sk hsk hr => (hdone sk hsk hr).1, ?_⟩
  have hsome : 0 < (sks.map Prod.fst).count true := by
    rw [hreached, ha.used]
    exact ha.some
  obtain ⟨sk, hsk, hr⟩ := List.mem_map.mp (List.count_pos_iff.mp hsome)
  exact (hdone sk hsk hr).2

/-- A socket that is behind has its message waiting, or still to come. -/
theorem Lined.exists_some {msgs : List Octets} (h : Lined msgs sks queues inFlight) {k : ℕ} (hmem : (true, k) ∈ sks)
    (hk : k < msgs.length) : (∃ queue ∈ queues, queue ≠ []) ∨ ∃ rest ∈ inFlight, rest ≠ [] := by
  induction sks generalizing queues inFlight with
  | nil => nomatch hmem
  | cons sk sks ih =>
    match queues, inFlight, h with
    | queue :: queues, rest :: inFlight, ⟨hfirst, hothers⟩ =>
      rcases List.mem_cons.mp hmem with rfl | hmem
      · rw [if_pos rfl, List.drop_eq_getElem_cons hk] at hfirst
        cases queue with
        | nil =>
          refine .inr ⟨rest, List.mem_cons_self, ?_⟩
          rintro rfl
          nomatch hfirst
        | cons msg queue => exact .inl ⟨_, List.mem_cons_self, List.cons_ne_nil _ _⟩
      · rcases ih hothers hmem with ⟨queue', hmem', hne⟩ | ⟨rest', hmem', hne⟩
        · exact .inl ⟨queue', List.mem_cons_of_mem _ hmem', hne⟩
        · exact .inr ⟨rest', List.mem_cons_of_mem _ hmem', hne⟩

/-- It is not premature, if its number is read and nothing is still to come. -/
theorem not_premature (ha : Agrees numSubTest) (h : Lined ((call numSubTest).messages client) sks queues inFlight)
    (hmem : (true, msgno) ∈ sks) (hlt : msgno < expectedBurst numSubTest) (hreads : Reads client server msgno)
    (hnone : ∀ rest ∈ inFlight, rest = []) (buf : Octets) : ¬ Premature server numSubTest msgno queues buf := by
  induction sks generalizing queues inFlight buf with
  | nil => nomatch hmem
  | cons sk sks ih =>
    match queues, inFlight, h with
    | queue :: queues, rest :: inFlight, ⟨hfirst, hothers⟩ =>
      have hothers' := fun hmem => ih hothers hmem fun rest hrest => hnone rest (List.mem_cons_of_mem _ hrest)
      rcases List.mem_cons.mp hmem with rfl | hmem
      · rw [hnone rest List.mem_cons_self, List.append_nil, if_pos rfl,
          drop_messages _ client (by rw [ha.burst]; exact hlt)] at hfirst
        rw [hfirst]
        rintro ⟨hnot, -⟩
        have hsize : (call numSubTest).msgsize = expectedSzs numSubTest := ha.size
        have hge := ha.size_ge
        rw [shows_recvInto hge (by rw [length_message _ client (by omega), hsize]; exact hge), shows_message] at hnot
        exact of_decide_eq_false hnot hreads
      · cases queue with
        | nil => exact hothers' hmem buf
        | cons msg queue => exact fun hpre => hothers' hmem _ hpre.2

theorem lined_start (msgs : List Octets) (reached : List Bool) :
    Lined msgs (reached.map fun r => (r, 0)) (List.replicate reached.length [])
      (reached.map fun r => if r then msgs else []) := by
  induction reached with
  | nil => trivial
  | cons r reached ih => exact ⟨rfl, ih⟩

theorem inv_start (client server : Endian) (numSubTest : ℕ) (buf : Octets) :
    Inv client server numSubTest (start client numSubTest buf) ((call numSubTest).reached.map fun r => (r, 0)) := by
  have hfresh : ∀ sk ∈ (call numSubTest).reached.map fun r => (r, 0), sk.2 = 0 := by
    intro sk hsk
    obtain ⟨r, -, rfl⟩ := List.mem_map.mp hsk
    rfl
  have hdone : done 0 ((call numSubTest).reached.map fun r => (r, 0)) = 0 := by
    apply List.countP_eq_zero.mpr
    intro sk hsk
    rw [hfresh sk hsk]
    simp
  refine ⟨?_, lined_start _ _, rfl, fun sk hsk _ => .inl (hfresh sk hsk), hdone.symm, ?_, Nat.zero_le _, fun _ => rfl,
    nofun⟩
  · rw [List.map_map]
    exact List.map_id _
  · exact (Nat.zero_mul _).symm

theorem Inv.arrive {i : ℕ} {queues inFlight : List (List Octets)} (h : Inv client server numSubTest s sks)
    (ha : arriveAt i s.queues s.inFlight = some (queues, inFlight)) :
    Inv client server numSubTest { s with queues := queues, inFlight := inFlight } sks :=
  ⟨h.reached, h.lined.arrive ha, h.failed, h.near, h.skCnt, h.msgcnt, h.msgno, h.last, h.reads⟩

/-- A round with messages. -/
theorem Inv.turns (h : Inv client server numSubTest s sks) (ha : Agrees numSubTest)
    (hgo : s.msgno < expectedBurst numSubTest) (hexp : s.skCnt < expNum numSubTest)
    (hwait : ∃ queue ∈ s.queues, queue ≠ []) :
    ∃ sks', Inv client server numSubTest { s.toState.round server numSubTest with inFlight := s.inFlight } sks' := by
  have hburst := ha.burst_le
  obtain ⟨sks', hreached, hlined, hf, hnear, hskCnt, hmsgcnt⟩ :=
    turns_spec ha (by omega) h.lined h.near h.failed
  have hskCnt₀ := h.skCnt
  have hmsgcnt₀ := h.msgcnt
  rw [round_turns server hexp hwait]
  refine ⟨sks', hreached.trans h.reached, hlined, hf, hnear, ?_, ?_, h.msgno, fun hend => absurd hend hgo.ne, h.reads⟩
  · dsimp only
    omega
  · dsimp only
    omega

/-- A round without: the next number. -/
theorem Inv.next (h : Inv client server numSubTest s sks) (ha : Agrees numSubTest)
    (hgo : s.msgno < expectedBurst numSubTest) (hblocks : ¬ s.Blocks numSubTest)
    (hnone : ¬ (s.skCnt < expNum numSubTest ∧ ∃ queue ∈ s.queues, queue ≠ [])) :
    Inv client server numSubTest { s.toState.round server numSubTest with inFlight := s.inFlight } sks := by
  have hall := behind_add_done_eq ha h.reached h.near
  have hbehind : behind s.msgno sks = 0 := by
    by_contra hpos
    have hexp : s.skCnt < expNum numSubTest := by
      have hskCnt := h.skCnt
      omega
    -- its message would be there, or still to come
    rcases h.lined.exists_some (mem_of_behind (Nat.pos_of_ne_zero hpos)) (by simpa [Call.messages, ha.burst] using hgo)
      with hwait | ⟨rest, hrest, hne⟩
    · exact hnone ⟨hexp, hwait⟩
    · refine hblocks ⟨hexp, ?_, ?_⟩
      · rw [List.all_eq_true]
        intro queue hqueue
        rw [List.isEmpty_iff]
        by_contra hsome
        exact hnone ⟨hexp, queue, hqueue, hsome⟩
      · rw [List.all_eq_false]
        exact ⟨rest, hrest, by rwa [List.isEmpty_iff]⟩
  obtain ⟨hdone, hreads⟩ := all_done ha h.reached h.near hbehind
  have hskCnt := h.skCnt
  have hmsgcnt := h.msgcnt
  rw [round_next hnone]
  refine ⟨h.reached, h.lined, h.failed, ?_, ?_, ?_, hgo, fun _ => rfl, ?_⟩
  · exact fun sk hsk hr => .inl (hdone sk hsk hr)
  · symm
    apply List.countP_eq_zero.mpr
    intro sk hsk
    simp only [Bool.and_eq_true, beq_iff_eq, not_and]
    intro hr
    rw [hdone sk hsk hr]
    omega
  · dsimp only
    rw [Nat.add_mul]
    omega
  · intro k hk
    rcases Nat.lt_succ_iff_lt_or_eq.mp hk with hlt | rfl
    · exact h.reads k hlt
    · exact hreads

theorem Inv.step {l : Label} (h : Inv client server numSubTest s sks) (ha : Agrees numSubTest)
    (hs : step server numSubTest s l = some s') : ∃ sks', Inv client server numSubTest s' sks' := by
  cases l with
  | arrive i =>
    obtain ⟨⟨queues, inFlight⟩, harrive, rfl⟩ := Option.map_eq_some_iff.mp hs
    exact ⟨sks, h.arrive harrive⟩
  | round =>
    obtain ⟨⟨hgo, hblocks⟩, hs⟩ := Option.ite_none_right_eq_some.mp hs
    obtain rfl := Option.some.inj hs
    rw [State.goesOn, Bool.and_eq_true, decide_eq_true_eq] at hgo
    by_cases hsome : s.skCnt < expNum numSubTest ∧ ∃ queue ∈ s.queues, queue ≠ []
    · exact h.turns ha hgo.2 hsome.1 hsome.2
    · exact ⟨sks, h.next ha hgo.2 hblocks hsome⟩

/-! ## When all has arrived -/

/-- Nothing is still to come. -/
def State.Arrived (s : State) : Prop := s.inFlight.all List.isEmpty = true

theorem State.Arrived.not_blocks (h : s.Arrived) : ¬ s.Blocks numSubTest := by
  rintro ⟨-, -, hsome⟩
  rw [State.Arrived, hsome] at h
  nomatch h

/-- The rounds that the loops make then. -/
theorem Inv.round (h : Inv client server numSubTest s sks) (ha : Agrees numSubTest) (harrived : s.Arrived)
    (hgo : s.goesOn numSubTest = true) :
    ∃ sks', Inv client server numSubTest { s.toState.round server numSubTest with inFlight := s.inFlight } sks' :=
  h.step (l := .round) ha (if_pos ⟨hgo, harrived.not_blocks⟩)

/-- When all messages have been taken, none is left. -/
theorem Lined.queues_nil {msgs : List Octets} (h : Lined msgs sks queues inFlight)
    (hall : ∀ sk ∈ sks, sk.1 = true → msgs.length ≤ sk.2) : ∀ queue ∈ queues, queue = [] := by
  induction sks generalizing queues inFlight with
  | nil =>
    match queues, inFlight, h with
    | [], [], _ => exact List.forall_mem_nil _
  | cons sk sks ih =>
    match queues, inFlight, h with
    | queue :: queues, rest :: inFlight, ⟨hfirst, hothers⟩ =>
      refine List.forall_mem_cons.mpr ⟨?_, ih hothers fun sk hsk => hall sk (List.mem_cons_of_mem _ hsk)⟩
      have hnone : queue ++ rest = [] := by
        rw [hfirst]
        split
        next hr => exact List.drop_of_length_le (hall sk List.mem_cons_self hr)
        next => rfl
      exact (List.append_eq_nil_iff.mp hnone).1

/-- Where the loops end, the check behind them succeeds, and no message is left. -/
theorem Inv.finish (h : Inv client server numSubTest s sks) (ha : Agrees numSubTest)
    (hend : s.goesOn numSubTest = false) :
    s.toState.finish numSubTest = s.toState ∧ s.msgno = expectedBurst numSubTest ∧ ∀ queue ∈ s.queues, queue = [] := by
  have hno : s.msgno = expectedBurst numSubTest := by
    rw [State.goesOn, h.failed, Option.isNone_none, Bool.true_and, decide_eq_false_iff_not] at hend
    have hle := h.msgno
    omega
  have hskCnt := h.last hno
  refine ⟨?_, hno, h.lined.queues_nil ?_⟩
  · apply if_neg
    rintro ⟨-, hne⟩
    rw [h.msgcnt, hskCnt, ha.usedSks] at hne
    exact hne rfl
  · intro sk hsk hr
    have hdone : done s.msgno sks = 0 := h.skCnt.symm.trans hskCnt
    have hnot := List.countP_eq_zero.mp hdone sk hsk
    rcases h.near sk hsk hr with heq | ⟨heq, -⟩
    · rw [heq, hno, Call.messages, List.length_map, List.length_range, ha.burst]
    · rw [hr, heq] at hnot
      simp at hnot

/-- A round that all have arrived for takes a message, or goes on to the next number. -/
theorem Inv.round_lt (h : Inv client server numSubTest s sks) (ha : Agrees numSubTest) (harrived : s.Arrived)
    (hgo : s.goesOn numSubTest = true) (hreads : Reads client server s.msgno) :
    waiting (s.toState.round server numSubTest).queues +
        (expectedBurst numSubTest - (s.toState.round server numSubTest).msgno) <
      waiting s.queues + (expectedBurst numSubTest - s.msgno) := by
  rw [State.goesOn, Bool.and_eq_true, decide_eq_true_eq] at hgo
  by_cases hsome : s.skCnt < expNum numSubTest ∧ ∃ queue ∈ s.queues, queue ≠ []
  · have hall := behind_add_done_eq ha h.reached h.near
    have hskCnt := h.skCnt
    have hmem : (true, s.msgno) ∈ sks := mem_of_behind (by omega)
    have hnone : ∀ rest ∈ s.inFlight, rest = [] := by
      intro rest hrest
      exact List.isEmpty_iff.mp (List.all_eq_true.mp harrived rest hrest)
    have hlt := turns_waiting_lt h.failed (not_premature ha h.lined hmem hgo.2 hreads hnone s.buf)
    rw [round_turns server hsome.1 hsome.2]
    exact Nat.add_lt_add_right hlt _
  · rw [round_next hsome]
    dsimp only
    omega

/-- **They come to an end**, if all numbers are read. -/
theorem Inv.ends (h : Inv client server numSubTest s sks) (ha : Agrees numSubTest) (harrived : s.Arrived)
    (hreads : ∀ k, k < expectedBurst numSubTest → Reads client server k) :
    ∃ fuel t, Burst.serverMcast server numSubTest fuel s.toState = some t ∧ t.failed = none ∧
      t.msgno = expectedBurst numSubTest ∧ ∀ queue ∈ t.queues, queue = [] := by
  have hround : ∀ b : Burst.State, (∃ sks, Inv client server numSubTest ⟨b, s.inFlight⟩ sks) →
      b.goesOn numSubTest = true → ∃ b', some (b.round server numSubTest) = some b' ∧
        (∃ sks, Inv client server numSubTest ⟨b', s.inFlight⟩ sks) ∧
        waiting b'.queues + (expectedBurst numSubTest - b'.msgno) <
          waiting b.queues + (expectedBurst numSubTest - b.msgno) := by
    rintro b ⟨sks, hb⟩ hgo
    have hlt : b.msgno < expectedBurst numSubTest := by
      rw [State.goesOn, Bool.and_eq_true, decide_eq_true_eq] at hgo
      exact hgo.2
    exact ⟨_, rfl, hb.round ha harrived hgo, hb.round_lt ha harrived hgo (hreads _ hlt)⟩
  obtain ⟨t, hloop, ⟨sks', hinv⟩, hend⟩ := whileLoop_total _ _ hround ⟨sks, h⟩ (Nat.lt_succ_self _)
  obtain ⟨hfinish, hno, hqueues⟩ := hinv.finish ha hend
  refine ⟨waiting s.queues + (expectedBurst numSubTest - s.msgno) + 1, t, ?_, hinv.failed, hno, hqueues⟩
  rw [Burst.serverMcast, hloop]
  exact congrArg some hfinish

/-- Any message that is still to come can arrive. -/
theorem Lined.exists_arrive {msgs : List Octets} (h : Lined msgs sks queues inFlight)
    (hsome : ¬ inFlight.all List.isEmpty = true) :
    ∃ i queues' inFlight', arriveAt i queues inFlight = some (queues', inFlight') ∧
      waiting inFlight' < waiting inFlight := by
  induction sks generalizing queues inFlight with
  | nil =>
    match queues, inFlight, h with
    | [], [], _ => exact absurd rfl hsome
  | cons sk sks ih =>
    match queues, inFlight, h with
    | queue :: queues, (msg :: rest) :: inFlight, _ =>
      refine ⟨0, _, _, rfl, ?_⟩
      rw [waiting_cons, waiting_cons, List.length_cons]
      omega
    | queue :: queues, [] :: inFlight, ⟨_, hothers⟩ =>
      obtain ⟨i, queues', inFlight', harrive, hlt⟩ := ih hothers (by simpa using hsome)
      refine ⟨i + 1, queue :: queues', [] :: inFlight', ?_, ?_⟩
      · rw [arriveAt, harrive]
        rfl
      · rw [waiting_cons, waiting_cons]
        omega

theorem exists_arrived (h : Inv client server numSubTest s sks) : ∃ ls s' sks',
    Lts.exec (step server numSubTest) s ls = some s' ∧ Inv client server numSubTest s' sks' ∧ s'.Arrived := by
  induction hn : waiting s.inFlight using Nat.strong_induction_on generalizing s with
  | _ n ih =>
    by_cases harrived : s.Arrived
    · exact ⟨[], s, sks, rfl, h, harrived⟩
    · obtain ⟨i, queues, inFlight, harrive, hlt⟩ := h.lined.exists_arrive harrived
      obtain ⟨ls, s', sks', hexec, hinv, hall⟩ := ih _ (hn ▸ hlt) (h.arrive harrive) rfl
      refine ⟨.arrive i :: ls, s', sks', ?_, hinv, hall⟩
      rw [Lts.exec, step, harrive]
      exact hexec

/-! ## The subtests -/

/-- All numbers of the burst are read if and only if the byte orders are the same, or there is only one. -/
theorem reads_iff (ha : Agrees numSubTest) :
    (∀ k < expectedBurst numSubTest, Reads client server k) ↔ client = server ∨ numSubTest < 4 := by
  constructor
  · intro h
    by_contra hnot
    rw [not_or] at hnot
    exact not_reads_one hnot.1 (h 1 (ha.several (by omega)))
  · rintro (heq | hlt) k hk
    · exact reads_of_eq heq k
    · have hone := ha.sole hlt
      obtain rfl : k = 0 := by omega
      exact reads_zero client server

/-- **When a subtest of the multicast test passes.** Whatever the order in which its messages arrive, `err` is never
    called, and once all have arrived the loops end with every message taken: if and only if client and server have the
    same byte order, or the burst has one message. -/
theorem mcast_passes_iff (client server : Endian) (numSubTest : Fin calls.length) :
    (∀ (buf : Octets) (ls : List Label) (s : State),
      Lts.exec (step server numSubTest) (start client numSubTest buf) ls = some s →
        s.failed = none ∧ (s.Arrived → ∃ fuel t, Burst.serverMcast server numSubTest fuel s.toState = some t ∧
          t.failed = none ∧ t.msgno = expectedBurst numSubTest ∧ ∀ queue ∈ t.queues, queue = [])) ↔
      client = server ∨ (numSubTest : ℕ) < 4 := by
  have ha : Agrees numSubTest := agrees numSubTest.isLt
  rw [← reads_iff ha]
  constructor
  · intro h
    obtain ⟨ls, s, sks, hexec, hinv, harrived⟩ := exists_arrived (inv_start client server numSubTest [])
    obtain ⟨-, hends⟩ := h [] ls s hexec
    obtain ⟨fuel, t, hmcast, -, hno, -⟩ := hends harrived
    obtain ⟨b, hloop, rfl⟩ := Option.map_eq_some_iff.mp hmcast
    have hround : ∀ b b' : Burst.State, (∃ sks, Inv client server numSubTest ⟨b, s.inFlight⟩ sks) →
        b.goesOn numSubTest = true → some (b.round server numSubTest) = some b' →
          ∃ sks, Inv client server numSubTest ⟨b', s.inFlight⟩ sks := by
      rintro b b' ⟨sks, hb⟩ hgo hround
      obtain rfl := Option.some.inj hround
      exact hb.round ha harrived hgo
    obtain ⟨⟨sks', hinv'⟩, hend⟩ := whileLoop_inv hround ⟨sks, hinv⟩ hloop
    have hburst := (hinv'.finish ha hend).2.1
    exact fun k hk => hinv'.reads k (hburst ▸ hk)
  · intro hreads buf ls s hexec
    have hstep : ∀ (s : State) (l : Label) (s' : State), (∃ sks, Inv client server numSubTest s sks) →
        step server numSubTest s l = some s' → ∃ sks, Inv client server numSubTest s' sks := by
      rintro s l s' ⟨sks, hinv⟩ hs
      exact hinv.step ha hs
    obtain ⟨sks, hinv⟩ := (Lts.reach_of_exec hexec).inv ⟨_, inv_start client server numSubTest buf⟩ hstep
    exact ⟨hinv.failed, fun harrived => hinv.ends ha harrived hreads⟩

end Mcast
end Ptts
end Tipcutils
