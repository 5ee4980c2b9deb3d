import Mathlib.Algebra.Group.Int.Defs
import Tipcutils.Ptts.Suite

/-!
# `Ptts.SuiteRun` — the synchronisations of the suite, from the first to the last

The programs of `Ptts.Suite` are those of `Ptts.Tests`: the client's for a command line, and the server's for the test
numbers that the client passes. They are dual but for the server's last wait, and every test message fits its
length field. So the two come to their end with each other, whatever the order of the calls and of the arrivals
(**`suite_syncs_complete`**), as far as the synchronisations, the test numbers and the counted messages go: what else a
test does between two synchronisations is not in its program, which for the tests 9 to 15 leaves the synchronisations only
(`Ptts.Mcast` has the messages of the multicast test, where a loss or a foreign byte order keeps the server from the next
synchronisation).
-/

namespace Tipcutils
namespace Ptts

open Duplex (Act Lead)

/-! ## The programs of the suite -/

@[simp] theorem SyncStep.offer_dual (s : SyncStep) : s.dual.offer = s.offer.dual := by
  obtain ⟨dir, id⟩ := s
  cases dir <;> rfl

theorem TestAct.calls_dual (a : TestAct) : a.dual.calls = a.calls.map Act.dual := by
  cases a with
  | sync s => exact congrArg (fun c => [c]) s.offer_dual
  | send n m | recv n m =>
      simp only [TestAct.dual, TestAct.calls]
      split
      · rfl
      · rw [List.map_replicate]
        rfl

theorem ProgAct.calls_dual (a : ProgAct) : a.dual.calls .server = (a.calls .client).map Act.dual := by
  cases a with
  | test a => exact a.calls_dual
  | tell n => rfl

theorem calls_dual (acts : List ProgAct) :
    calls .server (acts.map ProgAct.dual) = (calls .client acts).map Act.dual := by
  rw [calls, calls, List.flatMap_map, List.map_flatMap]
  exact List.flatMap_congr fun a _ => a.calls_dual

/-- The sizes and the numbers of an act are ones that its messages can carry. -/
def TestAct.Sized : TestAct → Prop
  | .sync _ => True
  | .send _ m | .recv _ m => 0 ≤ m ∧ m < 2 ^ 32

instance : DecidablePred TestAct.Sized := fun a =>
  match a with
  | .sync _ => inferInstanceAs (Decidable True)
  | .send _ _ | .recv _ _ => inferInstanceAs (Decidable (_ ∧ _))

def ProgAct.Sized : ProgAct → Prop
  | .test a => a.Sized
  | .tell n => -2 ^ 31 ≤ n ∧ n < 2 ^ 31

theorem message_fits {size : ℕ} (h0 : 0 < size) (h : size < 2 ^ 32) : (Offer.message size).Fits := by
  intro msg hmsg
  obtain rfl := Option.some.inj hmsg
  have hlen : (makeArray size 0 255).length = size := length_makeArray size 0 255
  have htake : (makeArray size 0 255).take size = makeArray size 0 255 := List.take_of_length_le (Nat.le_of_eq hlen)
  refine ⟨?_, ?_⟩
  · rw [htake, hlen]
    exact h0
  · rw [htake, hlen]
    exact checkArray_makeArray h 0 255

theorem testNumber_fits {n : ℤ} (h : -2 ^ 31 ≤ n ∧ n < 2 ^ 31) : (Offer.testNumber n).Fits := by
  intro msg hmsg
  obtain rfl := Option.some.inj hmsg
  have htake : (be32 (Int32.ofInt n).toUInt32).take 4 = be32 (Int32.ofInt n).toUInt32 := rfl
  have hread := ofBe32_be32 (Int32.ofInt n).toUInt32 []
  rw [List.append_nil] at hread
  show readTest _ = n
  rw [readTest, htake, hread, length_be32, if_pos (by decide)]
  exact Int32.toInt_ofInt_of_le h.1 h.2

theorem TestAct.Sized.fits {a : TestAct} (h : a.Sized) : ∀ c ∈ a.calls, c.what.Fits := by
  intro c hc
  cases a with
  | sync s =>
      obtain rfl := List.mem_singleton.mp hc
      obtain ⟨dir, id⟩ := s
      cases dir <;> exact fun msg hmsg => nomatch hmsg
  | send n m | recv n m =>
      simp only [TestAct.calls] at hc
      split at hc
      · cases hc
      · obtain rfl := List.eq_of_mem_replicate hc
        obtain ⟨h0, hlt⟩ := h
        exact message_fits (by omega) (by omega)

theorem ProgAct.Sized.fits {a : ProgAct} (h : a.Sized) : ∀ c ∈ a.calls .client, c.what.Fits := by
  cases a with
  | test a => exact TestAct.Sized.fits h
  | tell n =>
      intro c hc
      obtain rfl := List.mem_singleton.mp hc
      exact testNumber_fits h

/-! ## The sizes of the tests -/

theorem clientSendConnectionless_sized (t : SockType) (n : ℤ) {m : ℤ} (h : 0 ≤ m ∧ m < 2 ^ 32) :
    (clientSendConnectionless t n m).All TestAct.Sized := by
  intro a ha
  rcases List.mem_cons.mp ha with rfl | ha
  · trivial
  rcases List.mem_cons.mp ha with rfl | ha
  · exact h
  rcases List.mem_cons.mp ha with rfl | ha
  · trivial
  · cases ha

theorem clientTestConnectionless_sized (t : SockType) : (clientTestConnectionless t).All TestAct.Sized := by
  cases t <;> decide

theorem clientStressConnectionless_sized (t : SockType) (rounds : ℕ) :
    (clientStressConnectionless t rounds).All TestAct.Sized := by
  induction rounds with
  | zero => exact .of_nil rfl
  | succ rounds ih => exact (clientTestConnectionless_sized t).append ih

theorem clientMessageLimitsFrom_sized {msize : ℤ} (h0 : 0 ≤ msize) :
    (clientMessageLimitsFrom msize).All TestAct.Sized := by
  induction msize using clientMessageLimitsFrom.induct with
  | case1 msize hle ihLast ihNext =>
    rw [clientMessageLimitsFrom, if_pos hle]
    refine (clientSendConnectionless_sized .rdm 1 (by omega)).append ?_
    by_cases hlast : msize + tsMsgInc > 66000 ∧ msize ≠ 66000
    · rw [if_pos hlast]
      exact ihLast hlast (by decide)
    · rw [if_neg hlast]
      exact ihNext (by simp only [tsMsgInc]; omega)
  | case2 msize hle =>
    rw [clientMessageLimitsFrom, if_neg hle]
    exact .of_nil rfl

/-- No test sends a message that is too long for the length in its header. -/
theorem clientList_sized (doBlast : Bool) (rounds : ℕ) :
    ∀ t ∈ clientList doBlast rounds, t.call.All TestAct.Sized := by
  have hlimits : (TsTest.call ⟨7, some clientTestMessageLimits⟩).All TestAct.Sized :=
    clientMessageLimitsFrom_sized (by decide)
  have hstress : (TsTest.call ⟨tsFirstStressTest, some (clientStressConnectionless .rdm rounds)⟩).All TestAct.Sized :=
    clientStressConnectionless_sized .rdm rounds
  have hnull (n : ℤ) : (TsTest.call ⟨n, none⟩).All TestAct.Sized := .of_nil rfl
  refine List.forall_mem_append.mpr ⟨List.forall_mem_append.mpr ⟨?_, ?_⟩, ?_⟩
  · repeat' (refine List.forall_mem_cons.mpr ⟨?_, ?_⟩)
    all_goals first | exact hlimits | decide
  · cases doBlast
    · exact List.forall_mem_nil _
    · repeat' (refine List.forall_mem_cons.mpr ⟨?_, ?_⟩)
      all_goals decide
  · repeat' (refine List.forall_mem_cons.mpr ⟨?_, ?_⟩)
    all_goals first | exact hnull _ | exact hstress | decide

section

variable {P : TestAct → Prop}

theorem doTimes_all {s : Test} (h : s.All P) (ntimes : ℕ) : (doTimes s ntimes).All P := by
  induction ntimes using doTimes.induct with
  | case1 | case2 => exact h
  | case3 n hn ih =>
    rw [doTimes]
    · exact h.append ih
    · exact hn

theorem runMatching_all (test : ℤ) {l : List TsTest} (h : ∀ t ∈ l, t.call.All P) (ntimes : ℕ) :
    (runMatching test ntimes l).All P := by
  induction l generalizing ntimes with
  | nil => exact .of_nil rfl
  | cons t l ih =>
    obtain ⟨ht, hl⟩ := List.forall_mem_cons.mp h
    rw [runMatching]
    split
    · exact (doTimes_all ht ntimes).append (ih hl 0)
    · exact ih hl ntimes

end

theorem sendTIPCTest_sized {test : ℤ} (h : -2 ^ 31 ≤ test ∧ test < 2 ^ 31) : (sendTIPCTest test).All ProgAct.Sized := by
  have hsync (id : ℤ) (dir : Dir) : (Prog.ofTest (.act (.sync ⟨dir, id⟩))).All ProgAct.Sized := by
    intro a ha
    obtain rfl := List.mem_singleton.mp ha
    trivial
  have htell : (Script.act (ProgAct.tell test)).All ProgAct.Sized := by
    intro a ha
    obtain rfl := List.mem_singleton.mp ha
    exact h
  apply ((hsync _ .recv).append htell).append
  split
  · exact hsync _ .send
  · exact .of_nil rfl

theorem tipcTestClientX_sized (doBlast : Bool) (rounds : ℕ) (test : ℤ) :
    (tipcTestClientX doBlast rounds test).All ProgAct.Sized := by
  unfold tipcTestClientX
  split
  · exact .of_nil rfl
  · rename_i h
    have hrange : -2 ^ 31 ≤ test ∧ test < 2 ^ 31 := by
      simp only [tsFirstSanityTest, tsLastStressTest] at h
      omega
    apply (sendTIPCTest_sized hrange).append
    apply Script.All.map
    exact runMatching_all test (fun t ht => clientList_sized doBlast rounds t (List.mem_of_mem_take ht)) tsNumTimes

theorem tipcTestClient_sized (doBlast : Bool) (rounds : ℕ) (test : ℤ) :
    (tipcTestClient doBlast rounds test).All ProgAct.Sized := by
  unfold tipcTestClient
  split
  · exact sendTIPCTest_sized (by decide)
  split
  · exact .of_nil rfl
  split
  · exact Script.All.seq (List.forall_mem_map.mpr fun (i : ℕ) _ => tipcTestClientX_sized doBlast rounds (1 + i))
  · exact tipcTestClientX_sized doBlast rounds test

theorem clientMain_sized (doBlast : Bool) (rounds : ℕ) (tests : List ℤ) (killServers : Bool) :
    (clientMain doBlast rounds tests killServers).All ProgAct.Sized := by
  induction tests with
  | nil =>
    unfold clientMain
    split
    · exact tipcTestClient_sized doBlast rounds tsKillServer
    · exact .of_nil rfl
  | cons test rest ih =>
    unfold clientMain
    split
    · exact .of_nil rfl
    · exact (tipcTestClient_sized doBlast rounds test).append ih

/-! ## The run of the suite -/

/-- `tipcTC` with its command line and `tipcTS`, before the first call: the synchronisations, the test numbers, and the test
    messages that the helpers count; the tests 9 to 15 have none of the latter. -/
def suiteOf (doBlast : Bool) (rounds : ℕ) (tests : List ℤ) (killServers : Bool) : Suite :=
  let client := clientMain doBlast rounds tests killServers
  Suite.start fun
    | .client => calls .client client.acts
    | .server => calls .server (serverOf doBlast rounds client).acts

/-- The server makes the client's calls the other way round, and then possibly waits once more. -/
theorem server_calls (doBlast : Bool) (rounds : ℕ) (tests : List ℤ) (killServers : Bool) :
    ∃ tail : List (Act Offer), (tail = [] ∨ tail = [.offer (.signal tsSyncWaitingForTestId)]) ∧
      calls .server (serverOf doBlast rounds (clientMain doBlast rounds tests killServers)).acts =
        (calls .client (clientMain doBlast rounds tests killServers).acts).map Act.dual ++ tail := by
  have hmirror := (mirrored_clientMain doBlast rounds tests killServers).acts
  rw [hmirror, calls, List.flatMap_append]
  refine ⟨_, ?_, congrArg (· ++ _) (calls_dual _)⟩
  split
  · exact .inr rfl
  · exact .inl rfl

/-- **The synchronisations complete.** Whatever the command line, and whatever the order of the calls, of the arrivals and
    of the name table updates: no `err()` of a synchronisation is reached, every counted message and test number is what its
    receiver expects, the run has a bounded length, and it goes on until the client's program is done and the server's
    is done or waits for the next test number. -/
theorem suite_syncs_complete (doBlast : Bool) (rounds : ℕ) (tests : List ℤ) (killServers : Bool) {cap : ℕ} (hcap : 1 ≤ cap)
    {ls : List SuiteMove} {s : Suite}
    (h : Lts.exec (Suite.step cap) (suiteOf doBlast rounds tests killServers) ls = some s) :
    (∀ p, s.wrong p = 0 ∧ ∀ e, (s.nodes p).pc ≠ .failed e) ∧
      ls.length ≤ (suiteOf doBlast rounds tests killServers).rank ∧
      ((∃ mv, (s.step cap mv).isSome = true) ∨
        s.prog .client = [] ∧
          (s.prog .server = [] ∨ s.prog .server = [.offer (.signal tsSyncWaitingForTestId)])) := by
  -- what the server does beyond the client's program
  obtain ⟨tail, htail, hserver⟩ := server_calls doBlast rounds tests killServers
  let extra : Party → List (Act Offer) := fun
    | .client => tail.map Act.dual
    | .server => []
  have hinv : (s.more extra).Invariant := by
    refine (Lts.reach_of_exec h).inv (I := fun s => (s.more extra).Invariant) ?_ fun s mv s' hI hs =>
      hI.moved (Suite.step_moved hs).more
    rw [suiteOf, Suite.start_more]
    refine Suite.invariant_start ?_ ?_
    · show calls .server _ ++ [] = (calls .client _ ++ tail.map Act.dual).map Act.dual
      rw [hserver, List.append_nil, List.map_append, Duplex.map_dual_map_dual]
    · intro a ha
      rcases List.mem_append.mp ha with ha | ha
      · obtain ⟨act, hact, ha⟩ := List.mem_flatMap.mp ha
        exact (clientMain_sized doBlast rounds tests killServers act hact).fits a ha
      · obtain ⟨a', ha', rfl⟩ := List.mem_map.mp ha
        rcases htail with rfl | rfl
        · cases ha'
        · obtain rfl := List.mem_singleton.mp ha'
          exact fun msg hmsg => nomatch hmsg
  refine ⟨fun p => ⟨hinv.right p, ?_⟩, ?_, ?_⟩
  · obtain ⟨q, hj⟩ := hinv.met
    intro e
    rcases Party.eq_or_eq_peer q p with rfl | rfl
    · exact (hj.not_failed e).1
    · exact (hj.not_failed e).2
  · have hrank : ls.length + s.rank ≤ (suiteOf doBlast rounds tests killServers).rank :=
      Lts.exec_rank (fun _ _ _ _ hs => ⟨trivial, Suite.step_rank hs⟩) trivial h
    omega
  · rcases Suite.live hinv rfl hcap with hlive | ⟨hclient, hsuffix⟩
    · exact .inl hlive
    · refine .inr ⟨hclient, ?_⟩
      have hsuffix' : s.prog .server <:+ tail := by
        rwa [show extra .client = tail.map Act.dual from rfl, Duplex.map_dual_map_dual] at hsuffix
      rcases htail with rfl | rfl
      · exact .inl (List.suffix_nil.mp hsuffix')
      · rcases List.suffix_cons_iff.mp hsuffix' with heq | hnil
        · exact .inr heq
        · exact .inl (List.suffix_nil.mp hnil)

/-- The client is only told to stop the server: every move of the two programs. -/
def killRun : List SuiteMove :=
  [.sync (.act .server), .sync (.update .server), .sync (.act .client), .sync (.act .client), .sync (.act .client),
    .sync (.ack .client), .sync (.act .server), .sync (.act .server), .sync (.update .server), .sync (.act .client),
    .sync (.act .client), .data .client, .data .server]

theorem suite_syncs_complete_kill :
    killRun.length ≤ (suiteOf false 0 [] true).rank ∧
      ∃ s, Lts.exec (Suite.step 1) (suiteOf false 0 [] true) killRun = some s ∧ s.wrong .server = 0 ∧
        s.prog .server = [] := by
  have hsome : (Lts.exec (Suite.step 1) (suiteOf false 0 [] true) killRun).isSome = true := by decide
  obtain ⟨s, hs⟩ := Option.isSome_iff_exists.mp hsome
  obtain ⟨hright, hlen, -⟩ := suite_syncs_complete false 0 [] true (Nat.le_refl 1) hs
  refine ⟨hlen, s, hs, (hright .server).1, ?_⟩
  have hdone : (Lts.exec (Suite.step 1) (suiteOf false 0 [] true) killRun).map (fun s => s.prog .server) = some [] := by
    decide
  rw [hs] at hdone
  exact Option.some.inj hdone

end Ptts
end Tipcutils
