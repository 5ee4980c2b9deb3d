import Mathlib.Data.List.Forall2
import Tipcutils.Ptts.Tests

/-!
# `Ptts.Dual` — the server does what the client does, the other way round

The two programs are written separately. Every test routine of the server is the `dual` of the client's, so the
two lists of tests are dual, and **`clientMain_dual`** carries this through the two main programs: whatever the
command line of the client is, the server that is told the client's test numbers makes the client's
synchronisations with sending and receiving exchanged, and then possibly waits for one more test number.
-/

namespace Tipcutils
namespace Ptts

open Script (append_assoc append_of_returns append_of_ne skip_append append_skip)

/-! ## The routines -/

/-- The other side of a test. -/
def Test.dual (s : Test) : Test := s.map TestAct.dual

@[simp] theorem Test.dual_ending (s : Test) : s.dual.ending = s.ending := rfl

@[simp] theorem Test.dual_acts (s : Test) : s.dual.acts = s.acts.map TestAct.dual := rfl

@[simp] theorem Test.dual_append (s t : Test) : Test.dual (s ++ t) = s.dual ++ t.dual :=
  Script.map_append _ s t

@[simp] theorem Test.dual_skip : Test.dual .skip = .skip := rfl

theorem Test.dual_seq (l : List Test) : Test.dual (.seq l) = .seq (l.map Test.dual) :=
  Script.map_seq _ l

@[simp] theorem sendSyncTIPC_dual (i : ℤ) : (sendSyncTIPC i).dual = recvSyncTIPC i := rfl

@[simp] theorem recvSyncTIPC_dual (i : ℤ) : (recvSyncTIPC i).dual = sendSyncTIPC i := rfl

@[simp] theorem sendSocketTIPC_dual (n m : ℤ) : (sendSocketTIPC n m).dual = recvSocketTIPC n m := rfl

@[simp] theorem sendtoSocketTIPC_dual (n m : ℤ) : (sendtoSocketTIPC n m).dual = recvSocketTIPC n m := rfl

@[simp] theorem recvSocketTIPC_dual (n m : ℤ) : (recvSocketTIPC n m).dual = sendSocketTIPC n m := rfl

@[simp] theorem commonTestSendto_dual (i : ℤ) : (commonTestSendto i).dual = commonTestRecvfrom i := rfl

@[simp] theorem commonTestRecvfrom_dual (i : ℤ) : (commonTestRecvfrom i).dual = commonTestSendto i := rfl

@[simp] theorem commonTestSocketOptions_dual : commonTestSocketOptions.dual = commonTestSocketOptions := rfl

@[simp] theorem clientSendConnectionless_dual (t : SockType) (n m : ℤ) :
    (clientSendConnectionless t n m).dual = serverReceiveConnectionless t n m := by
  simp [clientSendConnectionless, serverReceiveConnectionless]

@[simp] theorem clientTestConnectionless_dual (t : SockType) :
    (clientTestConnectionless t).dual = serverTestConnectionless t := by
  unfold clientTestConnectionless serverTestConnectionless
  split <;> simp

/-- The server writes the body of the endless test out again; it is the same body. -/
theorem clientStressConnectionless_dual (t : SockType) (rounds : ℕ) :
    (clientStressConnectionless t rounds).dual = serverStressConnectionless t rounds := by
  induction rounds with
  | zero => rfl
  | succ rounds ih =>
    simp only [clientStressConnectionless, Test.dual_append, clientTestConnectionless_dual, ih]
    rfl

theorem clientBlastConnectionless_dual (t : SockType) (n m : ℤ) :
    (clientBlastConnectionless t n m).dual = serverBlastConnectionless t n m := by
  simp [clientBlastConnectionless, serverBlastConnectionless]

theorem clientBlastConnection_dual (t : SockType) (n m : ℤ) :
    (clientBlastConnection t n m).dual = serverBlastConnection t n m := by
  simp [clientBlastConnection, serverBlastConnection]

/-- Both loops step the message size in the same way, up to the limit and once at the limit. -/
theorem clientMessageLimitsFrom_dual (msize : ℤ) :
    (clientMessageLimitsFrom msize).dual = serverMessageLimitsFrom msize := by
  induction msize using clientMessageLimitsFrom.induct with
  | case1 msize hle ihLast ihNext =>
    rw [clientMessageLimitsFrom, serverMessageLimitsFrom, if_pos hle, if_pos hle, Test.dual_append,
      clientSendConnectionless_dual]
    by_cases hlast : msize + tsMsgInc > 66000 ∧ msize ≠ 66000
    · rw [if_pos hlast, if_pos hlast, ihLast hlast]
    · rw [if_neg hlast, if_neg hlast, ihNext]
  | case2 msize hle =>
    rw [clientMessageLimitsFrom, serverMessageLimitsFrom, if_neg hle, if_neg hle]
    rfl

theorem clientTestMessageLimits_dual : clientTestMessageLimits.dual = serverTestMessageLimits :=
  clientMessageLimitsFrom_dual 1

theorem clientMcast_dual (a b c d i : ℤ) (j : ℕ) : (clientMcast a b c d i).dual = serverMcast j := by
  simp [clientMcast, serverMcast]

/-- The client's seven calls are the server's loop over `TIPC_MCAST_SUBTESTS`. -/
theorem clientTestMulticast_dual : clientTestMulticast.dual = serverTestMulticast := by
  have hrange : List.range tipcMcastSubtests = [0, 1, 2, 3, 4, 5, 6] := rfl
  simp only [clientTestMulticast, serverTestMulticast, hrange, Test.dual_append, List.map_cons, List.map_nil,
    Script.seq_cons, Script.seq_nil, append_assoc, skip_append, recvSyncTIPC_dual, sendSyncTIPC_dual]
  simp only [clientMcast_dual (j := 0)]
  rfl

@[simp] theorem clientSendConnection_dual (t : SockType) (n m k r : ℤ) :
    (clientSendConnection t n m k r).dual = serverReceiveConnection t 1 n m k r := by
  simp [clientSendConnection, serverReceiveConnection, append_assoc]

@[simp] theorem clientTestConnection_dual (t : SockType) :
    (clientTestConnection t).dual = serverTestConnection t := by
  simp [clientTestConnection, serverTestConnection]

@[simp] theorem clientSendConnectionShutdown_dual (t : SockType) (n m : ℤ) :
    (clientSendConnectionShutdown t n m).dual = serverReceiveConnectionShutdown t 1 n m := by
  simp [clientSendConnectionShutdown, serverReceiveConnectionShutdown]

@[simp] theorem clientTestConnectionShutdown_dual (t : SockType) :
    (clientTestConnectionShutdown t).dual = serverTestConnectionShutdown t := by
  simp [clientTestConnectionShutdown, serverTestConnectionShutdown]

theorem clientTestImportance_dual : clientTestImportance.dual = serverTestImportance := by
  rw [clientTestImportance, Test.dual_seq, List.map_map, serverTestImportance]
  apply congrArg Script.seq
  apply List.map_congr_left
  intro level _
  simp

theorem clientTestSocketOptions_dual : clientTestSocketOptions.dual = serverTestSocketOptions := by
  simp [clientTestSocketOptions, serverTestSocketOptions, commonTestSocketOptions]

theorem clientTestAncConnection_dual : clientTestAncConnection.dual = serverTestAncConnection := by
  simp [clientTestAncConnection, serverTestAncConnection]

theorem clientTestAncConnectionless_dual : clientTestAncConnectionless.dual = serverTestAncConnectionless := by
  simp [clientTestAncConnectionless, serverTestAncConnectionless]

theorem clientTestStream_dual : clientTestStream.dual = serverTestStream := by
  simp [clientTestStream, serverTestStream]

theorem clientTestBigStream_dual : clientTestBigStream.dual = serverTestBigStream := by
  simp [clientTestBigStream, serverTestBigStream]

theorem clientTestSendto_dual : clientTestSendto.dual = serverTestSendto := by
  simp [clientTestSendto, serverTestSendto]

/-- The blast tests go over equal tables of sizes. -/
theorem seq_blast_dual {client server : ℤ → Test} (h : ∀ size, (client size).dual = server size) :
    Test.dual (.seq ((cblastSize.takeWhile (· ≠ 0)).map client)) =
      .seq ((sblastSize.takeWhile (· ≠ 0)).map server) := by
  have hsize : cblastSize = sblastSize := rfl
  rw [Test.dual_seq, List.map_map, hsize]
  apply congrArg Script.seq
  apply List.map_congr_left
  intro size _
  exact h size

theorem clientBlastRdm_dual : clientBlastRdm.dual = serverBlastRdm :=
  seq_blast_dual (clientBlastConnectionless_dual .rdm tsBlastReps)

theorem clientBlastSeqpacket_dual : clientBlastSeqpacket.dual = serverBlastSeqpacket :=
  seq_blast_dual (clientBlastConnection_dual .seqpacket tsBlastReps)

theorem clientBlastStream_dual : clientBlastStream.dual = serverBlastStream :=
  seq_blast_dual (clientBlastConnection_dual .stream tsBlastReps)

/-! ## The lists -/

def TsTest.dual (t : TsTest) : TsTest := ⟨t.testNum, t.test.map Test.dual⟩

theorem clientList_dual (doBlast : Bool) (rounds : ℕ) :
    (clientList doBlast rounds).map TsTest.dual = serverList doBlast rounds := by
  cases doBlast <;>
  simp [clientList, serverList, TsTest.dual, clientStressConnectionless_dual, clientTestMessageLimits_dual,
    clientTestMulticast_dual, clientTestImportance_dual, clientTestSocketOptions_dual, clientTestAncConnection_dual,
    clientTestAncConnectionless_dual, clientTestStream_dual, clientTestBigStream_dual, clientTestSendto_dual,
    clientBlastRdm_dual, clientBlastSeqpacket_dual, clientBlastStream_dual]

theorem TsTest.call_dual (t : TsTest) : t.call.dual = t.dual.call := by
  obtain ⟨num, test⟩ := t
  cases test <;> rfl

theorem doTimes_dual (s : Test) (ntimes : ℕ) : (doTimes s ntimes).dual = doTimes s.dual ntimes := by
  induction ntimes using doTimes.induct with
  | case1 | case2 => rfl
  | case3 n hn ih =>
    rw [doTimes, doTimes, Test.dual_append, ih]
    all_goals exact hn

theorem runMatching_dual (test : ℤ) (ntimes : ℕ) (l : List TsTest) :
    (runMatching test ntimes l).dual = runMatching test ntimes (l.map TsTest.dual) := by
  induction l generalizing ntimes with
  | nil => rfl
  | cons t rest ih =>
    have hnum : t.dual.testNum = t.testNum := rfl
    simp only [runMatching, List.map_cons, hnum]
    split
    · rw [Test.dual_append, doTimes_dual, TsTest.call_dual, ih]
    · exact ih ntimes

/-! ## The programs -/

def ProgAct.dual : ProgAct → ProgAct
  | .test a => .test a.dual
  | .tell n => .tell n

def Prog.dual (p : Prog) : Prog := p.map ProgAct.dual

/-- The test numbers that are passed. -/
def told (acts : List ProgAct) : List ℤ :=
  acts.filterMap fun
    | .tell n => some n
    | .test _ => none

/-- The synchronisations. -/
def syncs (acts : List ProgAct) : List SyncStep :=
  acts.filterMap fun
    | .test (.sync s) => some s
    | _ => none

@[simp] theorem told_append (l m : List ProgAct) : told (l ++ m) = told l ++ told m :=
  List.filterMap_append

@[simp] theorem syncs_append (l m : List ProgAct) : syncs (l ++ m) = syncs l ++ syncs m :=
  List.filterMap_append

theorem syncs_dual (l : List ProgAct) : syncs (l.map ProgAct.dual) = (syncs l).map SyncStep.dual := by
  induction l with
  | nil => rfl
  | cons a l ih =>
    cases a with
    | tell n => exact ih
    | test t =>
      cases t with
      | sync s => exact congrArg (s.dual :: ·) ih
      | send n m | recv n m => exact ih

@[simp] theorem told_ofTest (s : Test) : told (Prog.ofTest s).acts = [] := by
  show told (s.acts.map ProgAct.test) = []
  induction s.acts with
  | nil => rfl
  | cons a l ih => exact ih

@[simp] theorem Prog.ofTest_dual (s : Test) : (Prog.ofTest s).dual = Prog.ofTest s.dual := by
  show (⟨(s.acts.map ProgAct.test).map ProgAct.dual, s.ending⟩ : Prog) =
    ⟨(s.acts.map TestAct.dual).map ProgAct.test, s.ending⟩
  rw [List.map_map, List.map_map]
  rfl

@[simp] theorem Prog.dual_append (p q : Prog) : Prog.dual (p ++ q) = p.dual ++ q.dual :=
  Script.map_append _ p q

/-- Two scripts before the rest of a server's run are one. -/
theorem ServerRun.after_append (p q : Prog) (r : ServerRun) :
    ServerRun.after (p ++ q) r = ServerRun.after p (ServerRun.after q r) := by
  by_cases hp : p.ending = .returns
  · rw [append_of_returns hp]
    by_cases hq : q.ending = .returns
    · simp [ServerRun.after, hp, hq]
    · obtain ⟨acts, ending⟩ := q
      cases ending with
      | returns => exact absurd rfl hq
      | exits | crashes | endless => simp [ServerRun.after, hp]
  · rw [append_of_ne hp]
    obtain ⟨acts, ending⟩ := p
    cases ending with
    | returns => exact absurd rfl hp
    | exits | crashes | endless => rfl

theorem ServerRun.after_of_returns {p : Prog} (h : p.ending = .returns) (r : ServerRun) :
    ServerRun.after p r = ⟨p.acts ++ r.acts, r.waiting, r.ending⟩ := by
  simp [ServerRun.after, h]

theorem ServerRun.after_of_ne {p : Prog} (h : p.ending ≠ .returns) (r : ServerRun) :
    ServerRun.after p r = ⟨p.acts, false, p.ending⟩ := by
  obtain ⟨acts, ending⟩ := p
  cases ending with
  | returns => exact absurd rfl h
  | exits | crashes | endless => rfl

section

variable (doBlast : Bool) (rounds : ℕ)

/-- The numbers that `tipcTestClientX` runs. -/
def IsTest (test : ℤ) : Prop :=
  ¬(test < tsFirstSanityTest ∨ test ≥ tsLastStressTest ∨
    (test ≥ tsLastSanityTest doBlast ∧ test < tsFirstStressTest))

theorem tipcTestClientX_of_not {test : ℤ} (h : ¬IsTest doBlast test) :
    tipcTestClientX doBlast rounds test = .exit :=
  if_pos (not_not.mp h)

theorem tipcTestClientX_of {test : ℤ} (h : IsTest doBlast test) :
    tipcTestClientX doBlast rounds test = sendTIPCTest test ++
      .ofTest (runMatching test tsNumTimes ((clientList doBlast rounds).take (tsNumberOfTests doBlast + 1))) :=
  if_neg h

variable {doBlast}

theorem IsTest.pos {test : ℤ} (h : IsTest doBlast test) : test > 0 := by
  simp only [IsTest, tsFirstSanityTest] at h
  omega

/-- A test number is passed once, before the test. -/
theorem IsTest.told {test : ℤ} (h : IsTest doBlast test) :
    told (tipcTestClientX doBlast rounds test).acts = [test] := by
  rw [tipcTestClientX_of doBlast rounds h, sendTIPCTest, if_pos h.pos, append_of_returns rfl, told_append, told_ofTest]
  rfl

/-- **The server's side of one test** is the client's. -/
theorem IsTest.server {test : ℤ} (h : IsTest doBlast test) (rest : List ℤ) :
    tipcTestServer doBlast rounds (test :: rest) =
      .after (tipcTestClientX doBlast rounds test).dual (tipcTestServer doBlast rounds rest) := by
  have hpos := h.pos
  have hkill : test ≠ tsKillServer := by
    simp only [tsKillServer]
    omega
  have hrange : ¬(test ≥ tsLastStressTest ∨ (test ≥ tsLastSanityTest doBlast ∧ test < tsFirstStressTest)) :=
    fun hr => h (Or.inr hr)
  rw [tipcTestServer, if_neg hkill, if_neg hrange, ← ServerRun.after_append, tipcTestClientX_of doBlast rounds h,
    Prog.dual_append, Prog.ofTest_dual, runMatching_dual, List.map_take, clientList_dual, sendTIPCTest, if_pos hpos,
    ← append_assoc]
  rfl

variable (doBlast)

/-- The server that is told the test numbers of a client. -/
def serverOf (client : Prog) : ServerRun := tipcTestServer doBlast rounds (told client.acts)

/-- The server makes the client's acts the other way round, and then waits unless it was killed or sits in the
    client's last test. -/
structure Mirrored (client : Prog) : Prop where
  acts : (serverOf doBlast rounds client).acts = client.dual.acts ++
    if (serverOf doBlast rounds client).waiting then (Prog.ofTest (sendSyncTIPC tsSyncWaitingForTestId)).acts else []
  endless : (serverOf doBlast rounds client).ending = .endless ↔ client.ending = .endless

theorem mirrored_skip : Mirrored doBlast rounds .skip := ⟨rfl, nofun, nofun⟩

theorem mirrored_exit : Mirrored doBlast rounds .exit := ⟨rfl, nofun, nofun⟩

theorem mirrored_kill : Mirrored doBlast rounds (sendTIPCTest tsKillServer) := ⟨rfl, nofun, nofun⟩

variable {doBlast rounds}

/-- One more test in front. -/
theorem Mirrored.clientX {k : Prog} (hk : Mirrored doBlast rounds k) (test : ℤ) :
    Mirrored doBlast rounds (tipcTestClientX doBlast rounds test ++ k) := by
  by_cases htest : IsTest doBlast test
  · have htold := htest.told rounds
    have hserver := htest.server rounds
    generalize tipcTestClientX doBlast rounds test = p at htold hserver ⊢
    by_cases hp : p.ending = .returns
    · -- the test comes back: both go on
      have hof : serverOf doBlast rounds (p ++ k) = ServerRun.after p.dual (serverOf doBlast rounds k) := by
        rw [serverOf, append_of_returns hp, told_append, htold]
        exact hserver _
      have hpd : p.dual.ending = .returns := hp
      rw [ServerRun.after_of_returns hpd] at hof
      constructor
      · rw [hof, Prog.dual_append, append_of_returns hpd, hk.acts, List.append_assoc]
      · rw [hof, append_of_returns hp]
        exact hk.endless
    · -- the test ends both programs
      have hof : serverOf doBlast rounds (p ++ k) = ServerRun.after p.dual (serverOf doBlast rounds .skip) := by
        rw [serverOf, append_of_ne hp, htold]
        exact hserver _
      have hpd : p.dual.ending ≠ .returns := hp
      rw [ServerRun.after_of_ne hpd] at hof
      constructor
      · rw [hof, append_of_ne hp]
        simp
      · rw [hof, append_of_ne hp]
        rfl
  · rw [tipcTestClientX_of_not doBlast rounds htest]
    exact mirrored_exit doBlast rounds

theorem Mirrored.seq_clientX {k : Prog} (hk : Mirrored doBlast rounds k) (l : List ℕ) :
    Mirrored doBlast rounds (.seq (l.map fun (i : ℕ) => tipcTestClientX doBlast rounds (1 + i)) ++ k) := by
  induction l with
  | nil => exact hk
  | cons i l ih =>
    rw [List.map_cons, Script.seq_cons, append_assoc]
    exact ih.clientX (1 + i)

variable (doBlast rounds)

/-- The whole command line: an induction over its test numbers. -/
theorem mirrored_clientMain (tests : List ℤ) (killServers : Bool) :
    Mirrored doBlast rounds (clientMain doBlast rounds tests killServers) := by
  induction tests with
  | nil =>
    cases killServers with
    | true => exact mirrored_kill doBlast rounds
    | false => exact mirrored_skip doBlast rounds
  | cons test rest ih =>
    rw [clientMain]
    by_cases hneg : test < 0
    · rw [if_pos hneg]
      exact mirrored_exit doBlast rounds
    rw [if_neg hneg, tipcTestClient, if_neg (by simp only [tsKillServer]; omega)]
    split
    · exact mirrored_exit doBlast rounds
    split
    · exact ih.seq_clientX _
    · exact ih.clientX test

end

/-! ## The endless test -/

/-- More rounds of the endless test only add to what it does. -/
theorem clientStressConnectionless_extends (t : SockType) (rounds more : ℕ) :
    (clientStressConnectionless t rounds).Extends (clientStressConnectionless t (rounds + more)) := by
  induction rounds with
  | zero => exact Or.inr ⟨rfl, List.nil_prefix⟩
  | succ rounds ih =>
    rw [Nat.succ_add]
    exact (Script.Extends.refl _).append ih

/-- An entry of the list, with more rounds. -/
def TsTest.Extends (t t' : TsTest) : Prop := t.testNum = t'.testNum ∧ t.call.Extends t'.call

theorem TsTest.Extends.refl (t : TsTest) : t.Extends t := ⟨rfl, Script.Extends.refl _⟩

theorem clientList_extends (doBlast : Bool) (rounds more : ℕ) :
    List.Forall₂ TsTest.Extends (clientList doBlast rounds) (clientList doBlast (rounds + more)) := by
  have hrefl (l : List TsTest) : List.Forall₂ TsTest.Extends l l := List.forall₂_same.mpr fun t _ => .refl t
  apply List.rel_append (hrefl _)
  exact .cons (.refl _) (.cons ⟨rfl, clientStressConnectionless_extends _ _ _⟩ (.cons (.refl _) .nil))

theorem doTimes_extends {s s' : Test} (h : s.Extends s') (ntimes : ℕ) :
    (doTimes s ntimes).Extends (doTimes s' ntimes) := by
  induction ntimes using doTimes.induct with
  | case1 | case2 => exact h
  | case3 n hn ih =>
    rw [doTimes, doTimes]
    · exact h.append ih
    all_goals exact hn

theorem runMatching_extends (test : ℤ) {l l' : List TsTest} (h : List.Forall₂ TsTest.Extends l l') (ntimes : ℕ) :
    (runMatching test ntimes l).Extends (runMatching test ntimes l') := by
  induction h generalizing ntimes with
  | nil => exact Script.Extends.refl _
  | @cons t t' l l' ht _ ih =>
    rw [runMatching, runMatching, ht.1]
    split
    · exact (doTimes_extends ht.2 ntimes).append (ih 0)
    · exact ih ntimes

theorem tipcTestClientX_extends (doBlast : Bool) (rounds more : ℕ) (test : ℤ) :
    (tipcTestClientX doBlast rounds test).Extends (tipcTestClientX doBlast (rounds + more) test) := by
  unfold tipcTestClientX
  split
  · exact Script.Extends.refl _
  · apply (Script.Extends.refl _).append
    apply Script.Extends.map
    exact runMatching_extends test (List.forall₂_take _ (clientList_extends doBlast rounds more)) tsNumTimes

theorem tipcTestClient_extends (doBlast : Bool) (rounds more : ℕ) (test : ℤ) :
    (tipcTestClient doBlast rounds test).Extends (tipcTestClient doBlast (rounds + more) test) := by
  unfold tipcTestClient
  split
  · exact Script.Extends.refl _
  split
  · exact Script.Extends.refl _
  split
  · exact .seq_map (fun (i : ℕ) => tipcTestClientX_extends doBlast rounds more (1 + i)) _
  · exact tipcTestClientX_extends doBlast rounds more test

theorem clientMain_extends (doBlast : Bool) (rounds more : ℕ) (tests : List ℤ) (killServers : Bool) :
    (clientMain doBlast rounds tests killServers).Extends
      (clientMain doBlast (rounds + more) tests killServers) := by
  induction tests with
  | nil =>
    unfold clientMain
    split
    · exact tipcTestClient_extends doBlast rounds more tsKillServer
    · exact Script.Extends.refl _
  | cons test rest ih =>
    unfold clientMain
    split
    · exact Script.Extends.refl _
    · exact (tipcTestClient_extends doBlast rounds more test).append ih

/-- **The scripts are dual.** Whatever the command line, the server that is told the client's test numbers makes the
    client's synchronisations with sending and receiving exchanged and the same ids, and then waits for the next
    test number, if it waits at all; it sits in the endless test when the client does. More rounds of the endless
    test only add to the synchronisations. -/
theorem clientMain_dual (doBlast : Bool) (rounds : ℕ) (tests : List ℤ) (killServers : Bool) :
    let client := clientMain doBlast rounds tests killServers
    let server := tipcTestServer doBlast rounds (told client.acts)
    syncs server.acts = (syncs client.acts).map SyncStep.dual ++
        (if server.waiting then [⟨.send, tsSyncWaitingForTestId⟩] else []) ∧
      (server.ending = .endless ↔ client.ending = .endless) ∧
      ∀ more, syncs client.acts <+: syncs (clientMain doBlast (rounds + more) tests killServers).acts := by
  intro client server
  have h : Mirrored doBlast rounds client := mirrored_clientMain doBlast rounds tests killServers
  refine ⟨?_, h.endless, ?_⟩
  · have hacts : server.acts = client.acts.map ProgAct.dual ++
        if server.waiting then (Prog.ofTest (sendSyncTIPC tsSyncWaitingForTestId)).acts else [] := h.acts
    rw [hacts, syncs_append, syncs_dual]
    split <;> rfl
  · intro more
    exact (clientMain_extends doBlast rounds more tests killServers).acts.filterMap _

/-- One test, and `-k`. -/
example : syncs (clientMain false 0 [9] true).acts = [⟨.recv, 99⟩, ⟨.send, 100⟩, ⟨.send, 1⟩, ⟨.recv, 2⟩, ⟨.recv, 99⟩] := by
  decide

end Ptts
end Tipcutils
