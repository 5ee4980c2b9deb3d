import Tipcutils.Lib.Script
import Tipcutils.Ptts.Sync

/-!
# `Ptts.Tests` — the test routines of `tipcTC` and `tipcTS`

Every routine of `tipc_ts_client.c` and `tipc_ts_server.c` that synchronises, as the script of its calls of
`sendSyncTIPC`, `recvSyncTIPC`, and of the helpers that send or receive a number of test messages
(`sendSocketTIPC`, `sendtoSocketTIPC`, `recvSocketTIPC`). No test reports a failure: every `err()` branch is
left out. The other socket calls of the tests exchange no synchronisation and are left out as well.

`doBlast` is `DO_BLAST`, which adds the three blast tests to both programs.
-/

namespace Tipcutils
namespace Ptts

/-! ## Acts -/

inductive SockType where
  | dgram
  | rdm
  | stream
  | seqpacket
deriving DecidableEq

/-- What a test routine does to the other party. -/
inductive TestAct where
  | sync (s : SyncStep)
  | send (numTimes msgSize : ℤ)
  | recv (numTimes maxSize : ℤ)
deriving DecidableEq

/-- The same act on the other side. -/
def TestAct.dual : TestAct → TestAct
  | .sync s => .sync s.dual
  | .send n m => .recv n m
  | .recv n m => .send n m

abbrev Test := Script TestAct

def sendSyncTIPC (sigInstance : ℤ) : Test := .act (.sync ⟨.send, sigInstance⟩)

def recvSyncTIPC (sigInstance : ℤ) : Test := .act (.sync ⟨.recv, sigInstance⟩)

def sendSocketTIPC (numTimes msgSize : ℤ) : Test := .act (.send numTimes msgSize)

def sendtoSocketTIPC (numTimes msgSize : ℤ) : Test := .act (.send numTimes msgSize)

def recvSocketTIPC (numTimes maxSize : ℤ) : Test := .act (.recv numTimes maxSize)

/-! ## Constants -/

def tsSyncId1 : ℤ := 1
def tsSyncId2 : ℤ := 2
def tsSyncId3 : ℤ := 3
def tsSyncId4 : ℤ := 4
def tsSyncWaitingForTestId : ℤ := 99
def tsSyncFinishedTestId : ℤ := 100

def tsKillServer : ℤ := -1
def tsNumTimes : ℕ := 1
def tsFirstSanityTest : ℤ := 1
def tsFirstStressTest : ℤ := 1000
def tsMsgInc : ℤ := 600

/-- The default of both `TS_BLAST_REPS` and `TS_BLAST_SREPS`. -/
def tsBlastReps : ℤ := 100000

/-- `ts_lastSanityTest`: one after the last sanity test. -/
def tsLastSanityTest (doBlast : Bool) : ℤ := if doBlast then 19 else 16

/-- `ts_lastStressTest`: one after the last stress test. -/
def tsLastStressTest : ℤ := 1001

/-- `TS_NUMBER_OF_TESTS`. -/
def tsNumberOfTests (doBlast : Bool) : ℕ :=
  (tsLastSanityTest doBlast + (tsLastStressTest - tsFirstStressTest)).toNat

/-- The levels `TIPC_LOW_IMPORTANCE` to `TIPC_CRITICAL_IMPORTANCE`. -/
def importanceLevels : List ℕ := [0, 1, 2, 3]

/-! ## Both sides -/

/-- `common_test_socketOptions` is local. -/
def commonTestSocketOptions : Test := .skip

def commonTestRecvfrom (syncId : ℤ) : Test := sendSyncTIPC syncId

def commonTestSendto (syncId : ℤ) : Test := recvSyncTIPC syncId

/-! ## The client's tests -/

def clientSendConnectionless (_socketType : SockType) (numRequests msgSize : ℤ) : Test :=
  recvSyncTIPC tsSyncId1 ++ sendtoSocketTIPC numRequests msgSize ++ sendSyncTIPC tsSyncId2

def clientTestConnectionless (sockType : SockType) : Test :=
  clientSendConnectionless sockType 10 100 ++
  clientSendConnectionless sockType 10 1000 ++
  if sockType = .rdm then
    clientSendConnectionless sockType 100 100 ++
    clientSendConnectionless sockType 100 1000
  else .skip

/-- `while (1)`, for a number of rounds. -/
def clientStressConnectionless (sockType : SockType) : ℕ → Test
  | 0 => ⟨[], .endless⟩
  | rounds + 1 => clientTestConnectionless sockType ++ clientStressConnectionless sockType rounds

def clientBlastConnectionless (_sockType : SockType) (numPackets packetSize : ℤ) : Test :=
  recvSyncTIPC tsSyncId1 ++ sendSyncTIPC tsSyncId3 ++ sendtoSocketTIPC numPackets packetSize ++
  sendSyncTIPC tsSyncId2

def clientBlastConnection (_sockType : SockType) (numPackets packetSize : ℤ) : Test :=
  recvSyncTIPC tsSyncId1 ++ sendSyncTIPC tsSyncId3 ++ sendSocketTIPC numPackets packetSize ++
  sendSyncTIPC tsSyncId2

/-- The loop of `client_test_messageLimits` from message size `msize` on. -/
def clientMessageLimitsFrom (msize : ℤ) : Test :=
  if msize ≤ 66000 then
    clientSendConnectionless .rdm 1 msize ++
    if msize + tsMsgInc > 66000 ∧ msize ≠ 66000 then clientMessageLimitsFrom 66000
    else clientMessageLimitsFrom (msize + tsMsgInc)
  else .skip
termination_by (66001 - msize).toNat
decreasing_by
  all_goals simp only [tsMsgInc] at *
  all_goals omega

def clientTestMessageLimits : Test := clientMessageLimitsFrom 1

def clientMcast (_lower _upper _msgsize _burstsize _subtest : ℤ) : Test :=
  sendSyncTIPC tsSyncId3 ++ recvSyncTIPC tsSyncId4

def clientTestMulticast : Test :=
  recvSyncTIPC tsSyncId1 ++
  clientMcast 99 100 100 1 1 ++
  clientMcast 150 250 100 1 2 ++
  clientMcast 200 399 100 1 3 ++
  clientMcast 0 399 100 1 4 ++
  clientMcast 200 399 100 200 5 ++
  clientMcast 200 399 1000 200 6 ++
  clientMcast 200 399 66000 40 7 ++
  sendSyncTIPC tsSyncId2

def clientSendConnection (_socketType : SockType) (numMessages messageSize numReplies maxReplySize : ℤ) : Test :=
  recvSyncTIPC tsSyncId1 ++ sendSocketTIPC numMessages messageSize ++ recvSocketTIPC numReplies maxReplySize ++
  sendSyncTIPC tsSyncId2

def clientTestConnection (sockType : SockType) : Test :=
  clientSendConnection sockType 10 100 10 100 ++
  clientSendConnection sockType 100 1000 0 0 ++
  clientSendConnection sockType 0 0 50 123

def clientSendConnectionShutdown (_socketType : SockType) (numRequests requestSize : ℤ) : Test :=
  recvSyncTIPC tsSyncId1 ++ sendSocketTIPC numRequests requestSize ++ sendSyncTIPC tsSyncId2

def clientTestConnectionShutdown (sockType : SockType) : Test :=
  clientSendConnectionShutdown sockType 10 100 ++
  clientSendConnectionShutdown sockType 100 1000 ++
  clientSendConnectionShutdown sockType 500 1000

def clientTestImportance : Test :=
  .seq (importanceLevels.map fun _ =>
    clientTestConnectionless .dgram ++
    clientTestConnectionless .rdm ++
    clientTestConnection .stream ++
    clientTestConnection .seqpacket ++
    clientTestConnectionShutdown .stream ++
    clientTestConnectionShutdown .seqpacket)

def clientTestAncConnection : Test := recvSyncTIPC tsSyncId1 ++ sendSyncTIPC tsSyncId2

def clientTestAncConnectionless : Test :=
  recvSyncTIPC tsSyncId1 ++ sendSyncTIPC tsSyncId2 ++ sendSyncTIPC tsSyncId3

def clientTestSocketOptions : Test :=
  commonTestSocketOptions ++ sendSyncTIPC tsSyncId1 ++ recvSyncTIPC tsSyncId2

def clientTestStream : Test := recvSyncTIPC tsSyncId1 ++ sendSyncTIPC tsSyncId2

def clientTestBigStream : Test :=
  recvSyncTIPC tsSyncId1 ++ recvSyncTIPC tsSyncId2 ++ sendSyncTIPC tsSyncId3

def clientTestSendto : Test :=
  commonTestSendto tsSyncId1 ++ recvSyncTIPC tsSyncId2 ++ commonTestRecvfrom tsSyncId3 ++ sendSyncTIPC tsSyncId4

/-- `cblastSize`, with its terminator. -/
def cblastSize : List ℤ := [1, 32, 64, 100, 128, 256, 512, 1000, 1024, 1280, 1450, 2048, 8192, 10000, 0]

def clientBlastRdm : Test :=
  .seq ((cblastSize.takeWhile (· ≠ 0)).map fun size => clientBlastConnectionless .rdm tsBlastReps size)

def clientBlastSeqpacket : Test :=
  .seq ((cblastSize.takeWhile (· ≠ 0)).map fun size => clientBlastConnection .seqpacket tsBlastReps size)

def clientBlastStream : Test :=
  .seq ((cblastSize.takeWhile (· ≠ 0)).map fun size => clientBlastConnection .stream tsBlastReps size)

/-! ## The server's tests -/

def serverReceiveConnectionless (_socketType : SockType) (numRequests maxRequestSize : ℤ) : Test :=
  sendSyncTIPC tsSyncId1 ++ recvSocketTIPC numRequests maxRequestSize ++ recvSyncTIPC tsSyncId2

def serverTestConnectionless (sockType : SockType) : Test :=
  serverReceiveConnectionless sockType 10 100 ++
  serverReceiveConnectionless sockType 10 1000 ++
  if sockType = .rdm then
    serverReceiveConnectionless sockType 100 100 ++
    serverReceiveConnectionless sockType 100 1000
  else .skip

/-- `while (1)`, for a number of rounds; the body is written out again. -/
def serverStressConnectionless (sockType : SockType) : ℕ → Test
  | 0 => ⟨[], .endless⟩
  | rounds + 1 =>
    (serverReceiveConnectionless sockType 10 100 ++
      serverReceiveConnectionless sockType 10 1000 ++
      if sockType = .rdm then
        serverReceiveConnectionless sockType 100 100 ++
        serverReceiveConnectionless sockType 100 1000
      else .skip) ++
    serverStressConnectionless sockType rounds

def serverBlastConnectionless (_sockType : SockType) (numPackets packetSize : ℤ) : Test :=
  sendSyncTIPC tsSyncId1 ++ recvSyncTIPC tsSyncId3 ++ recvSocketTIPC numPackets packetSize ++
  recvSyncTIPC tsSyncId2

def serverBlastConnection (_sockType : SockType) (numPackets packetSize : ℤ) : Test :=
  sendSyncTIPC tsSyncId1 ++ recvSyncTIPC tsSyncId3 ++ recvSocketTIPC numPackets packetSize ++
  recvSyncTIPC tsSyncId2

/-- The loop of `server_test_messageLimits` from message size `msize` on. -/
def serverMessageLimitsFrom (msize : ℤ) : Test :=
  if msize ≤ 66000 then
    serverReceiveConnectionless .rdm 1 msize ++
    if msize + tsMsgInc > 66000 ∧ msize ≠ 66000 then serverMessageLimitsFrom 66000
    else serverMessageLimitsFrom (msize + tsMsgInc)
  else .skip
termination_by (66001 - msize).toNat
decreasing_by
  all_goals simp only [tsMsgInc] at *
  all_goals omega

def serverTestMessageLimits : Test := serverMessageLimitsFrom 1

def serverReceiveConnection (_socketType : SockType) (numConns : ℕ)
    (numRequests maxRequestSize numReplies replySize : ℤ) : Test :=
  sendSyncTIPC tsSyncId1 ++
  .seq (List.replicate numConns (recvSocketTIPC numRequests maxRequestSize ++ sendSocketTIPC numReplies replySize)) ++
  recvSyncTIPC tsSyncId2

def serverTestConnection (sockType : SockType) : Test :=
  serverReceiveConnection sockType 1 10 100 10 100 ++
  serverReceiveConnection sockType 1 100 1000 0 0 ++
  serverReceiveConnection sockType 1 0 0 50 123

def serverReceiveConnectionShutdown (_socketType : SockType) (numConns : ℕ)
    (numRequests maxRequestSize : ℤ) : Test :=
  sendSyncTIPC tsSyncId1 ++
  .seq (List.replicate numConns (recvSocketTIPC numRequests maxRequestSize)) ++
  recvSyncTIPC tsSyncId2

def serverTestConnectionShutdown (sockType : SockType) : Test :=
  serverReceiveConnectionShutdown sockType 1 10 100 ++
  serverReceiveConnectionShutdown sockType 1 100 1000 ++
  serverReceiveConnectionShutdown sockType 1 500 1000

def serverTestImportance : Test :=
  .seq (importanceLevels.map fun _ =>
    serverTestConnectionless .dgram ++
    serverTestConnectionless .rdm ++
    serverTestConnection .stream ++
    serverTestConnection .seqpacket ++
    serverTestConnectionShutdown .stream ++
    serverTestConnectionShutdown .seqpacket)

def serverTestAncConnection : Test := sendSyncTIPC tsSyncId1 ++ recvSyncTIPC tsSyncId2

def serverTestAncConnectionless : Test :=
  sendSyncTIPC tsSyncId1 ++ recvSyncTIPC tsSyncId2 ++ recvSyncTIPC tsSyncId3

def serverMcast (_numSubTest : ℕ) : Test := recvSyncTIPC tsSyncId3 ++ sendSyncTIPC tsSyncId4

/-- `TIPC_MCAST_SUBTESTS`. -/
def tipcMcastSubtests : ℕ := 7

def serverTestMulticast : Test :=
  sendSyncTIPC tsSyncId1 ++ .seq ((List.range tipcMcastSubtests).map serverMcast) ++ recvSyncTIPC tsSyncId2

def serverTestSocketOptions : Test :=
  recvSyncTIPC tsSyncId1 ++ commonTestSocketOptions ++ sendSyncTIPC tsSyncId2

def serverTestStream : Test := sendSyncTIPC tsSyncId1 ++ recvSyncTIPC tsSyncId2

def serverTestBigStream : Test :=
  sendSyncTIPC tsSyncId1 ++ sendSyncTIPC tsSyncId2 ++ recvSyncTIPC tsSyncId3

def serverTestSendto : Test :=
  commonTestRecvfrom tsSyncId1 ++ sendSyncTIPC tsSyncId2 ++ commonTestSendto tsSyncId3 ++ recvSyncTIPC tsSyncId4

/-- `sblastSize`, with its terminator. -/
def sblastSize : List ℤ := [1, 32, 64, 100, 128, 256, 512, 1000, 1024, 1280, 1450, 2048, 8192, 10000, 0]

def serverBlastRdm : Test :=
  .seq ((sblastSize.takeWhile (· ≠ 0)).map fun size => serverBlastConnectionless .rdm tsBlastReps size)

def serverBlastSeqpacket : Test :=
  .seq ((sblastSize.takeWhile (· ≠ 0)).map fun size => serverBlastConnection .seqpacket tsBlastReps size)

def serverBlastStream : Test :=
  .seq ((sblastSize.takeWhile (· ≠ 0)).map fun size => serverBlastConnection .stream tsBlastReps size)

/-! ## The lists of tests -/

/-- `TSTEST`; `none` is a null pointer. -/
structure TsTest where
  testNum : ℤ
  test : Option Test

/-- `clientList`; `rounds` bounds the endless test. -/
def clientList (doBlast : Bool) (rounds : ℕ) : List TsTest :=
  [⟨0, none⟩,
    ⟨1, some (clientTestConnectionless .dgram)⟩,
    ⟨2, some (clientTestConnectionless .rdm)⟩,
    ⟨3, some (clientTestConnection .stream)⟩,
    ⟨4, some (clientTestConnection .seqpacket)⟩,
    ⟨5, some (clientTestConnectionShutdown .stream)⟩,
    ⟨6, some (clientTestConnectionShutdown .seqpacket)⟩,
    ⟨7, some clientTestMessageLimits⟩,
    ⟨8, some clientTestImportance⟩,
    ⟨9, some clientTestSocketOptions⟩,
    ⟨10, some clientTestAncConnection⟩,
    ⟨11, some clientTestAncConnectionless⟩,
    ⟨12, some clientTestMulticast⟩,
    ⟨13, some clientTestStream⟩,
    ⟨14, some clientTestBigStream⟩,
    ⟨15, some clientTestSendto⟩] ++
  (if doBlast then
    [⟨16, some clientBlastRdm⟩, ⟨17, some clientBlastSeqpacket⟩, ⟨18, some clientBlastStream⟩]
  else []) ++
  [⟨tsLastSanityTest doBlast, none⟩,
    ⟨tsFirstStressTest, some (clientStressConnectionless .rdm rounds)⟩,
    ⟨tsLastStressTest, none⟩]

/-- `serverList`. -/
def serverList (doBlast : Bool) (rounds : ℕ) : List TsTest :=
  [⟨0, none⟩,
    ⟨1, some (serverTestConnectionless .dgram)⟩,
    ⟨2, some (serverTestConnectionless .rdm)⟩,
    ⟨3, some (serverTestConnection .stream)⟩,
    ⟨4, some (serverTestConnection .seqpacket)⟩,
    ⟨5, some (serverTestConnectionShutdown .stream)⟩,
    ⟨6, some (serverTestConnectionShutdown .seqpacket)⟩,
    ⟨7, some serverTestMessageLimits⟩,
    ⟨8, some serverTestImportance⟩,
    ⟨9, some serverTestSocketOptions⟩,
    ⟨10, some serverTestAncConnection⟩,
    ⟨11, some serverTestAncConnectionless⟩,
    ⟨12, some serverTestMulticast⟩,
    ⟨13, some serverTestStream⟩,
    ⟨14, some serverTestBigStream⟩,
    ⟨15, some serverTestSendto⟩] ++
  (if doBlast then
    [⟨16, some serverBlastRdm⟩, ⟨17, some serverBlastSeqpacket⟩, ⟨18, some serverBlastStream⟩]
  else []) ++
  [⟨tsLastSanityTest doBlast, none⟩,
    ⟨tsFirstStressTest, some (serverStressConnectionless .rdm rounds)⟩,
    ⟨tsLastStressTest, none⟩]

/-- Call a test through its pointer. -/
def TsTest.call (t : TsTest) : Test :=
  match t.test with
  | some s => s
  | none => .crash

/-- `do { .. } while (--ntimes > 0)`. -/
def doTimes (s : Test) : ℕ → Test
  | 0 => s
  | 1 => s
  | ntimes + 1 => s ++ doTimes s ntimes

/-- The loop over the list: run every entry with the number `test`. `ntimes` is not set again in the loop, so a second
    entry with the number would run once. -/
def runMatching (test : ℤ) : ℕ → List TsTest → Test
  | _, [] => .skip
  | ntimes, t :: rest =>
    if t.testNum = test then doTimes t.call ntimes ++ runMatching test 0 rest else runMatching test ntimes rest

/-! ## The two programs -/

/-- What a program does: the acts of a test, or the passing of a test number (`tell` on both sides). -/
inductive ProgAct where
  | test (a : TestAct)
  | tell (n : ℤ)
deriving DecidableEq

abbrev Prog := Script ProgAct

def Prog.ofTest (s : Test) : Prog := s.map .test

/-- `sendTIPCTest`. -/
def sendTIPCTest (test : ℤ) : Prog :=
  .ofTest (recvSyncTIPC tsSyncWaitingForTestId) ++ .act (.tell test) ++
  if test > 0 then .ofTest (sendSyncTIPC tsSyncFinishedTestId) else .skip

/-- `tipcTestClientX`. -/
def tipcTestClientX (doBlast : Bool) (rounds : ℕ) (test : ℤ) : Prog :=
  if test < tsFirstSanityTest ∨ test ≥ tsLastStressTest ∨
      (test ≥ tsLastSanityTest doBlast ∧ test < tsFirstStressTest) then .exit
  else
    sendTIPCTest test ++
    .ofTest (runMatching test tsNumTimes ((clientList doBlast rounds).take (tsNumberOfTests doBlast + 1)))

/-- `tipcTestClient`. -/
def tipcTestClient (doBlast : Bool) (rounds : ℕ) (test : ℤ) : Prog :=
  if test = tsKillServer then sendTIPCTest tsKillServer
  else if (test ≥ tsLastSanityTest doBlast ∧ test < tsFirstStressTest) ∨ test ≥ tsLastStressTest ∨ test < 0 then
    .exit
  else if test = 0 then
    .seq ((List.range (tsLastSanityTest doBlast - 1).toNat).map fun (i : ℕ) =>
      tipcTestClientX doBlast rounds (1 + i))
  else tipcTestClientX doBlast rounds test

/-- The client's `main` after its options: the test numbers of the command line, then `-k`. -/
def clientMain (doBlast : Bool) (rounds : ℕ) : List ℤ → Bool → Prog
  | [], killServers => if killServers then tipcTestClient doBlast rounds tsKillServer else .skip
  | test :: rest, killServers =>
    if test < 0 then .exit else tipcTestClient doBlast rounds test ++ clientMain doBlast rounds rest killServers

/-- What the server has done, and whether it waits for the next test number. -/
structure ServerRun where
  acts : List ProgAct
  waiting : Bool
  ending : Ending

/-- The server after a script: what follows it, if it returns. -/
def ServerRun.after (s : Prog) (r : ServerRun) : ServerRun :=
  match s.ending with
  | .returns => { r with acts := s.acts ++ r.acts }
  | e => ⟨s.acts, false, e⟩

/-- `tipcTestServer`, given the test numbers that it is told. -/
def tipcTestServer (doBlast : Bool) (rounds : ℕ) : List ℤ → ServerRun
  | [] => .after (.ofTest (sendSyncTIPC tsSyncWaitingForTestId)) ⟨[], true, .returns⟩
  | test :: rest =>
    .after (.ofTest (sendSyncTIPC tsSyncWaitingForTestId) ++ .act (.tell test))
      (if test = tsKillServer then ⟨[], false, .returns⟩
      else if test ≥ tsLastStressTest ∨ (test ≥ tsLastSanityTest doBlast ∧ test < tsFirstStressTest) then
        ⟨[], false, .exits⟩
      else
        .after (.ofTest (recvSyncTIPC tsSyncFinishedTestId) ++
            .ofTest (runMatching test tsNumTimes ((serverList doBlast rounds).take (tsNumberOfTests doBlast + 1))))
          (tipcTestServer doBlast rounds rest))

end Ptts
end Tipcutils
