import Tipcutils.Lib.Slots
import Tipcutils.Lib.Wire
import Tipcutils.Tipc.Addr

/-!
# `Multicast.Receiver` — transmitter and receiver of `mcast_tipc.c`

A transmitter run sends packets with rising sequence numbers and the number of packets that remain, down to 1. The
receiver keeps one record for each value of the low eight bits of a sender's node address, prints a line for every
gap, and gives its verdict at a packet with `remaining_pkts` 1.

Messages are octets, as the receiver reads the packet through a static buffer: a message that is too short leaves
octets of an earlier one in its place. Not modelled: how the sockets are created, `mcast_receiver_subscriber`, and the
octet behind `srcbuf` that `tipc_dtoa` writes.
-/

namespace Tipcutils
namespace Multicast

open Tipc Decimal

/-- `struct req`, in host order. -/
structure Req where
  seqno : UInt32
  remainingPkts : UInt32
deriving DecidableEq

/-- `sizeof(struct req)`. -/
def sizeofReq : ℕ := 8

def Req.octets (r : Req) : Octets := be32 r.seqno ++ be32 r.remainingPkts

/-- The packet at the start of a buffer. -/
def reqOf (buf : Octets) : Req := ⟨ofBe32 buf, ofBe32 (buf.drop 4)⟩

/-- `BUF_LEN`. -/
def bufLen : ℕ := 66000

/-- `MAX_RCVRS`. -/
def maxRcvrs : UInt32 := 0xff

/-- `sizeof(srcbuf)`. -/
def sizeofSrcbuf : ℕ := 10

/-! ## The transmitter -/

/-- The loop of `mcast_transmitter`, after the packet with the number `seqno`. -/
def transmitFrom (seqno : UInt32) : ℕ → List Req
  | 0 => []
  | count + 1 => ⟨seqno + 1, .ofNat (count + 1)⟩ :: transmitFrom (seqno + 1) count

/-- `mcast_transmitter`: the packets of a run of `count`. The buffer starts with all ones. -/
def mcastTransmitter (count : UInt32) : List Req := transmitFrom 0xffffffff count.toNat

/-- A packet as a message of `len` octets. -/
def packet (len : ℕ) (r : Req) : Octets := (r.octets ++ List.replicate (bufLen - sizeofReq) 0xff).take len

/-! ## The receiver -/

/-- A message that arrives, with the address that `tipc_recvfrom` reports. -/
structure Msg where
  src : TipcAddr
  payload : Octets
deriving DecidableEq

/-- `struct sndr`. -/
structure Sndr where
  rcvNxt : UInt32
  cnt : UInt32
  totalCnt : UInt32
deriving DecidableEq

def Sndr.zero : Sndr := ⟨0, 0, 0⟩

/-- A line that the receiver prints about a sender. -/
inductive Line where
  | missing (gap : UInt32) (src : Text)
  | nowAt (cnt : UInt32) (src : Text)
  | testOk (cnt : UInt32) (src : Text)
  | testNok (cnt : UInt32) (src : Text) (lost : UInt32)
deriving DecidableEq

def Line.text : Line → Text
  | .missing gap src => "Missing ".toList ++ fmtU gap.toNat ++ " msgs from ".toList ++ src ++ "\n".toList
  | .nowAt cnt src => "Now at ".toList ++ fmtU cnt.toNat ++ " msgs from ".toList ++ src ++ "\n".toList
  | .testOk cnt src => "Test OK for ".toList ++ fmtU cnt.toNat ++ " pkts from ".toList ++ src ++ "\n".toList
  | .testNok cnt src lost =>
    "Test NOK for ".toList ++ fmtU cnt.toNat ++ " pkts from ".toList ++ src ++ ", missing ".toList ++
      fmtU lost.toNat ++ "\n".toList

/-- One packet and the record of its sender. -/
def Sndr.handle (verbose : Bool) (srcbuf : Text) (sndr : Sndr) (pkt : Req) : Sndr × List Line :=
  let gap := pkt.seqno - sndr.rcvNxt
  let missing := if gap ≠ 0 ∧ sndr.cnt ≠ 0 then [.missing gap srcbuf] else []
  let totalCnt := if sndr.cnt = 0 then pkt.remainingPkts else sndr.totalCnt
  let cnt := sndr.cnt + 1
  let now := if cnt % 10000 = 0 ∧ verbose then [.nowAt cnt srcbuf] else []
  if pkt.remainingPkts = 1 then
    (.zero, missing ++ now ++
      [if cnt = totalCnt then .testOk cnt srcbuf else .testNok cnt srcbuf (totalCnt - cnt)])
  else (⟨pkt.seqno + 1, cnt, totalCnt⟩, missing ++ now)

/-- The receiver's buffer and its records `sndrs`. -/
structure Receiver where
  buf : Octets
  sndrs : UInt32 → Sndr

def Receiver.start : Receiver := ⟨List.replicate bufLen 0xff, fun _ => .zero⟩

/-- The record that a sender uses. -/
def slot (src : TipcAddr) : UInt32 := src.domain &&& maxRcvrs

/-- One round of the loop of `mcast_receiver`; `none` is `die`. -/
def receive (verbose : Bool) (st : Receiver) (m : Msg) : Option (Receiver × List Line) :=
  if m.payload = [] then none
  else
    let buf := overlay bufLen st.buf m.payload
    let res := (st.sndrs (slot m.src)).handle verbose (tipcDtoa m.src.domain sizeofSrcbuf) (reqOf buf)
    some (⟨buf, Function.update st.sndrs (slot m.src) res.1⟩, res.2)

/-- `mcast_receiver`: each message with the lines printed about it. -/
def mcastReceiver (verbose : Bool) : Receiver → List Msg → List (Msg × List Line)
  | _, [] => []
  | st, m :: ms =>
    match receive verbose st m with
    | none => []
    | some (st', lines) => (m, lines) :: mcastReceiver verbose st' ms

/-! ## What a message shows -/

theorem reqOf_take (buf : Octets) : reqOf (buf.take sizeofReq) = reqOf buf := by
  simp [reqOf, ofBe32, sizeofReq, List.getD, List.drop_take]

/-- A message that holds a packet shows this packet. -/
theorem reqOf_overlay (buf : Octets) {payload : Octets} (hp : sizeofReq ≤ payload.length) :
    reqOf (overlay bufLen buf payload) = reqOf payload := by
  rw [← reqOf_take, take_overlay hp (by decide), reqOf_take]

theorem reqOf_octets (r : Req) (rest : Octets) : reqOf (r.octets ++ rest) = r := by
  obtain ⟨seqno, remaining⟩ := r
  rw [reqOf, Req.octets, List.append_assoc, ofBe32_be32, List.drop_left' (length_be32 seqno), ofBe32_be32]

/-- A message of four octets is completed by the packet before it. -/
theorem reqOf_overlay_short (buf : Octets) (r : Req) (seqno : UInt32) :
    reqOf (overlay bufLen (overlay bufLen buf r.octets) (be32 seqno)) = ⟨seqno, r.remainingPkts⟩ := by
  have hr : r.octets.length ≤ bufLen := by simp [Req.octets, bufLen]
  have hs : (be32 seqno).length ≤ bufLen := by simp [bufLen]
  rw [overlay_of_le hr, overlay_of_le hs, Req.octets, List.append_assoc, length_be32,
    List.drop_left' (length_be32 r.seqno), ← List.append_assoc]
  exact reqOf_octets ⟨seqno, r.remainingPkts⟩ _

theorem reqOf_packet {len : ℕ} (hlen : sizeofReq ≤ len) (r : Req) : reqOf (packet len r) = r := by
  rw [← reqOf_take, packet, List.take_take, Nat.min_eq_left hlen, reqOf_take, reqOf_octets]

theorem length_packet {len : ℕ} (hlen : sizeofReq ≤ len) (r : Req) : sizeofReq ≤ (packet len r).length := by
  simp only [packet, Req.octets, sizeofReq, bufLen, List.length_take, List.length_append, length_be32,
    List.length_replicate] at hlen ⊢
  omega

/-! ## Each record on its own -/

/-- The messages with the packets that the receiver sees at the start of its buffer. -/
def views : Octets → List Msg → List (Msg × Req)
  | _, [] => []
  | buf, m :: ms => (m, reqOf (overlay bufLen buf m.payload)) :: views (overlay bufLen buf m.payload) ms

/-- What the receiver does with a message and its packet. -/
def handleView (verbose : Bool) (sndr : Sndr) (v : Msg × Req) : Sndr × List Line :=
  sndr.handle verbose (tipcDtoa v.1.src.domain sizeofSrcbuf) v.2

/-- The receiver is a table of records. -/
theorem mcastReceiver_eq (verbose : Bool) (st : Receiver) {ms : List Msg} (hne : ∀ m ∈ ms, m.payload ≠ []) :
    mcastReceiver verbose st ms =
      (Slots.run (fun v => slot v.1.src) (handleView verbose) st.sndrs (views st.buf ms)).map
        fun p => (p.1.1, p.2) := by
  induction ms generalizing st with
  | nil => rfl
  | cons m ms ih =>
    have hm : m.payload ≠ [] := hne m List.mem_cons_self
    simp only [mcastReceiver, receive, if_neg hm, views, Slots.run, List.map_cons, handleView]
    rw [ih _ fun m' hm' => hne m' (List.mem_cons_of_mem _ hm')]

/-- Messages that hold their packets are seen as they are, whatever lies between them. -/
theorem views_filter (p : Msg → Bool) (buf : Octets) {ms : List Msg}
    (hlong : ∀ m ∈ ms, p m → sizeofReq ≤ m.payload.length) :
    (views buf ms).filter (fun v => p v.1) = (ms.filter p).map fun m => (m, reqOf m.payload) := by
  induction ms generalizing buf with
  | nil => rfl
  | cons m ms ih =>
    have hrest := ih (overlay bufLen buf m.payload) fun m' hm' => hlong m' (List.mem_cons_of_mem _ hm')
    rw [views, List.filter_cons, List.filter_cons]
    by_cases hp : p m
    · simp only [hp, if_true, List.map_cons]
      rw [reqOf_overlay _ (hlong m List.mem_cons_self hp), hrest]
    · simp only [hp, if_false, Bool.false_eq_true]
      exact hrest

end Multicast
end Tipcutils
