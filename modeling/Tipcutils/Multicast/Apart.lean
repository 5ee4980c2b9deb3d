import Tipcutils.Multicast.Receiver

/-!
# `Multicast.Apart` — which senders the receiver keeps apart

The receiver's record of a sender is found from the low eight bits of its node address. What it prints about one
transmitter depends on the packets of all transmitters with the same record, and on no others:
**`report_of_mates`**. Transmitters that share a record, messages without octets (the receiver gives up) and messages
that are too short for a packet (the receiver reads what an earlier one has left) do change a report:
**`report_disturbed`**.
-/

namespace Tipcutils
namespace Multicast

open Tipc Decimal

/-- The lines printed about the transmitter `T`. -/
def linesAbout (T : TipcAddr) (out : List (Msg × List Line)) : List Line :=
  (out.filter fun p => p.1.src = T).flatMap Prod.snd

/-- The messages of `T`. -/
def messagesFrom (T : TipcAddr) (ms : List Msg) : List Msg := ms.filter fun m => m.src = T

/-- The messages of all transmitters that share the record of `T`. -/
def mates (T : TipcAddr) (ms : List Msg) : List Msg := ms.filter fun m => slot m.src = slot T

/-- The report about `T` comes from the record of `T` and the messages of its mates. -/
theorem linesAbout_eq (verbose : Bool) (T : TipcAddr) {st : Receiver} {ms : List Msg}
    (hne : ∀ m ∈ ms, m.payload ≠ []) (hlong : ∀ m ∈ mates T ms, sizeofReq ≤ m.payload.length) :
    linesAbout T (mcastReceiver verbose st ms) =
      ((Slots.single (handleView verbose) (st.sndrs (slot T))
        ((mates T ms).map fun m => (m, reqOf m.payload))).filter fun p => p.1.1.src = T).flatMap Prod.snd := by
  have hviews := views_filter (fun m => slot m.src = slot T) st.buf fun m hm hp =>
    hlong m (List.mem_filter.mpr ⟨hm, hp⟩)
  have hrun := Slots.run_filter (fun v : Msg × Req => slot v.1.src) (handleView verbose) st.sndrs
    (views st.buf ms) (slot T)
  rw [hviews] at hrun
  rw [mates, ← hrun, List.filter_filter, linesAbout, mcastReceiver_eq verbose st hne, List.filter_map,
    List.flatMap_map]
  congr 1
  apply List.filter_congr
  intro p _
  -- a message of `T` is one of its mates
  by_cases hp : p.1.1.src = T
  · simp [hp]
  · simp [hp]

/-- **A report depends on its mates only.** Where no message is empty and the messages of the transmitters that share
    the record of `T` hold a packet, two sequences with the same messages of these transmitters give the same report
    about `T`. -/
theorem report_of_mates (verbose : Bool) (T : TipcAddr) {ms ms' : List Msg} (hne : ∀ m ∈ ms, m.payload ≠ [])
    (hne' : ∀ m ∈ ms', m.payload ≠ []) (hlong : ∀ m ∈ mates T ms, sizeofReq ≤ m.payload.length)
    (hsame : mates T ms = mates T ms') :
    linesAbout T (mcastReceiver verbose .start ms) = linesAbout T (mcastReceiver verbose .start ms') := by
  rw [linesAbout_eq verbose T hne hlong, linesAbout_eq verbose T hne' (hsame ▸ hlong), hsame]

/-! ## What disturbs a report -/

/-- Two transmitters on the nodes `1.1.1` and `1.1.257`, with one record. -/
def node1 : TipcAddr := ⟨0, 1, 0x01001001⟩
def node257 : TipcAddr := ⟨0, 2, 0x01001101⟩

/-- A transmitter on the node `1.1.2`, with a record of its own. -/
def node2 : TipcAddr := ⟨0, 3, 0x01001002⟩

/-- A packet as a message of its own size. -/
def msgOf (src : TipcAddr) (r : Req) : Msg := ⟨src, r.octets⟩

/-- A run of one packet is reported as missing packets when another transmitter with the same record is in a run. -/
theorem disturbed_by_mate :
    linesAbout node1 (mcastReceiver false .start [msgOf node1 ⟨0, 1⟩]) = [.testOk 1 "1.1.1".toList] ∧
      linesAbout node1 (mcastReceiver false .start [msgOf node257 ⟨0, 5⟩, msgOf node1 ⟨0, 1⟩]) =
        [.missing 0xffffffff "1.1.1".toList, .testNok 2 "1.1.1".toList 3] := by
  constructor
  all_goals rw [linesAbout_eq false node1 (by decide) (by decide)]
  all_goals decide +kernel

/-- An empty message ends the receiver. -/
theorem disturbed_by_empty :
    linesAbout node1 (mcastReceiver false .start [⟨node2, []⟩, msgOf node1 ⟨0, 1⟩]) = [] := rfl

/-- A message of four octets is taken for the packet of another transmitter before it. -/
theorem views_short (src : TipcAddr) (r : Req) :
    views Receiver.start.buf [msgOf src r, ⟨node1, be32 0⟩] =
      [(msgOf src r, r), (⟨node1, be32 0⟩, ⟨0, r.remainingPkts⟩)] := by
  have hr : reqOf (overlay bufLen Receiver.start.buf r.octets) = reqOf r.octets :=
    reqOf_overlay _ (Nat.le_refl _)
  have hr' : reqOf r.octets = r := by simpa using reqOf_octets r []
  rw [views, views, views, msgOf, hr, hr', reqOf_overlay_short]

theorem disturbed_by_short :
    linesAbout node1 (mcastReceiver false .start [msgOf node2 ⟨0, 1⟩, ⟨node1, be32 0⟩]) =
        [.testOk 1 "1.1.1".toList] ∧
      linesAbout node1 (mcastReceiver false .start [msgOf node2 ⟨0, 2⟩, ⟨node1, be32 0⟩]) = [] := by
  constructor
  all_goals rw [mcastReceiver_eq false .start (by decide), views_short]
  all_goals decide +kernel

/-- **What disturbs a report:** another transmitter with the same record, an empty message, and a short one. In each
    pair of sequences the messages of `node1` are the same. -/
theorem report_disturbed :
    (messagesFrom node1 [msgOf node1 ⟨0, 1⟩] = messagesFrom node1 [msgOf node257 ⟨0, 5⟩, msgOf node1 ⟨0, 1⟩] ∧
      linesAbout node1 (mcastReceiver false .start [msgOf node1 ⟨0, 1⟩]) ≠
        linesAbout node1 (mcastReceiver false .start [msgOf node257 ⟨0, 5⟩, msgOf node1 ⟨0, 1⟩])) ∧
    (messagesFrom node1 [msgOf node1 ⟨0, 1⟩] = messagesFrom node1 [⟨node2, []⟩, msgOf node1 ⟨0, 1⟩] ∧
      linesAbout node1 (mcastReceiver false .start [msgOf node1 ⟨0, 1⟩]) ≠
        linesAbout node1 (mcastReceiver false .start [⟨node2, []⟩, msgOf node1 ⟨0, 1⟩])) ∧
    (messagesFrom node1 [msgOf node2 ⟨0, 1⟩, ⟨node1, be32 0⟩] =
        messagesFrom node1 [msgOf node2 ⟨0, 2⟩, ⟨node1, be32 0⟩] ∧
      linesAbout node1 (mcastReceiver false .start [msgOf node2 ⟨0, 1⟩, ⟨node1, be32 0⟩]) ≠
        linesAbout node1 (mcastReceiver false .start [msgOf node2 ⟨0, 2⟩, ⟨node1, be32 0⟩])) := by
  refine ⟨⟨by decide, ?_⟩, ⟨by decide, ?_⟩, ⟨by decide, ?_⟩⟩
  · rw [disturbed_by_mate.1, disturbed_by_mate.2]
    decide
  · rw [disturbed_by_mate.1, disturbed_by_empty]
    decide
  · rw [disturbed_by_short.1, disturbed_by_short.2]
    decide

/-- A transmitter with a record of its own does not disturb. -/
theorem report_of_mates_node2 :
    linesAbout node1 (mcastReceiver false .start [msgOf node2 ⟨0, 5⟩, msgOf node1 ⟨0, 1⟩]) =
      linesAbout node1 (mcastReceiver false .start [msgOf node1 ⟨0, 1⟩]) :=
  report_of_mates false node1 (by decide) (by decide) (by decide) (by decide)

end Multicast
end Tipcutils
