import Mathlib.Data.List.Basic
import Tipcutils.GroupCast.Group

/-!
# `GroupCast.Replies` — which messages are answered

A member answers a message if the second octet of its buffer is set after the receipt. For a message of at least two
octets this is the reply flag of the message, and a reply never has it set; for a shorter one it is whatever the buffer
held before. **`replies_iff`**: replies are right exactly where every message received has at least two octets, or
finds the right value in the buffer; and **`short_replied_iff`** says which value this is: the receiver's last receipt has
cleared it, or its last Xcast has left the receiver's own `-r` there, or it is still set by `memset`.
-/

namespace Tipcutils
namespace GroupCast

/-! ## The buffer -/

theorem hdrReply_congr {buf buf' : Octets} (h : buf[1]? = buf'[1]?) : hdrReply buf = hdrReply buf' := by
  rw [hdrReply, hdrReply, List.getD_eq_getElem?_getD, List.getD_eq_getElem?_getD, h]

theorem hdrReply_setHdr {buf : Octets} (h : 2 ≤ buf.length) (type : Mtyp) (reply : Bool) :
    hdrReply (setHdr buf type reply) = reply := by
  have hlen : 1 < (buf.set 0 type.code).length := by
    rw [List.length_set]
    omega
  rw [hdrReply, setHdr, List.getD_eq_getElem?_getD, List.getElem?_set_self hlen]
  cases reply <;> decide

theorem length_setHdr (buf : Octets) (type : Mtyp) (reply : Bool) : (setHdr buf type reply).length = buf.length := by
  rw [setHdr, List.length_set, List.length_set]

/-- After a receipt, the flag is that of the message, or what was there before. -/
theorem hdrReply_overlay (buf : Octets) {payload : Octets} (h : payload ≠ []) :
    hdrReply (overlay bufLen buf payload) = if 2 ≤ payload.length then hdrReply payload else hdrReply buf := by
  have hpos := List.length_pos_iff.mpr h
  split
  next h2 =>
    apply hdrReply_congr
    rw [overlay, List.getElem?_append_left (by rw [List.length_take]; exact Nat.lt_min.mpr ⟨by decide, h2⟩),
      List.getElem?_take_of_lt (by decide)]
  next h2 =>
    have h1 : payload.length = 1 := by omega
    apply hdrReply_congr
    rw [overlay, List.getElem?_append_right (by rw [List.length_take, h1]; decide), List.getElem?_drop,
      List.length_take, h1]
    rfl

theorem two_le_length_overlay {buf : Octets} (payload : Octets) (hb : 2 ≤ buf.length) :
    2 ≤ (overlay bufLen buf payload).length := by
  simp only [overlay, bufLen, List.length_append, List.length_take, List.length_drop]
  omega

/-- A message of at least two octets has the flag of the buffer it is sent from. -/
theorem hdrReply_payloadOf {len : ℤ} {buf payload : Octets} (h : payloadOf len buf = some payload)
    (h2 : 2 ≤ payload.length) : hdrReply payload = hdrReply buf := by
  unfold payloadOf at h
  split at h
  · obtain rfl := Option.some.inj h
    rw [List.length_take] at h2
    apply hdrReply_congr
    exact List.getElem?_take_of_lt (by omega)
  · nomatch h

theorem two_le_length_payloadOf {len : ℤ} {buf payload : Octets} (h : payloadOf len buf = some payload)
    (hb : 2 ≤ buf.length) (hlen : 2 ≤ len) : 2 ≤ payload.length := by
  unfold payloadOf at h
  split at h
  · obtain rfl := Option.some.inj h
    rw [List.length_take]
    omega
  · nomatch h

/-! ## The invariant -/

variable (opts : ℕ → Opts)

/-- A message that says what its sender meant, if it is long enough to do so. -/
structure Msg.Ok (m : Msg) : Prop where
  flag : 2 ≤ m.payload.length → hdrReply m.payload = m.flag
  long : 2 ≤ (opts m.src).len → 2 ≤ m.payload.length
  isXcast : m.flag = true → m.kind.isXcast = true

/-- A member whose buffer has room for the header, and whose messages are as they were sent. -/
structure Member.Ok (m : Member) : Prop where
  buf : 2 ≤ m.buf.length
  inbox : ∀ msg ∈ m.inbox, msg.Ok opts

/-- A delivery that was answered as the header in the buffer said. -/
structure Delivery.Ok (d : Delivery) : Prop where
  msg : d.msg.Ok opts
  replied : d.replied = if 2 ≤ d.msg.payload.length then d.msg.flag else d.stale

structure Inv (s : State) : Prop where
  member : ∀ i, (s.member i).Ok opts
  delivery : ∀ d ∈ s.deliveries, d.Ok opts
  unicasts : s.unicasts ≤ (s.deliveries.filter Delivery.replied).length

variable {opts} {s s' : State}

/-- What a member sends from its buffer. -/
theorem Msg.ok_of_payloadOf {buf payload : Octets} {type kind : Mtyp} {reply : Bool} (i : ℕ)
    (h : payloadOf (opts i).len (setHdr buf type reply) = some payload) (hb : 2 ≤ buf.length)
    (hx : reply = true → kind.isXcast = true) : Msg.Ok opts ⟨i, payload, kind, reply⟩ := by
  refine ⟨fun h2 => ?_, two_le_length_payloadOf h ?_, hx⟩
  · rw [hdrReply_payloadOf h h2, hdrReply_setHdr hb]
  · rw [length_setHdr]
    exact hb

theorem Member.Ok.sent {m : Member} (h : m.Ok opts) (type : Mtyp) (payload : Octets) :
    (m.sent type payload).Ok opts := by
  unfold Member.sent
  split
  · exact ⟨h.buf, h.inbox⟩
  · exact ⟨h.buf, h.inbox⟩

theorem Inv.setMember (h : Inv opts s) (i : ℕ) {m : Member} (hm : m.Ok opts) : Inv opts (s.setMember i m) := by
  refine ⟨?_, h.delivery, h.unicasts⟩
  intro j
  show (Function.update s.member i m j).Ok opts
  by_cases hj : j = i
  · rw [hj, Function.update_self]
    exact hm
  · rw [Function.update_of_ne hj]
    exact h.member j

theorem Inv.post (h : Inv opts s) (rcvrs : List ℕ) {msg : Msg} (hmsg : msg.Ok opts) : Inv opts (s.post rcvrs msg) := by
  refine ⟨?_, h.delivery, h.unicasts⟩
  intro j
  show (if j ∈ rcvrs then { s.member j with inbox := (s.member j).inbox ++ [msg] } else s.member j : Member).Ok opts
  split
  · refine ⟨(h.member j).buf, ?_⟩
    intro msg' hmem
    rcases List.mem_append.mp hmem with hold | hnew
    · exact (h.member j).inbox msg' hold
    · rw [List.mem_singleton.mp hnew]
      exact hmsg
  · exact h.member j

/-- One more delivery, answered as the buffer said. -/
theorem Inv.deliver (h : Inv opts s) {d : Delivery} (hd : d.Ok opts) : Inv opts (s.deliver d) := by
  refine ⟨h.member, ?_, ?_⟩
  · intro d' hmem
    rcases List.mem_append.mp hmem with hold | hnew
    · exact h.delivery d' hold
    · rw [List.mem_singleton.mp hnew]
      exact hd
  · show s.unicasts ≤ ((s.deliveries ++ [d]).filter Delivery.replied).length
    rw [List.filter_append, List.length_append]
    have := h.unicasts
    omega

theorem inv_start : Inv opts start := by
  refine ⟨fun i => ⟨?_, nofun⟩, nofun, Nat.zero_le _⟩
  show 2 ≤ (List.replicate bufLen (0xff : UInt8)).length
  rw [List.length_replicate]
  decide

/-- A reply: the unicast is counted with a delivery that is answered. -/
theorem Inv.unicast (h : Inv opts s) {d : Delivery} (hd : d.Ok opts) (hr : d.replied = true) {i : ℕ} {m : Member}
    (hm : m.Ok opts) (rcvrs : List ℕ) {msg : Msg} (hmsg : msg.Ok opts) :
    Inv opts { ((s.deliver d).setMember i m).post rcvrs msg with unicasts := s.unicasts + 1 } := by
  have hs := ((h.deliver hd).setMember i hm).post rcvrs hmsg
  refine ⟨hs.member, hs.delivery, ?_⟩
  show s.unicasts + 1 ≤ ((s.deliveries ++ [d]).filter Delivery.replied).length
  rw [List.filter_append, List.length_append, List.filter_cons_of_pos hr]
  exact Nat.add_le_add_right h.unicasts 1

/-- The receipt of a message. -/
theorem Inv.transceive {i k : ℕ} {msg : Msg} (h : Inv opts s) (hmsg : msg ∈ (s.member i).inbox) (ok : Bool) :
    Inv opts (s.transceive opts i k msg ok) := by
  have hm := h.member i
  have hinbox : ∀ msg' ∈ (s.member i).inbox.eraseIdx k, msg'.Ok opts := fun msg' hmem =>
    hm.inbox msg' (List.mem_of_mem_eraseIdx hmem)
  have hok := hm.inbox msg hmsg
  unfold State.transceive
  split
  · exact h.setMember i ⟨hm.buf, hinbox⟩
  next hne =>
    have hbuf := two_le_length_overlay msg.payload hm.buf
    have hreply : hdrReply (overlay bufLen (s.member i).buf msg.payload) =
        if 2 ≤ msg.payload.length then msg.flag else hdrReply (s.member i).buf := by
      rw [hdrReply_overlay _ hne]
      split
      next h2 => exact hok.flag h2
      · rfl
    have hbuf' := hbuf
    rw [← length_setHdr _ .ucast false] at hbuf'
    dsimp only
    split
    next hr =>
      have hd : Delivery.Ok opts ⟨msg, hdrReply (s.member i).buf, true⟩ := ⟨hok, by rw [← hreply, hr]⟩
      split
      next payload hpayload =>
        apply h.unicast hd rfl (Member.Ok.sent ⟨hbuf', hinbox⟩ _ _)
        -- a reply does not ask for one
        exact Msg.ok_of_payloadOf i hpayload hbuf nofun
      · exact (h.deliver hd).setMember i ⟨hbuf', hinbox⟩
    next hr =>
      rw [Bool.not_eq_true] at hr
      have hd : Delivery.Ok opts ⟨msg, hdrReply (s.member i).buf, false⟩ := ⟨hok, by rw [← hreply, hr]⟩
      exact (h.deliver hd).setMember i ⟨hbuf, hinbox⟩

/-- A member's own message carries the flag it was started with. -/
theorem Inv.xcast {i : ℕ} (h : Inv opts s) (rcvrs : List ℕ) (ok : Bool) : Inv opts (s.xcast opts i rcvrs ok) := by
  have hm := h.member i
  have hbuf := hm.buf
  rw [← length_setHdr _ (opts i).mtyp (opts i).ucastReply] at hbuf
  unfold State.xcast
  dsimp only
  split
  next hx =>
    split
    next payload hpayload =>
      refine Inv.post (h.setMember i (Member.Ok.sent ?_ _ _)) rcvrs ?_
      · exact ⟨hbuf, hm.inbox⟩
      · exact Msg.ok_of_payloadOf i hpayload hm.buf fun _ => hx
    · exact h.setMember i ⟨hbuf, hm.inbox⟩
  · exact h.setMember i ⟨hbuf, hm.inbox⟩

theorem Inv.step {l : Label} (h : Inv opts s) (hs : step opts s l = some s') : Inv opts s' := by
  cases l with
  | event i up =>
    obtain ⟨-, hs⟩ := Option.ite_none_right_eq_some.mp hs
    obtain rfl := Option.some.inj hs
    exact h.setMember i ⟨(h.member i).buf, (h.member i).inbox⟩
  | recv i k ok =>
    obtain ⟨-, hs⟩ := Option.ite_none_right_eq_some.mp hs
    obtain ⟨msg, hmsg, rfl⟩ := Option.map_eq_some_iff.mp hs
    exact h.transceive (List.mem_of_getElem? hmsg) ok
  | xcast i err rcvrs ok =>
    obtain ⟨-, hs⟩ := Option.ite_none_right_eq_some.mp hs
    obtain rfl := Option.some.inj hs
    exact h.xcast rcvrs ok
  | die i =>
    obtain rfl := Option.some.inj hs
    exact h.setMember i ⟨(h.member i).buf, (h.member i).inbox⟩

theorem inv_reach (h : Lts.Reach (GroupCast.step opts) start s) : Inv opts s :=
  h.inv inv_start fun _ _ _ hI hs => hI.step hs

/-! ## Which messages are answered -/

/-- The delivery of an Xcast that was sent with `-r`. -/
def Delivery.requests (d : Delivery) : Bool := d.msg.flag && d.msg.kind.isXcast

/-- A member answers what its sender asked it to answer, and nothing else; a unicast is never answered; and there are no
    more unicasts than deliveries that ask for one. -/
structure RepliesRight (s : State) : Prop where
  replied : ∀ d ∈ s.deliveries, d.replied = d.msg.flag
  ucast : ∀ d ∈ s.deliveries, d.msg.kind = .ucast → d.replied = false
  unicasts : s.unicasts ≤ (s.deliveries.filter Delivery.requests).length

/-- The receiver's buffer does not tell it anything else than the sender meant. -/
def Delivery.Clear (d : Delivery) : Prop := 2 ≤ d.msg.payload.length ∨ d.stale = d.msg.flag

theorem Delivery.Ok.replied_iff {d : Delivery} (h : d.Ok opts) : d.replied = d.msg.flag ↔ d.Clear := by
  rw [h.replied, Delivery.Clear]
  split
  next h2 => exact ⟨fun _ => Or.inl h2, fun _ => rfl⟩
  next h2 => exact ⟨Or.inr, fun hc => hc.resolve_left h2⟩

theorem Inv.filter_requests (h : Inv opts s) (hr : ∀ d ∈ s.deliveries, d.replied = d.msg.flag) :
    s.deliveries.filter Delivery.requests = s.deliveries.filter Delivery.replied := by
  apply List.filter_congr
  intro d hd
  rw [hr d hd, Delivery.requests]
  cases hflag : d.msg.flag with
  | false => rfl
  | true => exact (h.delivery d hd).msg.isXcast hflag

theorem repliesRight_of_clear (h : Lts.Reach (step opts) start s) (hc : ∀ d ∈ s.deliveries, d.Clear) :
    RepliesRight s := by
  have hI := inv_reach h
  have hreplied : ∀ d ∈ s.deliveries, d.replied = d.msg.flag := fun d hd =>
    (hI.delivery d hd).replied_iff.mpr (hc d hd)
  refine ⟨hreplied, ?_, ?_⟩
  · intro d hd hk
    rw [hreplied d hd, Bool.eq_false_iff]
    intro hflag
    have hx := (hI.delivery d hd).msg.isXcast hflag
    rw [hk] at hx
    nomatch hx
  · rw [hI.filter_requests hreplied]
    exact hI.unicasts

/-- **Replies are right exactly if every delivery was clear.** -/
theorem replies_iff (h : Lts.Reach (step opts) start s) : RepliesRight s ↔ ∀ d ∈ s.deliveries, d.Clear := by
  constructor
  · intro hr d hd
    exact ((inv_reach h).delivery d hd).replied_iff.mp (hr.replied d hd)
  · exact repliesRight_of_clear h

/-- With `-l 2` or more for every member, replies are right in every reachable state. -/
theorem repliesRight_of_two_le (hlen : ∀ i, 2 ≤ (opts i).len) (h : Lts.Reach (step opts) start s) :
    RepliesRight s := by
  apply repliesRight_of_clear h
  intro d hd
  exact Or.inl (((inv_reach h).delivery d hd).msg.long (hlen d.msg.src))

/-! ## What a short message finds -/

/-- What a call of member `i` leaves in the second octet of its buffer, set or not: a receipt clears it, as the flag that
    was not answered or that of the reply, and the member's own Xcast leaves the member's `-r` there. -/
def Label.leaves (opts : ℕ → Opts) (i : ℕ) : Label → Option Bool
  | .recv j _ _ => if j = i then some false else none
  | .xcast j _ _ _ => if j = i then some (opts i).ucastReply else none
  | .event _ _ | .die _ => none

/-- What the calls so far have left there; at first it is set, as `memset` has it. -/
def leftBy (opts : ℕ → Opts) (i : ℕ) (ls : List Label) : Bool := ls.foldl (fun b l => (l.leaves opts i).getD b) true

theorem leftBy_concat (i : ℕ) (ls : List Label) (l : Label) :
    leftBy opts i (ls ++ [l]) = (l.leaves opts i).getD (leftBy opts i ls) := by
  rw [leftBy, List.foldl_append]
  rfl

/-- A step of member `i`: `b` is in the second octet of its buffer if it lives on, and the others keep theirs. -/
structure Leaves (i : ℕ) (b : Bool) (s s' : State) : Prop where
  self : (s'.member i).alive = true → hdrReply (s'.member i).buf = b
  other : ∀ j, j ≠ i → (s'.member j).alive = (s.member j).alive ∧ (s'.member j).buf = (s.member j).buf

theorem Leaves.setMember {i : ℕ} {b : Bool} {m : Member} (s : State) (h : m.alive = true → hdrReply m.buf = b) :
    Leaves i b s (s.setMember i m) := by
  refine ⟨?_, ?_⟩
  · show (Function.update s.member i m i).alive = true → hdrReply (Function.update s.member i m i).buf = b
    rwa [Function.update_self]
  · intro j hj
    show (Function.update s.member i m j).alive = _ ∧ (Function.update s.member i m j).buf = _
    rw [Function.update_of_ne hj]
    exact ⟨rfl, rfl⟩

/-- A member that dies leaves nothing. -/
theorem Leaves.dead {i : ℕ} (b : Bool) {m : Member} (s : State) (h : m.alive = false) :
    Leaves i b s (s.setMember i m) :=
  .setMember s fun ha => absurd (h.symm.trans ha) Bool.false_ne_true

/-- Only the members matter. -/
theorem Leaves.congr {i : ℕ} {b : Bool} {t t' : State} (h : Leaves i b t t') (hs : t.member = s.member)
    (hs' : t'.member = s'.member) : Leaves i b s s' := by
  refine ⟨?_, ?_⟩
  · rw [← hs']
    exact h.self
  · rw [← hs, ← hs']
    exact h.other

/-- A message on its way is in no buffer yet. -/
theorem Leaves.post {i : ℕ} {b : Bool} (h : Leaves i b s s') (rcvrs : List ℕ) (msg : Msg) :
    Leaves i b s (s'.post rcvrs msg) := by
  have hmember : ∀ j, ((s'.post rcvrs msg).member j).alive = (s'.member j).alive ∧
      ((s'.post rcvrs msg).member j).buf = (s'.member j).buf := by
    intro j
    unfold State.post
    dsimp only
    split <;> exact ⟨rfl, rfl⟩
  refine ⟨?_, ?_⟩
  · rw [(hmember i).1, (hmember i).2]
    exact h.self
  · intro j hj
    rw [(hmember j).1, (hmember j).2]
    exact h.other j hj

theorem Member.sent_buf (m : Member) (type : Mtyp) (payload : Octets) : (m.sent type payload).buf = m.buf := by
  unfold Member.sent
  split <;> rfl

/-- The octet is clear behind every receipt: either it was, or the reply has been sent from the same buffer. -/
theorem leaves_transceive (i k : ℕ) (msg : Msg) (ok : Bool) (hb : 2 ≤ (s.member i).buf.length) :
    Leaves i false s (s.transceive opts i k msg ok) := by
  have hreply : hdrReply (setHdr (overlay bufLen (s.member i).buf msg.payload) .ucast false) = false :=
    hdrReply_setHdr (two_le_length_overlay msg.payload hb) .ucast false
  unfold State.transceive
  split
  · exact .dead false s rfl
  · dsimp only
    split
    · split
      · refine Leaves.congr (Leaves.post (.setMember (State.deliver s _) fun _ => ?_) _ _) rfl rfl
        rw [Member.sent_buf, hreply]
      · exact (Leaves.dead false (State.deliver s _) rfl).congr rfl rfl
    next hnone =>
      refine Leaves.congr (.setMember (State.deliver s _) fun _ => ?_) rfl rfl
      exact Bool.eq_false_iff.mpr hnone

theorem leaves_xcast (i : ℕ) (rcvrs : List ℕ) (ok : Bool) (hb : 2 ≤ (s.member i).buf.length) :
    Leaves i (opts i).ucastReply s (s.xcast opts i rcvrs ok) := by
  have hown := hdrReply_setHdr hb (opts i).mtyp (opts i).ucastReply
  unfold State.xcast
  dsimp only
  split
  · split
    · exact (Leaves.setMember s fun _ => by rw [Member.sent_buf]; exact hown).post _ _
    · exact .dead _ s rfl
  · exact .setMember s fun _ => hown

theorem deliveries_transceive (i k : ℕ) (msg : Msg) (ok : Bool) :
    ∀ d ∈ (s.transceive opts i k msg ok).deliveries, d ∈ s.deliveries ∨ d.stale = hdrReply (s.member i).buf := by
  have hconcat (r : Bool) : ∀ d ∈ s.deliveries ++ [⟨msg, hdrReply (s.member i).buf, r⟩],
      d ∈ s.deliveries ∨ d.stale = hdrReply (s.member i).buf := by
    intro d hd
    exact (List.mem_append.mp hd).imp id fun hlast => by rw [List.mem_singleton.mp hlast]
  unfold State.transceive
  split
  · exact fun d hd => .inl hd
  · dsimp only
    split
    · split <;> exact hconcat true
    · exact hconcat false

theorem deliveries_xcast (i : ℕ) (rcvrs : List ℕ) (ok : Bool) :
    (s.xcast opts i rcvrs ok).deliveries = s.deliveries := by
  unfold State.xcast
  dsimp only
  split
  · split <;> rfl
  · rfl

/-- The buffers, and what the deliveries have recorded of them, are as the calls so far have left them. -/
structure Traced (opts : ℕ → Opts) (s : State) (ls : List Label) : Prop where
  octet : ∀ i, (s.member i).alive = true → hdrReply (s.member i).buf = leftBy opts i ls
  stale : ∀ d ∈ s.deliveries, ∃ before i k ok rest, ls = before ++ .recv i k ok :: rest ∧ d.stale = leftBy opts i before

theorem traced_start : Traced opts start [] := by
  refine ⟨fun i _ => ?_, nofun⟩
  show hdrReply (List.replicate bufLen 0xff) = true
  decide +kernel

theorem Traced.leaves {ls : List Label} {l : Label} {i : ℕ} {b : Bool} (h : Traced opts s ls) (hl : Leaves i b s s')
    (hself : (s'.member i).alive = true → b = (l.leaves opts i).getD (leftBy opts i ls))
    (hother : ∀ j, j ≠ i → l.leaves opts j = none)
    (hd : ∀ d ∈ s'.deliveries, d ∈ s.deliveries ∨
      ∃ before i k ok rest, ls ++ [l] = before ++ .recv i k ok :: rest ∧ d.stale = leftBy opts i before) :
    Traced opts s' (ls ++ [l]) := by
  refine ⟨?_, ?_⟩
  · intro j ha
    rw [leftBy_concat]
    rcases eq_or_ne j i with rfl | hj
    · rw [hl.self ha, hself ha]
    · rw [(hl.other j hj).1] at ha
      rw [(hl.other j hj).2, hother j hj, h.octet j ha]
      rfl
  · intro d hmem
    rcases hd d hmem with hold | hnew
    · obtain ⟨before, i, k, ok, rest, rfl, hstale⟩ := h.stale d hold
      exact ⟨before, i, k, ok, rest ++ [l], by simp, hstale⟩
    · exact hnew

theorem Traced.step {ls : List Label} {l : Label} (h : Traced opts s ls) (hI : Inv opts s)
    (hs : step opts s l = some s') : Traced opts s' (ls ++ [l]) := by
  cases l with
  | event i up =>
    obtain ⟨-, hs⟩ := Option.ite_none_right_eq_some.mp hs
    obtain rfl := Option.some.inj hs
    have hb : (s.member i).alive = true → hdrReply (s.member i).buf = leftBy opts i ls := h.octet i
    exact h.leaves (.setMember s hb) (fun _ => rfl) (fun _ _ => rfl) fun _ hd => .inl hd
  | recv i k ok =>
    obtain ⟨ha, hs⟩ := Option.ite_none_right_eq_some.mp hs
    obtain ⟨msg, -, rfl⟩ := Option.map_eq_some_iff.mp hs
    refine h.leaves (leaves_transceive i k msg ok (hI.member i).buf) ?_ (fun j hj => if_neg hj.symm) ?_
    · intro _
      rw [Label.leaves, if_pos rfl]
      rfl
    · intro d hd
      refine (deliveries_transceive i k msg ok d hd).imp id fun hstale => ?_
      exact ⟨ls, i, k, ok, [], rfl, hstale.trans (h.octet i ha)⟩
  | xcast i err rcvrs ok =>
    obtain ⟨-, hs⟩ := Option.ite_none_right_eq_some.mp hs
    obtain rfl := Option.some.inj hs
    refine h.leaves (leaves_xcast i rcvrs ok (hI.member i).buf) ?_ (fun j hj => if_neg hj.symm) ?_
    · intro _
      rw [Label.leaves, if_pos rfl]
      rfl
    · intro d hd
      rw [deliveries_xcast] at hd
      exact .inl hd
  | die i =>
    obtain rfl := Option.some.inj hs
    exact h.leaves (.dead (leftBy opts i ls) s rfl) (fun _ => rfl) (fun _ _ => rfl) fun _ hd => .inl hd

/-- **What a short message finds.** Every delivery is of some receipt of the run, and before it the second octet of the
    buffer is as the receiver's last receipt or Xcast has left it. So a message of one octet is answered if and only if
    the receiver's last call was its own Xcast with `-r`, or there was none. -/
theorem short_replied_iff {ls : List Label} (h : Lts.exec (step opts) start ls = some s) :
    ∀ d ∈ s.deliveries, ∃ before i k ok rest, ls = before ++ .recv i k ok :: rest ∧ d.stale = leftBy opts i before ∧
      (d.msg.payload.length < 2 → (d.replied = true ↔ leftBy opts i before = true)) := by
  have hboth : Inv opts s ∧ Traced opts s (ls.foldl (fun before l => before ++ [l]) []) :=
    Lts.exec_record (I := fun s ls => Inv opts s ∧ Traced opts s ls)
      (fun _ _ _ _ h hs => ⟨h.1.step hs, h.2.step h.1 hs⟩) ⟨inv_start, traced_start⟩ h
  rw [List.foldl_append_eq_append, List.nil_append, ← List.flatMap_def, List.flatMap_singleton'] at hboth
  obtain ⟨hI, htraced⟩ := hboth
  intro d hd
  obtain ⟨before, i, k, ok, rest, hls, hstale⟩ := htraced.stale d hd
  refine ⟨before, i, k, ok, rest, hls, hstale, ?_⟩
  intro hshort
  rw [(hI.delivery d hd).replied, if_neg (Nat.not_le_of_lt hshort), hstale]

/-! ## Two members -/

/-- Member 0 broadcasts with `-r`; both send messages of `len` octets. -/
def twoMembers (len : ℤ) : ℕ → Opts
  | 0 => ⟨.bcast, true, len⟩
  | _ => ⟨.none, false, len⟩

/-- Member 0 discovers both of them and broadcasts; the other one answers. -/
def broadcastRun : List Label :=
  [.event 0 true, .event 0 true, .xcast 0 false [1] true, .recv 1 0 true, .recv 0 0 true]

theorem broadcastRun_one : (Lts.exec (step (twoMembers 1)) start broadcastRun).isSome = true := by
  decide +kernel

theorem broadcastRun_two : (Lts.exec (step (twoMembers 2)) start broadcastRun).isSome = true := by
  decide +kernel

def answeredReply : State := Lts.final (step (twoMembers 1)) start broadcastRun broadcastRun_one

def answeredBroadcast : State := Lts.final (step (twoMembers 2)) start broadcastRun broadcastRun_two

theorem replies_iff_twoOctets : answeredBroadcast.unicasts = 1 ∧ RepliesRight answeredBroadcast := by
  have hreach : Lts.Reach (step (twoMembers 2)) start answeredBroadcast := Lts.reach_final broadcastRun_two
  have hlen : ∀ d ∈ answeredBroadcast.deliveries, 2 ≤ d.msg.payload.length := by decide +kernel
  constructor
  · decide +kernel
  · apply (replies_iff hreach).mpr
    intro d hd
    exact Or.inl (hlen d hd)

/-- A reply of one octet leaves the flag that member 0 has set for its own broadcast, and is answered. -/
theorem replies_unsound :
    ¬ ∀ (opts : ℕ → Opts) (s : State), (∀ i, 1 ≤ (opts i).len) → Lts.Reach (step opts) start s → RepliesRight s := by
  intro h
  have hlen : ∀ i, 1 ≤ (twoMembers 1 i).len := by
    intro i
    cases i with
    | zero => decide
    | succ i => exact Int.le_refl 1
  have hr := h (twoMembers 1) answeredReply hlen (Lts.reach_final broadcastRun_one)
  have hreply : ∃ d ∈ answeredReply.deliveries, d.msg.kind = .ucast ∧ d.replied = true := by decide +kernel
  obtain ⟨d, hd, hk, hrep⟩ := hreply
  rw [hr.ucast d hd hk] at hrep
  nomatch hrep

end GroupCast
end Tipcutils
