import Mathlib.Data.Nat.Cast.Order.Ring
import Tipcutils.GroupCast.Replies
import Tipcutils.Lib.Decimal

/-!
# `GroupCast.Stats` — the throughput that a group member prints

A member counts what it sends in four counters of 32 bits, and after every 2000th message of the kind that it sends, it
prints how many there were and what that makes per second.

**`group_stats_iff`**: over any run, the member prints after just these messages, and the number of messages per second
is right if and only if a thousand times the messages sent fit into 32 bits.
-/

namespace Tipcutils
namespace GroupCast

open Decimal

/-! ## What is printed -/

/-- `INTV_SZ`. -/
def intvSz : UInt32 := 2000

/-- A `struct timeval`. -/
structure Timeval where
  sec : ℤ
  usec : ℤ

/-- A time in microseconds. -/
def Timeval.us (t : Timeval) : ℤ := t.sec * 1000000 + t.usec

/-- `elapsedmsec`. -/
def elapsedmsec (before now : Timeval) : UInt64 := .ofInt ((now.us - before.us).tdiv 1000)

/-- Whether the main loop goes on to the statistics. -/
def Counters.prints (c : Counters) : Bool :=
  !((c.sntBc = 0 || c.sntBc % intvSz ≠ 0) && (c.sntMc = 0 || c.sntMc % intvSz ≠ 0) &&
    (c.sntAc = 0 || c.sntAc % intvSz ≠ 0))

/-- `snt`. -/
def Counters.sntTotal (c : Counters) : UInt32 := c.sntBc + c.sntMc + c.sntAc + c.sntUc

/-- `msg_per_sec_tot`: the product is one of 32 bits. -/
def Counters.msgPerSecTot (c : Counters) (elapsedMsTot : UInt64) : UInt64 := (c.sntTotal * 1000).toUInt64 / elapsedMsTot

/-- `msg_per_sec_intv`: the product is one of `int`s. -/
def msgPerSecIntv (elapsedMsIntv : UInt64) : UInt64 := (intvSz * 1000).toUInt64 / elapsedMsIntv

/-- A throughput, in an `unsigned int`. -/
def thruput (msgPerSec : UInt64) : UInt32 := (msgPerSec * .ofNat bufLen * 8 / 1000000).toUInt32

/-- The line that is printed. -/
def Counters.line (c : Counters) (startTime startIntv now : Timeval) : Text :=
  "Sent ".toList ++ fmtU c.sntBc.toNat ++ " broadcast, ".toList ++ fmtU c.sntMc.toNat ++ " multicast, ".toList ++
    fmtU c.sntAc.toNat ++ " anycast, throughput ".toList ++
    fmtU (thruput (c.msgPerSecTot (elapsedmsec startTime now))).toNat ++ " MB/s, last intv ".toList ++
    fmtU (thruput (msgPerSecIntv (elapsedmsec startIntv now))).toNat ++ " MB/s\n".toList

/-! ## What a member sends -/

variable (opts : ℕ → Opts)

/-- The kind of the message that a member sends in a step, if it sends one and is still alive then. -/
def sends (i : ℕ) : State × Label × State → Option Mtyp
  | (_, .xcast j _ _ _, s') =>
    if j = i ∧ (s'.member i).alive ∧ (opts i).mtyp.isXcast then some (opts i).mtyp else none
  | (s, .recv j k _, s') =>
    if j = i ∧ (s'.member i).alive then
      ((s.member i).inbox[k]?).bind fun msg =>
        if hdrReply (overlay bufLen (s.member i).buf msg.payload) then some .ucast else none
    else none
  | _ => none

/-- The kinds of the messages that a member sends in a run, in order. -/
def sentBy (i : ℕ) (tr : List (State × Label × State)) : List Mtyp := tr.filterMap (sends opts i)

/-- A step that ends `group_transceive`, after which the member goes on to the statistics. -/
def printsAt (i : ℕ) : State × Label × State → Bool
  | (_, .xcast j _ _ _, s') => j = i ∧ (s'.member i).alive ∧ (s'.member i).counters.prints
  | _ => false

/-- The counters with which a member prints statistics in a run, in order. -/
def printed (i : ℕ) (tr : List (State × Label × State)) : List Counters :=
  (tr.filter (printsAt i)).map fun t => (t.2.2.member i).counters

/-- The send counter for a kind of messages. -/
def Counters.snt (c : Counters) : Mtyp → UInt32
  | .bcast => c.sntBc
  | .mcast => c.sntMc
  | .acast => c.sntAc
  | .ucast => c.sntUc
  | .none => 0

/-! ## The counters -/

theorem Counters.snt_received (c : Counters) (type : UInt8) (t : Mtyp) : (c.received type).snt t = c.snt t := by
  unfold Counters.received
  cases t <;> split_ifs <;> rfl

theorem Counters.snt_sent (c : Counters) {kind : Mtyp} (h : kind ≠ .none) (t : Mtyp) :
    (c.sent kind).snt t = c.snt t + if kind = t then 1 else 0 := by
  cases kind <;> cases t <;> simp [Counters.sent, Counters.snt] at h ⊢

variable {opts} {s s' : State} {i : ℕ} {l : Label}

@[simp] theorem member_setMember_self (m : Member) : (s.setMember i m).member i = m := by
  show Function.update s.member i m i = m
  rw [Function.update_self]

theorem member_setMember_of_ne {j : ℕ} (h : i ≠ j) (m : Member) : (s.setMember j m).member i = s.member i := by
  show Function.update s.member j m i = s.member i
  rw [Function.update_of_ne h]

/-- A message on its way changes no more than inboxes. -/
theorem post_member (rcvrs : List ℕ) (msg : Msg) :
    ((s.post rcvrs msg).member i).alive = (s.member i).alive ∧
      ((s.post rcvrs msg).member i).counters = (s.member i).counters := by
  show (ite _ _ _ : Member).alive = _ ∧ (ite _ _ _ : Member).counters = _
  split
  · exact ⟨rfl, rfl⟩
  · exact ⟨rfl, rfl⟩

/-- A member counts what it sends, if it does not die of it. -/
theorem sent_snt {m : Member} {type : Mtyp} (hm : m.alive = true) (htype : type ≠ .none) (payload : Octets) (t : Mtyp) :
    (m.sent type payload).counters.snt t =
      m.counters.snt t + if (m.sent type payload).alive = true ∧ type = t then 1 else 0 := by
  unfold Member.sent
  split
  · rw [if_neg fun hc => Bool.false_ne_true hc.1]
    exact (UInt32.add_zero _).symm
  · rw [Counters.snt_sent _ htype]
    simp only [hm, true_and]

/-- The end of `group_transceive`. -/
theorem xcast_snt (h : (s.member i).alive = true) (rcvrs : List ℕ) (ok : Bool) (t : Mtyp) :
    ((s.xcast opts i rcvrs ok).member i).counters.snt t = (s.member i).counters.snt t +
      if ((s.xcast opts i rcvrs ok).member i).alive = true ∧ (opts i).mtyp.isXcast = true ∧ (opts i).mtyp = t
      then 1 else 0 := by
  unfold State.xcast
  dsimp only
  split
  next hx =>
    have hkind : (opts i).mtyp ≠ .none := by
      intro h0
      rw [h0] at hx
      nomatch hx
    simp only [hx, true_and]
    split
    · rw [(post_member _ _).1, (post_member _ _).2, member_setMember_self]
      refine sent_snt ?_ hkind _ t
      exact h
    · rw [member_setMember_self, if_neg fun hc => Bool.false_ne_true hc.1]
      exact (UInt32.add_zero _).symm
  next hx =>
    rw [member_setMember_self, if_neg fun hc => hx hc.2.1]
    exact (UInt32.add_zero _).symm

/-- The receipt of a message. -/
theorem transceive_snt (h : (s.member i).alive = true) (k : ℕ) (msg : Msg) (ok : Bool) (t : Mtyp) :
    ((s.transceive opts i k msg ok).member i).counters.snt t = (s.member i).counters.snt t +
      if ((s.transceive opts i k msg ok).member i).alive = true ∧
        hdrReply (overlay bufLen (s.member i).buf msg.payload) = true ∧ .ucast = t then 1 else 0 := by
  have hucast : Mtyp.ucast ≠ .none := by decide
  unfold State.transceive
  dsimp only
  split
  · rw [member_setMember_self, if_neg fun hc => Bool.false_ne_true hc.1]
    exact (UInt32.add_zero _).symm
  · split
    next hreply =>
      simp only [hreply, true_and]
      split
      · dsimp only
        rw [(post_member _ _).1, (post_member _ _).2, member_setMember_self]
        refine (sent_snt ?_ hucast _ t).trans ?_
        · exact h
        · rw [Counters.snt_received]
      · rw [member_setMember_self, if_neg fun hc => Bool.false_ne_true hc.1, Counters.snt_received]
        exact (UInt32.add_zero _).symm
    next hreply =>
      rw [member_setMember_self, if_neg fun hc => hreply hc.2.1, Counters.snt_received]
      exact (UInt32.add_zero _).symm

/-! ## One step -/

/-- Who makes a step. -/
def Label.mover : Label → ℕ
  | .event i _ => i
  | .recv i _ _ => i
  | .xcast i _ _ _ => i
  | .die i => i

/-- The receipt of a message leaves the counters of the other members as they are. -/
theorem transceive_other {j : ℕ} (hi : i ≠ j) (k : ℕ) (msg : Msg) (ok : Bool) :
    ((s.transceive opts j k msg ok).member i).counters = (s.member i).counters := by
  unfold State.transceive
  dsimp only
  split
  · rw [member_setMember_of_ne hi]
  · split
    · split
      · dsimp only
        rw [(post_member _ _).2, member_setMember_of_ne hi]
        rfl
      · rw [member_setMember_of_ne hi]
        rfl
    · rw [member_setMember_of_ne hi]
      rfl

theorem xcast_other {j : ℕ} (hi : i ≠ j) (rcvrs : List ℕ) (ok : Bool) :
    ((s.xcast opts j rcvrs ok).member i).counters = (s.member i).counters := by
  unfold State.xcast
  dsimp only
  split
  · split
    · rw [(post_member _ _).2, member_setMember_of_ne hi]
    · rw [member_setMember_of_ne hi]
  · rw [member_setMember_of_ne hi]

theorem step_other (h : step opts s l = some s') (hi : i ≠ l.mover) :
    (s'.member i).counters = (s.member i).counters := by
  cases l with
  | event j up =>
    obtain ⟨-, h⟩ := Option.ite_none_right_eq_some.mp h
    obtain rfl := Option.some.inj h
    rw [State.discover, member_setMember_of_ne (j := j) hi]
  | recv j k ok =>
    obtain ⟨-, h⟩ := Option.ite_none_right_eq_some.mp h
    obtain ⟨msg, -, rfl⟩ := Option.map_eq_some_iff.mp h
    exact transceive_other hi k msg ok
  | xcast j err rcvrs ok =>
    obtain ⟨-, h⟩ := Option.ite_none_right_eq_some.mp h
    obtain rfl := Option.some.inj h
    exact xcast_other hi rcvrs ok
  | die j =>
    obtain rfl := Option.some.inj h
    rw [member_setMember_of_ne (j := j) hi]

theorem sends_other (hi : i ≠ l.mover) : sends opts i (s, l, s') = none := by
  cases l with
  | event j up => rfl
  | recv j k ok => exact if_neg fun h => hi h.1.symm
  | xcast j err rcvrs ok => exact if_neg fun h => hi h.1.symm
  | die j => rfl

/-- **What one step does to the counters:** it counts the message that the member sends. -/
theorem step_snt (h : step opts s l = some s') (i : ℕ) (t : Mtyp) :
    (s'.member i).counters.snt t = (s.member i).counters.snt t + if sends opts i (s, l, s') = some t then 1 else 0 := by
  by_cases hi : i = l.mover
  · cases l with
    | event j up =>
      obtain rfl : i = j := hi
      obtain ⟨-, h⟩ := Option.ite_none_right_eq_some.mp h
      obtain rfl := Option.some.inj h
      have hnone : sends opts i (s, .event i up, s.discover i up) = none := rfl
      rw [hnone, if_neg nofun, State.discover, member_setMember_self]
      exact (UInt32.add_zero _).symm
    | recv j k ok =>
      obtain rfl : i = j := hi
      obtain ⟨halive, h⟩ := Option.ite_none_right_eq_some.mp h
      obtain ⟨msg, hmsg, rfl⟩ := Option.map_eq_some_iff.mp h
      rw [transceive_snt halive]
      congr 1
      simp only [sends, hmsg, Option.bind_some, true_and, Option.ite_none_right_eq_some, Option.some.injEq]
    | xcast j err rcvrs ok =>
      obtain rfl : i = j := hi
      obtain ⟨halive, h⟩ := Option.ite_none_right_eq_some.mp h
      obtain rfl := Option.some.inj h
      rw [xcast_snt halive.1]
      congr 1
      simp only [sends, true_and, Option.ite_none_right_eq_some, Option.some.injEq, and_assoc]
    | die j =>
      obtain rfl : i = j := hi
      obtain rfl := Option.some.inj h
      have hnone : sends opts i (s, .die i, s.setMember i { s.member i with alive := false }) = none := rfl
      rw [hnone, if_neg nofun, member_setMember_self]
      exact (UInt32.add_zero _).symm
  · rw [step_other h hi, sends_other hi, if_neg nofun]
    exact (UInt32.add_zero _).symm

/-! ## Over a run -/

section
variable {tr : List (State × Label × State)} {a : State × Label × State} {t : Mtyp}

theorem sentBy_snoc (tr : List (State × Label × State)) (a : State × Label × State) :
    sentBy opts i (tr ++ [a]) = sentBy opts i tr ++ (sends opts i a).toList := by
  have hlast : [a].filterMap (sends opts i) = (sends opts i a).toList := by
    cases h : sends opts i a with
    | none =>
      rw [List.filterMap_cons_none h]
      rfl
    | some t =>
      rw [List.filterMap_cons_some h]
      rfl
  rw [sentBy, List.filterMap_append, hlast]
  rfl

/-- A counter is the number of its messages, in 32 bits. -/
theorem snt_eq (h : Lts.Run (step opts) start tr s) (i : ℕ) (t : Mtyp) :
    (s.member i).counters.snt t = .ofNat ((sentBy opts i tr).count t) := by
  induction h with
  | nil => cases t <;> rfl
  | @snoc tr s s' l hrun hs ih =>
    rw [step_snt hs, ih, sentBy_snoc, List.count_append, UInt32.ofNat_add]
    congr 1
    cases sends opts i (s, l, s') with
    | none => rfl
    | some kind =>
      rw [Option.toList_some, List.count_singleton]
      by_cases hk : kind = t
      · simp [hk]
      · simp [hk]

/-- A message of a member is one of its own kind, and ends `group_transceive`, or is a unicast. -/
theorem sends_eq_some (h : sends opts i a = some t) :
    t = .ucast ∨ t = (opts i).mtyp ∧ t.isXcast = true ∧ ∃ s err rcvrs ok s', a = (s, .xcast i err rcvrs ok, s') ∧
      (s'.member i).alive = true := by
  obtain ⟨s, l, s'⟩ := a
  cases l with
  | event j up => nomatch h
  | recv j k ok =>
    obtain ⟨-, h⟩ := Option.ite_none_right_eq_some.mp h
    obtain ⟨msg, -, h⟩ := Option.bind_eq_some_iff.mp h
    obtain ⟨-, h⟩ := Option.ite_none_right_eq_some.mp h
    exact .inl (Option.some.inj h).symm
  | xcast j err rcvrs ok =>
    obtain ⟨⟨rfl, halive, hx⟩, h⟩ := Option.ite_none_right_eq_some.mp h
    obtain rfl := Option.some.inj h
    exact .inr ⟨rfl, hx, s, err, rcvrs, ok, s', rfl, halive⟩
  | die j => nomatch h

/-- The messages of a member of a kind other than its own are unicasts. -/
theorem eq_mtyp_of_mem (h : t ∈ sentBy opts i tr) (hx : t.isXcast = true) : t = (opts i).mtyp := by
  obtain ⟨a, -, ha⟩ := List.mem_filterMap.mp h
  rcases sends_eq_some ha with rfl | ⟨hmode, -⟩
  · nomatch hx
  · exact hmode

/-- The number of Xcasts of a member. -/
def xcasts (opts : ℕ → Opts) (i : ℕ) (tr : List (State × Label × State)) : ℕ := (sentBy opts i tr).countP Mtyp.isXcast

theorem xcasts_eq_count (hx : (opts i).mtyp.isXcast = true) : xcasts opts i tr = (sentBy opts i tr).count (opts i).mtyp := by
  rw [xcasts, List.count]
  apply List.countP_congr
  intro t ht
  rw [beq_iff_eq]
  constructor
  · exact eq_mtyp_of_mem ht
  · rintro rfl
    exact hx

/-- Statistics are printed for a counter that is a multiple of the interval. -/
theorem prints_iff (c : Counters) :
    c.prints = true ↔ ∃ t : Mtyp, t.isXcast = true ∧ c.snt t ≠ 0 ∧ c.snt t % intvSz = 0 := by
  constructor
  · intro h
    simp only [Counters.prints, Bool.not_and, Bool.or_eq_true, Bool.not_or, Bool.and_eq_true, Bool.not_eq_true',
      decide_eq_false_iff_not, ne_eq, decide_not, Bool.not_not, decide_eq_true_eq] at h
    rcases h with (h | h) | h
    · exact ⟨.bcast, rfl, h⟩
    · exact ⟨.mcast, rfl, h⟩
    · exact ⟨.acast, rfl, h⟩
  · rintro ⟨t, ht, h0, hmod⟩
    cases t <;> simp_all [Counters.prints, Counters.snt, Mtyp.isXcast]

theorem xcasts_snoc (tr : List (State × Label × State)) (a : State × Label × State) :
    xcasts opts i (tr ++ [a]) = xcasts opts i tr + (sends opts i a).toList.countP Mtyp.isXcast := by
  rw [xcasts, sentBy_snoc, List.countP_append]
  rfl

/-- The counters of a member are such that it prints if and only if the number of its Xcasts is a multiple of the interval. -/
theorem prints_iff_multiple (h : Lts.Run (step opts) start tr s) (hsmall : xcasts opts i tr < 2 ^ 32) :
    (s.member i).counters.prints = true ↔
      (opts i).mtyp.isXcast = true ∧ 0 < xcasts opts i tr ∧ xcasts opts i tr % 2000 = 0 := by
  have hzero : UInt32.ofNat (xcasts opts i tr) = 0 ↔ xcasts opts i tr = 0 := by
    rw [← UInt32.toNat_inj, UInt32.toNat_ofNat_of_lt' hsmall]
    rfl
  have hmod : UInt32.ofNat (xcasts opts i tr) % intvSz = 0 ↔ xcasts opts i tr % 2000 = 0 := by
    rw [← UInt32.toNat_inj, UInt32.toNat_mod, UInt32.toNat_ofNat_of_lt' hsmall]
    rfl
  rw [prints_iff]
  constructor
  · rintro ⟨t, ht, h0, hmult⟩
    rw [snt_eq h] at h0 hmult
    have hmem : t ∈ sentBy opts i tr := by
      by_contra hnot
      rw [List.count_eq_zero_of_not_mem hnot] at h0
      exact h0 rfl
    obtain rfl := eq_mtyp_of_mem hmem ht
    rw [← xcasts_eq_count ht] at h0 hmult
    exact ⟨ht, Nat.pos_of_ne_zero (mt hzero.mpr h0), hmod.mp hmult⟩
  · rintro ⟨hx, hpos, hmult⟩
    refine ⟨(opts i).mtyp, hx, ?_⟩
    rw [snt_eq h, ← xcasts_eq_count hx]
    exact ⟨mt hzero.mp hpos.ne', hmod.mpr hmult⟩

/-- A step prints statistics if and only if it sends the member's kind of messages, up to a multiple of the interval. -/
theorem printsAt_iff (h : Lts.Run (step opts) start (tr ++ [a]) s) (hs : a.2.2 = s)
    (hsmall : xcasts opts i (tr ++ [a]) < 2 ^ 32) :
    printsAt i a = true ↔ (sends opts i a).toList.countP Mtyp.isXcast = 1 ∧ xcasts opts i (tr ++ [a]) % 2000 = 0 := by
  constructor
  · intro hprints
    obtain ⟨s₀, l, s'⟩ := a
    obtain rfl : s' = s := hs
    cases l with
    | event j up => nomatch hprints
    | recv j k ok => nomatch hprints
    | xcast j err rcvrs ok =>
      obtain ⟨rfl, halive, hprints⟩ := of_decide_eq_true hprints
      obtain ⟨hx, -, hmult⟩ := (prints_iff_multiple h hsmall).mp hprints
      have hsends : sends opts j (s₀, .xcast j err rcvrs ok, s') = some (opts j).mtyp := if_pos ⟨rfl, halive, hx⟩
      refine ⟨?_, hmult⟩
      rw [hsends, Option.toList_some, List.countP_singleton, if_pos hx]
    | die j => nomatch hprints
  · rintro ⟨hone, hmult⟩
    have hpos : 0 < xcasts opts i (tr ++ [a]) := by
      rw [xcasts_snoc]
      omega
    cases hsends : sends opts i a with
    | none =>
      rw [hsends] at hone
      nomatch hone
    | some t =>
      rcases sends_eq_some hsends with rfl | ⟨rfl, hx, s₀, err, rcvrs, ok, s', rfl, halive⟩
      · rw [hsends] at hone
        nomatch hone
      · obtain rfl : s' = s := hs
        exact decide_eq_true ⟨rfl, halive, (prints_iff_multiple h hsmall).mpr ⟨hx, hpos, hmult⟩⟩

theorem printed_snoc (tr : List (State × Label × State)) (a : State × Label × State) :
    printed i (tr ++ [a]) = printed i tr ++ if printsAt i a = true then [(a.2.2.member i).counters] else [] := by
  rw [printed, List.filter_append, List.map_append, List.filter_singleton]
  cases printsAt i a <;> rfl

/-- **The member prints after every 2000th message of its kind, and only then.** -/
theorem printed_eq (h : Lts.Run (step opts) start tr s) (hsmall : xcasts opts i tr < 2 ^ 32) :
    (printed i tr).map (fun c => (c.snt (opts i).mtyp).toNat) =
      (List.range (xcasts opts i tr / 2000)).map fun k => 2000 * (k + 1) := by
  induction h with
  | nil =>
    have h0 : xcasts opts i [] = 0 := rfl
    rw [h0]
    rfl
  | @snoc tr s s' l hrun hs ih =>
    have hadd := @xcasts_snoc opts i tr (s, l, s')
    have hiff := printsAt_iff (hrun.snoc hs) rfl hsmall
    have hcount : (sends opts i (s, l, s')).toList.countP Mtyp.isXcast ≤ 1 :=
      List.countP_le_length.trans (by cases sends opts i (s, l, s') <;> simp)
    rw [printed_snoc, List.map_append, ih (by omega)]
    by_cases hprints : printsAt i (s, l, s') = true
    · obtain ⟨hone, hmult⟩ := hiff.mp hprints
      have hdiv : xcasts opts i (tr ++ [(s, l, s')]) / 2000 = xcasts opts i tr / 2000 + 1 := by omega
      have hx : (opts i).mtyp.isXcast = true := by
        cases hsends : sends opts i (s, l, s') with
        | none =>
          rw [hsends] at hone
          nomatch hone
        | some t =>
          rcases sends_eq_some hsends with rfl | ⟨rfl, hx, -⟩
          · rw [hsends] at hone
            nomatch hone
          · exact hx
      rw [if_pos hprints, hdiv, List.range_succ, List.map_append, List.map_singleton, List.map_singleton,
        snt_eq (hrun.snoc hs), ← xcasts_eq_count hx, UInt32.toNat_ofNat_of_lt' hsmall]
      congr 2
      omega
    · have hdiv : xcasts opts i (tr ++ [(s, l, s')]) / 2000 = xcasts opts i tr / 2000 := by
        by_contra hne
        exact hprints (hiff.mpr ⟨by omega, by omega⟩)
      rw [if_neg hprints, hdiv, List.map_nil, List.append_nil]

/-- The messages of all kinds are all messages. -/
theorem length_eq_counts {ks : List Mtyp} (h : .none ∉ ks) :
    ks.length = ks.count .bcast + ks.count .mcast + ks.count .acast + ks.count .ucast := by
  induction ks with
  | nil => rfl
  | cons k ks ih =>
    have hrest := ih fun hmem => h (List.mem_cons_of_mem k hmem)
    simp only [List.length_cons, List.count_cons]
    cases k with
    | none => exact absurd List.mem_cons_self h
    | bcast => simp; omega
    | mcast => simp; omega
    | acast => simp; omega
    | ucast => simp; omega

/-- `snt` is the number of messages sent, as long as it fits. -/
theorem sntTotal_eq (h : Lts.Run (step opts) start tr s) (hsmall : (sentBy opts i tr).length < 2 ^ 32) :
    (s.member i).counters.sntTotal.toNat = (sentBy opts i tr).length := by
  have hnone : Mtyp.none ∉ sentBy opts i tr := by
    intro hmem
    obtain ⟨a, -, ha⟩ := List.mem_filterMap.mp hmem
    rcases sends_eq_some ha with hucast | ⟨-, hx, -⟩
    · nomatch hucast
    · nomatch hx
  have hsum : (s.member i).counters.sntTotal = .ofNat (sentBy opts i tr).length := by
    rw [length_eq_counts hnone, UInt32.ofNat_add, UInt32.ofNat_add, UInt32.ofNat_add, ← snt_eq h, ← snt_eq h, ← snt_eq h,
      ← snt_eq h]
    rfl
  rw [hsum, UInt32.toNat_ofNat_of_lt' hsmall]

end

/-! ## The throughput -/

/-- The number of messages per second is right, and no product wraps around: neither those of `unsigned int`s and of
    `int`s before the divisions, nor those of `unsigned long`s behind them. -/
structure StatsExact (c : Counters) (total : ℕ) (elapsedMsTot elapsedMsIntv : UInt64) : Prop where
  quotient : (c.msgPerSecTot elapsedMsTot).toNat = 1000 * total / elapsedMsTot.toNat
  scaled : 1000 * total < 2 ^ 32
  scaledIntv : intvSz.toNat * 1000 < 2 ^ 31
  octets : (c.msgPerSecTot elapsedMsTot).toNat * bufLen * 8 < 2 ^ 64
  octetsIntv : (msgPerSecIntv elapsedMsIntv).toNat * bufLen * 8 < 2 ^ 64

/-- The quotients are of 32 bits, which leaves room for the octets. -/
theorem octets_lt {n : UInt32} {d : UInt64} : (n.toUInt64 / d).toNat * bufLen * 8 < 2 ^ 64 := by
  have hle : (n.toUInt64 / d).toNat ≤ n.toNat := by
    rw [UInt64.toNat_div, UInt32.toNat_toUInt64]
    exact Nat.div_le_self _ _
  have hlt := n.toNat_lt
  rw [bufLen]
  omega

theorem stats_exact_iff {c : Counters} {total : ℕ} (htotal : c.sntTotal.toNat = total) (elapsedMsTot elapsedMsIntv : UInt64) :
    StatsExact c total elapsedMsTot elapsedMsIntv ↔ 1000 * total < 2 ^ 32 := by
  constructor
  · exact StatsExact.scaled
  · intro hsmall
    have hproduct : (c.sntTotal * 1000).toNat = 1000 * total := by
      rw [UInt32.toNat_mul, htotal, Nat.mul_comm]
      exact Nat.mod_eq_of_lt hsmall
    refine ⟨?_, hsmall, by decide, octets_lt, octets_lt⟩
    rw [Counters.msgPerSecTot, UInt64.toNat_div, UInt32.toNat_toUInt64, hproduct]

/-- **Statistics in every run** in which a member sends fewer than 2^32 messages: it prints them once for each multiple
    of the interval that the counter of its kind of messages reaches, and the throughput is exact if and only if a
    thousand times the messages sent fit into 32 bits. -/
theorem group_stats_iff (opts : ℕ → Opts) (i : ℕ) {tr : List (State × Label × State)} {s : State}
    (h : Lts.Run (step opts) start tr s) (hsmall : (sentBy opts i tr).length < 2 ^ 32) :
    (printed i tr).map (fun c => (c.snt (opts i).mtyp).toNat) =
      (List.range (xcasts opts i tr / 2000)).map (fun k => 2000 * (k + 1)) ∧
    ∀ startTime startIntv now, 0 < elapsedmsec startTime now → 0 < elapsedmsec startIntv now →
      (StatsExact (s.member i).counters (sentBy opts i tr).length (elapsedmsec startTime now) (elapsedmsec startIntv now) ↔
        1000 * (sentBy opts i tr).length < 2 ^ 32) := by
  have hle : xcasts opts i tr ≤ (sentBy opts i tr).length := List.countP_le_length
  refine ⟨printed_eq h (by omega), fun startTime startIntv now _ _ => ?_⟩
  exact stats_exact_iff (sntTotal_eq h hsmall) _ _

/-! ## A member that broadcasts -/

/-- Every member broadcasts messages of one octet. -/
def broadcasters : ℕ → Opts := fun _ => ⟨.bcast, false, 1⟩

/-- A broadcast of member 0 leaves it as it is, but for its buffer and its counter. -/
theorem broadcast_member (h : 0 < (s.member 0).buf.length) : (s.xcast broadcasters 0 [] true).member 0 =
    { s.member 0 with
      buf := setHdr (s.member 0).buf .bcast false
      counters := (s.member 0).counters.sent .bcast } := by
  have hpayload : payloadOf 1 (setHdr (s.member 0).buf .bcast false) =
      some ((setHdr (s.member 0).buf .bcast false).take 1) := if_pos (by decide)
  have hne : (setHdr (s.member 0).buf .bcast false).take 1 ≠ [] := by
    rw [ne_eq, List.take_eq_nil_iff, setHdr, ← List.length_eq_zero_iff, List.length_set, List.length_set]
    omega
  unfold State.xcast
  simp only [broadcasters, Mtyp.isXcast, if_true, hpayload]
  have hpost (s' : State) (msg : Msg) : (s'.post [] msg).member 0 = s'.member 0 := by
    simp only [State.post, List.not_mem_nil, if_false]
  rw [hpost, member_setMember_self, Member.sent, if_neg hne]

/-- Member 0 has found two members, and broadcasts any number of messages. -/
theorem exists_broadcasts (n : ℕ) : ∃ tr s, Lts.Run (step broadcasters) start tr s ∧
    sentBy broadcasters 0 tr = List.replicate n .bcast ∧ (s.member 0).alive = true ∧ (s.member 0).memberCnt = 2 ∧
      (s.member 0).buf.length = bufLen := by
  induction n with
  | zero =>
    refine ⟨_, _, (Lts.Run.nil.snoc (l := .event 0 true) rfl).snoc (l := .event 0 true) rfl, rfl, rfl, rfl, ?_⟩
    exact List.length_replicate
  | succ n ih =>
    obtain ⟨tr, s, hrun, hsent, halive, hcnt, hlen⟩ := ih
    have hstep : step broadcasters s (.xcast 0 false [] true) = some (s.xcast broadcasters 0 [] true) := by
      have hready : (s.member 0).alive = true ∧
          (false = true ∨ (broadcasters 0).mtyp ≠ .none ∧ 1 < (s.member 0).memberCnt) := by
        rw [halive, hcnt]
        decide
      exact if_pos hready
    have hmember : (s.xcast broadcasters 0 [] true).member 0 = _ := broadcast_member (by rw [hlen]; decide)
    have hsends : sends broadcasters 0 (s, .xcast 0 false [] true, s.xcast broadcasters 0 [] true) = some .bcast :=
      if_pos ⟨rfl, by rw [hmember]; exact halive, rfl⟩
    refine ⟨_, _, hrun.snoc hstep, ?_, ?_, ?_, ?_⟩
    · rw [sentBy_snoc, hsent, hsends, List.replicate_succ']
      rfl
    · rw [hmember]
      exact halive
    · rw [hmember]
      exact hcnt
    · rw [hmember]
      exact (length_setHdr _ _ _).trans hlen

/-- The statistics after 2000 messages in two seconds. -/
theorem group_stats_iff_twoThousand : ∃ s, Lts.Reach (step broadcasters) start s ∧ (s.member 0).counters.prints = true ∧
    ((s.member 0).counters.msgPerSecTot (elapsedmsec ⟨0, 0⟩ ⟨2, 0⟩)).toNat = 1000 := by
  obtain ⟨tr, s, hrun, hsent, -⟩ := exists_broadcasts 2000
  have hlen : (sentBy broadcasters 0 tr).length = 2000 := by rw [hsent, List.length_replicate]
  have hexact := ((group_stats_iff broadcasters 0 hrun (by rw [hlen]; decide)).2 ⟨0, 0⟩ ⟨0, 0⟩ ⟨2, 0⟩ (by decide)
    (by decide)).mpr (by rw [hlen]; decide)
  refine ⟨s, hrun.reach, (prints_iff _).mpr ⟨.bcast, rfl, ?_, ?_⟩, ?_⟩
  · rw [snt_eq hrun, hsent, List.count_replicate_self]
    decide
  · rw [snt_eq hrun, hsent, List.count_replicate_self]
    decide
  · rw [hexact.quotient, hlen]
    decide

/-- **A throughput that is too small:** after 4296000 messages the product of 32 bits has wrapped around. -/
theorem group_stats_wrap : ¬ ∀ (opts : ℕ → Opts) (i : ℕ) (tr : List (State × Label × State)) (s : State),
    Lts.Run (step opts) start tr s → (sentBy opts i tr).length < 2 ^ 32 → (s.member i).counters.prints = true →
    ∀ startTime startIntv now, 0 < elapsedmsec startTime now → 0 < elapsedmsec startIntv now →
      StatsExact (s.member i).counters (sentBy opts i tr).length (elapsedmsec startTime now)
        (elapsedmsec startIntv now) := by
  intro h
  obtain ⟨tr, s, hrun, hsent, -⟩ := exists_broadcasts 4296000
  have hlen : (sentBy broadcasters 0 tr).length = 4296000 := by rw [hsent, List.length_replicate]
  have hprints : (s.member 0).counters.prints = true := by
    refine (prints_iff _).mpr ⟨.bcast, rfl, ?_, ?_⟩
    · rw [snt_eq hrun, hsent, List.count_replicate_self]
      decide
    · rw [snt_eq hrun, hsent, List.count_replicate_self]
      decide
  have hexact := h broadcasters 0 tr s hrun (by rw [hlen]; decide) hprints ⟨0, 0⟩ ⟨2999, 0⟩ ⟨3000, 0⟩ (by decide)
    (by decide)
  have hscaled := hexact.scaled
  rw [hlen] at hscaled
  exact absurd hscaled (by decide)

end GroupCast
end Tipcutils
