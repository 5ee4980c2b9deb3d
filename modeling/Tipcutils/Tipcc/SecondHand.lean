import Tipcutils.Lib.History
import Tipcutils.Tipcc.TopSubscr

/-!
# `Tipcc.SecondHand` — the slot for the neighbour's subscription

The value 0 that marks the slot free is a descriptor too, and neither the node that was subscribed to nor the flags of
the slot are reset with it; a subscription that fails leaves -1. **`slotOk_iff`**: a run uses the slot correctly if and
only if it only gets to the branches that use it while its descriptor is positive. **`isOpen_of_mem_openSubs`** connects
the trace to the descriptors of the process.
-/

namespace Tipcutils
namespace Tipcc

open Tipc Fds

/-! ## Traces -/

theorem openSubs_concat (tr : List SlotEvent) (e : SlotEvent) : openSubs (tr ++ [e]) = e.after (openSubs tr) := by
  rw [openSubs, List.foldl_append]
  rfl

/-- All events of a trace are right. -/
def UsesOk (tr : List SlotEvent) : Prop := ∀ before e, before ++ [e] <+: tr → e.Ok before

/-- Never are two sockets open. -/
def OneOpen (tr : List SlotEvent) : Prop := ∀ before, before <+: tr → (openSubs before).length ≤ 1

theorem UsesOk.concat {tr : List SlotEvent} {e : SlotEvent} (h : UsesOk tr) (he : e.Ok tr) : UsesOk (tr ++ [e]) :=
  History.Right.concat h he

theorem OneOpen.concat {tr : List SlotEvent} {e : SlotEvent} (h : OneOpen tr)
    (he : (e.after (openSubs tr)).length ≤ 1) : OneOpen (tr ++ [e]) := by
  intro before hpre
  rcases List.prefix_concat_iff.mp hpre with rfl | hold
  · rw [openSubs_concat]
    exact he
  · exact h before hold

theorem UsesOk.earlier {tr tr' : List SlotEvent} (h : UsesOk tr') (hpre : tr <+: tr') : UsesOk tr :=
  History.Right.earlier h hpre

/-- Every socket that was created has been closed, or is open. -/
theorem count_created {tr : List SlotEvent} (h : UsesOk tr) (d : ℤ) :
    tr.count (.created d) = tr.count (.closed d) + (openSubs tr).count d := by
  induction tr using List.reverseRecOn with
  | nil => rfl
  | append_singleton tr e ih =>
    have hlast : e.Ok tr := History.Right.last h
    have ih := ih (h.earlier (List.prefix_append _ _))
    rw [List.count_append, List.count_append, ih, openSubs_concat]
    cases e with
    | created d' =>
      by_cases hd : d' = d
      · subst hd
        simp [SlotEvent.after]
        omega
      · simp [SlotEvent.after, hd]
    | received d' => simp [SlotEvent.after]
    | closed d' =>
      by_cases hd : d' = d
      · subst hd
        -- a socket that is closed was open
        have hpos : 0 < (openSubs tr).count d' := List.count_pos_iff.mpr hlast
        simp [SlotEvent.after]
        omega
      · simp [SlotEvent.after, hd, List.count_erase_of_ne (Ne.symm hd)]

theorem slotOk_of {tr : List SlotEvent} (hu : UsesOk tr) (ho : OneOpen tr) : SlotOk tr := by
  refine ⟨hu, ?_, ho⟩
  intro d
  rw [count_created hu]
  exact Nat.le_add_right _ _

namespace TopSubscr

/-! ## One round -/

structure Inv (s : TopSubscr) : Prop where
  used : UsesOk s.trace
  one : OneOpen s.trace
  nonneg : ∀ d ∈ openSubs s.trace, 0 ≤ d
  free : s.slot = 0 → openSubs s.trace = []
  holds : 0 < s.slot → s.slot ∈ openSubs s.trace

variable {s s' : TopSubscr}

theorem inv_start (live : List ℕ) (ownNode : UInt32) : Inv (start live ownNode) := by
  refine ⟨History.right_nil, ?_, nofun, fun _ => rfl, ?_⟩
  · intro before hpre
    rw [List.prefix_nil.mp hpre]
    exact Nat.zero_le _
  · intro hpos
    exact absurd hpos (Int.lt_irrefl 0)

theorem Inv.of_eq (h : Inv s) (hslot : s'.slot = s.slot) (htr : s'.trace = s.trace) : Inv s' := by
  constructor
  · rw [htr]
    exact h.used
  · rw [htr]
    exact h.one
  · rw [htr]
    exact h.nonneg
  · rw [hslot, htr]
    exact h.free
  · rw [hslot, htr]
    exact h.holds

/-- An open subscription socket in the slot is not 0, which marks it free. -/
theorem Inv.pos_of_mem (h : Inv s) (hmem : s.slot ∈ openSubs s.trace) : 0 < s.slot := by
  have hne : s.slot ≠ 0 := by
    intro h0
    rw [h.free h0] at hmem
    nomatch hmem
  have := h.nonneg _ hmem
  omega

theorem Inv.closeSlot (h : Inv s) (hpos : 0 < s.slot) : Inv s.closeSlot := by
  have hh := h.holds hpos
  -- the only open socket is closed
  have hempty : (openSubs s.trace).erase s.slot = [] := by
    have hone := h.one s.trace (List.prefix_refl _)
    rw [← List.length_eq_zero_iff, List.length_erase_of_mem hh]
    omega
  have htr : openSubs (s.trace ++ [.closed s.slot]) = [] := by
    rw [openSubs_concat]
    exact hempty
  refine ⟨h.used.concat hh, h.one.concat ?_, fun d hd => ?_, fun _ => htr, fun h0 => absurd h0 (Int.lt_irrefl 0)⟩
  · show ((openSubs s.trace).erase s.slot).length ≤ 1
    rw [hempty]
    exact Nat.zero_le _
  · rw [TopSubscr.closeSlot, htr] at hd
    nomatch hd

/-- `tipc_neigh_subscr` returns -1 or a positive number. -/
theorem subscribeAll_ne_zero (sys : Sys) (type : UInt32) (p : Proc) : (subscribeAll sys type p).1 ≠ 0 := by
  unfold subscribeAll
  simp only
  have hneg : (-1 : ℤ) ≠ 0 := by decide
  split
  · exact hneg
  next hpos =>
    split
    · exact fun h => hpos (by rw [h])
    · exact hneg

/-- A socket that it returns is the new one, and open. -/
theorem subscribeAll_of_ret_pos (sys : Sys) (type : UInt32) (p : Proc) (h : 0 < (subscribeAll sys type p).1) :
    (subscribeAll sys type p).1 = p.fds.next ∧ (subscribeAll sys type p).2.fds.isOpen p.fds.next = true := by
  cases hs : sys.socket with
  | false =>
    rw [subscribeAll, tipcTopsrvConn_of_fail hs] at h
    exact absurd h (show ¬ (0 : ℤ) < -1 by decide)
  | true =>
    -- a descriptor 0 would be taken for a failure
    by_cases h0 : p.fds.next = 0
    · rw [subscribeAll, tipcTopsrvConn_of_zero hs h0] at h
      exact absurd h (show ¬ (0 : ℤ) < -1 by decide)
    · obtain ⟨hret, hfds⟩ := subscribeAll_of_pos hs (Nat.pos_of_ne_zero h0) type
      rw [hret] at h
      by_cases hok : sys.connect = true ∧ sys.send = true
      · rw [if_pos hok] at hret
        rw [if_pos hok.1] at hfds
        exact ⟨hret, by rw [hfds]; exact isOpen_next_opened⟩
      · rw [if_neg hok] at h
        exact absurd h (by decide)

theorem subscribe_trace (sys : Sys) (node : UInt32) :
    (s.subscribe sys node).trace =
      if (tipcNeighSubscr sys s.proc).2.fds.isOpen s.proc.fds.next then s.trace ++ [.created s.proc.fds.next]
      else s.trace := rfl

theorem Inv.subscribe (h : Inv s) (hfree : s.slot = 0) (sys : Sys) (node : UInt32) : Inv (s.subscribe sys node) := by
  have hnone := h.free hfree
  have hslot : (s.subscribe sys node).slot ≠ 0 := subscribeAll_ne_zero sys tipcCfgSrv s.proc
  have hret := subscribeAll_of_ret_pos sys tipcCfgSrv s.proc
  by_cases hnext : (tipcNeighSubscr sys s.proc).2.fds.isOpen s.proc.fds.next = true
  · have htr : (s.subscribe sys node).trace = s.trace ++ [.created s.proc.fds.next] := by
      rw [subscribe_trace, if_pos hnext]
    -- the slot was free, so the new socket is the only one
    have hopen : openSubs (s.subscribe sys node).trace = [↑s.proc.fds.next] := by
      rw [htr, openSubs_concat, hnone]
      rfl
    refine ⟨?_, ?_, ?_, fun h0 => absurd h0 hslot, ?_⟩
    · rw [htr]
      exact h.used.concat trivial
    · rw [htr]
      exact h.one.concat (by rw [hnone]; exact Nat.le_refl _)
    · intro d hd
      rw [hopen, List.mem_singleton] at hd
      rw [hd]
      exact Int.natCast_nonneg _
    · intro hpos
      rw [hopen, List.mem_singleton]
      exact (hret hpos).1
  · have htr : (s.subscribe sys node).trace = s.trace := by rw [subscribe_trace, if_neg hnext]
    refine ⟨?_, ?_, ?_, fun h0 => absurd h0 hslot, fun hpos => absurd (hret hpos).2 hnext⟩
    · rw [htr]
      exact h.used
    · rw [htr]
      exact h.one
    · rw [htr]
      exact h.nonneg

variable {r : Round}

theorem Inv.polled (h : Inv s) : Inv (s.polled r) := h.of_eq rfl rfl

theorem Inv.onService (h : Inv s) : Inv (s.onService r) := by
  unfold TopSubscr.onService
  split
  · exact h.of_eq rfl rfl
  · exact h

theorem Inv.onUp (h : Inv s) (node : UInt32) : Inv (s.onUp r node) := by
  unfold TopSubscr.onUp
  split
  next hfree =>
    have h' : Inv { s with proc := (tipcOwnNode r.ownNode s.proc).2 } := h.of_eq rfl rfl
    simp only
    split
    · exact h'.subscribe hfree r.subscr node
    · exact h'
  · exact h

/-- Where the lost node is the one that was subscribed to, the slot is positive. -/
def DownOk (s : TopSubscr) (r : Round) : Prop :=
  s.exited = false → s.revents.in1 = true → r.neigh = some (s.neighTopsrvnode, false) → 0 < s.slot

instance (s : TopSubscr) (r : Round) : Decidable (s.DownOk r) := inferInstanceAs (Decidable (_ → _ → _ → _))

theorem Inv.onNeigh (h : Inv s) (hd : s.DownOk r) : Inv (s.onNeigh r) := by
  unfold TopSubscr.onNeigh
  split
  · exact h
  next hgo =>
    split
    · exact h.of_eq rfl rfl
    next node _ => exact h.onUp node
    next node hneigh =>
      unfold TopSubscr.onDown
      split
      next hnode =>
        simp only [Bool.not_eq_true', not_or, Bool.not_eq_true, Bool.not_eq_false] at hgo
        exact h.closeSlot (hd hgo.1 hgo.2 (by rw [hneigh, hnode]))
      · exact h

theorem Inv.onLink (h : Inv s) : Inv (s.onLink r) := by
  unfold TopSubscr.onLink
  split
  · exact h
  · split
    · exact h.of_eq rfl rfl
    · exact h.of_eq rfl rfl

/-- Where a flag of the slot is set, the slot is positive. -/
def FlagsOk (s : TopSubscr) : Prop := s.exited = false → s.revents.hup3 = true ∨ s.revents.in3 = true → 0 < s.slot

instance (s : TopSubscr) : Decidable s.FlagsOk := inferInstanceAs (Decidable (_ → _ → _))

theorem Inv.onSlot (h : Inv s) (hf : s.FlagsOk) : Inv (s.onSlot r) := by
  unfold TopSubscr.onSlot
  split
  · exact h
  next hgo =>
    rw [Bool.not_eq_true] at hgo
    split
    next hhup => exact h.closeSlot (hf hgo (.inl hhup))
    · split
      next hin =>
        have hpos := hf hgo (.inr hin)
        have htr : openSubs (s.trace ++ [.received s.slot]) = openSubs s.trace := openSubs_concat _ _
        refine ⟨h.used.concat (h.holds hpos), h.one.concat (h.one s.trace (List.prefix_refl _)), ?_, ?_, ?_⟩
        · rw [htr]
          exact h.nonneg
        · rw [htr]
          exact h.free
        · rw [htr]
          exact h.holds
      · exact h

/-- A round only gets to the branches that use the slot while its descriptor is positive. -/
def Clear (t : TopSubscr × TopLabel × TopSubscr) : Prop :=
  match t.2.1 with
  | .timeout => True
  | .round r =>
    ((t.1.polled r).onService r).DownOk r ∧ ((((t.1.polled r).onService r).onNeigh r).onLink r).FlagsOk

instance : DecidablePred Clear
  | (_, .timeout, _) => inferInstanceAs (Decidable True)
  | (_, .round _, _) => inferInstanceAs (Decidable (_ ∧ _))

theorem Inv.step {l : TopLabel} (h : Inv s) (hs : s.step l = some s') (hc : Clear (s, l, s')) : Inv s' := by
  cases l with
  | timeout =>
    simp only [TopSubscr.step] at hs
    split at hs
    · nomatch hs
    · obtain rfl := Option.some.inj hs
      exact h.of_eq rfl rfl
  | round r =>
    obtain ⟨-, hs⟩ := Option.ite_none_right_eq_some.mp hs
    obtain rfl := Option.some.inj hs
    exact ((h.polled.onService.onNeigh hc.1).onLink).onSlot hc.2

/-! ## The trace grows -/

theorem onService_trace : (s.onService r).trace = s.trace := by
  unfold TopSubscr.onService
  split <;> rfl

theorem onUp_grows (node : UInt32) : s.trace <+: (s.onUp r node).trace := by
  unfold TopSubscr.onUp
  split
  · simp only
    split
    · rw [subscribe_trace]
      split
      · exact List.prefix_append _ _
      · exact List.prefix_refl _
    · exact List.prefix_refl _
  · exact List.prefix_refl _

theorem onNeigh_grows : s.trace <+: (s.onNeigh r).trace := by
  unfold TopSubscr.onNeigh
  split
  · exact List.prefix_refl _
  · split
    · exact List.prefix_refl _
    next node _ => exact onUp_grows node
    · unfold TopSubscr.onDown
      split
      · exact List.prefix_append _ _
      · exact List.prefix_refl _

theorem onLink_trace : (s.onLink r).trace = s.trace := by
  unfold TopSubscr.onLink
  split
  · rfl
  · split <;> rfl

theorem onSlot_grows : s.trace <+: (s.onSlot r).trace := by
  unfold TopSubscr.onSlot
  split
  · exact List.prefix_refl _
  · split
    · exact List.prefix_append _ _
    · split
      · exact List.prefix_append _ _
      · exact List.prefix_refl _

theorem trace_grows {l : TopLabel} (hs : s.step l = some s') : s.trace <+: s'.trace := by
  cases l with
  | timeout =>
    simp only [TopSubscr.step] at hs
    split at hs
    · nomatch hs
    · obtain rfl := Option.some.inj hs
      exact List.prefix_refl _
  | round r =>
    obtain ⟨-, hs⟩ := Option.ite_none_right_eq_some.mp hs
    obtain rfl := Option.some.inj hs
    have hneigh := onNeigh_grows (s := (s.polled r).onService r) (r := r)
    have hslot := onSlot_grows (s := (((s.polled r).onService r).onNeigh r).onLink r) (r := r)
    rw [onService_trace] at hneigh
    rw [onLink_trace] at hslot
    exact hneigh.trans hslot

/-! ## The trace and the descriptors -/

/-- The subscription sockets that are open after the trace are different open descriptors. -/
structure SubsOpen (s : TopSubscr) : Prop where
  nodup : (openSubs s.trace).Nodup
  isOpen : ∀ d ∈ openSubs s.trace, s.proc.fds.isOpen d = true

theorem subsOpen_start (live : List ℕ) (ownNode : UInt32) : SubsOpen (start live ownNode) :=
  ⟨List.nodup_nil, nofun⟩

/-- Calls that leave the open descriptors open. -/
theorem SubsOpen.of_isOpen (h : SubsOpen s) (htr : s'.trace = s.trace)
    (hkeep : ∀ {d : ℤ}, s.proc.fds.isOpen d = true → s'.proc.fds.isOpen d = true) : SubsOpen s' := by
  refine ⟨?_, ?_⟩
  · rw [htr]
    exact h.nodup
  · rw [htr]
    exact fun d hd => hkeep (h.isOpen d hd)

theorem SubsOpen.closeSlot (h : SubsOpen s) : SubsOpen s.closeSlot := by
  have htr : openSubs s.closeSlot.trace = (openSubs s.trace).erase s.slot := openSubs_concat _ _
  refine ⟨?_, ?_⟩
  · rw [htr]
    exact h.nodup.erase s.slot
  · intro d hd
    rw [htr] at hd
    obtain ⟨hne, hmem⟩ := (h.nodup.mem_erase_iff).mp hd
    exact Table.isOpen_close_of (h.isOpen d hmem) hne

theorem SubsOpen.subscribe (h : SubsOpen s) (sys : Sys) (node : UInt32) : SubsOpen (s.subscribe sys node) := by
  have hkeep : ∀ d ∈ openSubs s.trace, (s.subscribe sys node).proc.fds.isOpen d = true :=
    fun d hd => isOpen_subscribeAll (h.isOpen d hd) tipcCfgSrv
  by_cases hnext : (tipcNeighSubscr sys s.proc).2.fds.isOpen s.proc.fds.next = true
  · have htr : openSubs (s.subscribe sys node).trace = ↑s.proc.fds.next :: openSubs s.trace := by
      rw [subscribe_trace, if_pos hnext, openSubs_concat]
      rfl
    refine ⟨?_, ?_⟩
    · rw [htr]
      -- a new descriptor is none of those that are open
      exact List.nodup_cons.mpr ⟨fun hmem => Table.ne_next_of_isOpen (h.isOpen _ hmem) rfl, h.nodup⟩
    · intro d hd
      rw [htr] at hd
      rcases List.mem_cons.mp hd with rfl | hmem
      · exact hnext
      · exact hkeep d hmem
  · have htr : (s.subscribe sys node).trace = s.trace := by rw [subscribe_trace, if_neg hnext]
    exact ⟨by rw [htr]; exact h.nodup, by rw [htr]; exact hkeep⟩

theorem SubsOpen.onNeigh (h : SubsOpen s) : SubsOpen (s.onNeigh r) := by
  unfold TopSubscr.onNeigh
  split
  · exact h
  · split
    · exact h.of_isOpen rfl id
    next node _ =>
      unfold TopSubscr.onUp
      split
      · have h' : SubsOpen { s with proc := (tipcOwnNode r.ownNode s.proc).2 } := h.of_isOpen rfl isOpen_tipcOwnNode
        simp only
        split
        · exact h'.subscribe r.subscr node
        · exact h'
      · exact h
    · unfold TopSubscr.onDown
      split
      · exact h.closeSlot
      · exact h

theorem SubsOpen.onLink (h : SubsOpen s) : SubsOpen (s.onLink r) := by
  unfold TopSubscr.onLink
  split
  · exact h
  · split
    · exact h.of_isOpen rfl id
    · exact h.of_isOpen rfl fun hd => isOpen_tipcLinkname hd 40

theorem SubsOpen.onSlot (h : SubsOpen s) : SubsOpen (s.onSlot r) := by
  unfold TopSubscr.onSlot
  split
  · exact h
  · split
    · exact h.closeSlot
    · split
      · have htr : openSubs (s.trace ++ [.received s.slot]) = openSubs s.trace := openSubs_concat _ _
        exact ⟨by rw [htr]; exact h.nodup, by rw [htr]; exact h.isOpen⟩
      · exact h

theorem SubsOpen.step {l : TopLabel} (h : SubsOpen s) (hs : s.step l = some s') : SubsOpen s' := by
  cases l with
  | timeout =>
    simp only [TopSubscr.step] at hs
    split at hs
    · nomatch hs
    · obtain rfl := Option.some.inj hs
      exact h.of_isOpen rfl id
  | round r =>
    obtain ⟨-, hs⟩ := Option.ite_none_right_eq_some.mp hs
    obtain rfl := Option.some.inj hs
    have hservice : SubsOpen ((s.polled r).onService r) := by
      unfold TopSubscr.onService
      split
      · exact h.of_isOpen rfl id
      · exact h.of_isOpen rfl id
    exact hservice.onNeigh.onLink.onSlot

/-- **The open sockets of a trace are open.** In every state that the loop reaches, the subscription sockets that the
    trace leaves open are different descriptors that are open. -/
theorem isOpen_of_mem_openSubs {live : List ℕ} {ownNode : UInt32}
    (h : Lts.Reach TopSubscr.step (start live ownNode) s) :
    (openSubs s.trace).Nodup ∧ ∀ d ∈ openSubs s.trace, s.proc.fds.isOpen d = true := by
  have hsubs := h.inv (subsOpen_start live ownNode) fun _ _ _ hI hs => hI.step hs
  exact ⟨hsubs.nodup, hsubs.isOpen⟩

/-! ## Runs -/

/-- The branch for a lost node closes the slot. -/
theorem downOk_of_usesOk (hI : Inv s) (h : UsesOk (s.onNeigh r).trace) : s.DownOk r := by
  intro hgo hin hneigh
  have hclose : s.onNeigh r = s.closeSlot := by simp [TopSubscr.onNeigh, hgo, hin, hneigh, TopSubscr.onDown]
  rw [hclose] at h
  exact hI.pos_of_mem (h s.trace (.closed s.slot) (List.prefix_refl _))

/-- The branches for the slot use it. -/
theorem flagsOk_of_usesOk (hI : Inv s) (h : UsesOk (s.onSlot r).trace) : s.FlagsOk := by
  intro hgo hflags
  apply hI.pos_of_mem
  unfold TopSubscr.onSlot at h
  rw [if_neg (by rw [hgo]; decide)] at h
  by_cases hhup : s.revents.hup3 = true
  · rw [if_pos hhup] at h
    exact h s.trace (.closed s.slot) (List.prefix_refl _)
  · rw [if_neg hhup, if_pos (hflags.resolve_left hhup)] at h
    exact h s.trace (.received s.slot) (List.prefix_refl _)

theorem clear_of_usesOk {l : TopLabel} (hI : Inv s) (hs : s.step l = some s') (h : UsesOk s'.trace) :
    Clear (s, l, s') := by
  cases l with
  | timeout => trivial
  | round r =>
    obtain ⟨-, hs⟩ := Option.ite_none_right_eq_some.mp hs
    obtain rfl := Option.some.inj hs
    have hslot := onSlot_grows (s := (((s.polled r).onService r).onNeigh r).onLink r) (r := r)
    rw [onLink_trace] at hslot
    -- the branch for the lost node comes first; the flags are those of the slot behind it
    have hdown := downOk_of_usesOk hI.polled.onService (h.earlier hslot)
    exact ⟨hdown, flagsOk_of_usesOk (hI.polled.onService.onNeigh hdown).onLink h⟩

theorem usesOk_iff {live : List ℕ} {ownNode : UInt32} {tr : List (TopSubscr × TopLabel × TopSubscr)}
    (h : Lts.Run TopSubscr.step (start live ownNode) tr s) : UsesOk s.trace ↔ ∀ t ∈ tr, Clear t := by
  apply h.iff_forall (P := fun s => UsesOk s.trace) (I := Inv) (inv_start live ownNode)
  · intro s hI
    exact hI.used
  · intro s l s' hs hu
    exact hu.earlier (trace_grows hs)
  · intro s l s' hI hs hu
    exact clear_of_usesOk hI hs hu
  · intro s l s' hI hs hc
    exact hI.step hs hc

/-- **When the slot is used correctly.** In a run of any length, from any descriptors, the slot is used only while it
    holds an open subscription socket, each such socket is closed at most once and at most one is open at any
    time, if and only if every round only gets to the branches that use the slot while its descriptor is positive. -/
theorem slotOk_iff {live : List ℕ} {ownNode : UInt32} {tr : List (TopSubscr × TopLabel × TopSubscr)}
    (h : Lts.Run TopSubscr.step (start live ownNode) tr s) : SlotOk s.trace ↔ ∀ t ∈ tr, Clear t := by
  constructor
  · intro hok
    exact (usesOk_iff h).mp hok.used
  · intro hc
    have hinv := (h.inv (inv_start live ownNode) (fun _ _ _ _ hI hC hs => hI.step hs hC) hc).1
    exact slotOk_of hinv.used hinv.one

/-! ## Two runs -/

/-- All system calls succeed; node `1.1.1` is the own node. -/
def allSucceed : Sys := ⟨true, true, true, none, some ⟨0, 0, 0x01001001⟩, none⟩

def nothing : Revents := ⟨false, false, false, false, false⟩

/-- A round in which `poll` yields `revents`, and the neighbour `1.1.2` comes up or is lost. -/
def neighRound (revents : Revents) (up : Bool) : TopLabel :=
  .round ⟨some revents, true, some (0x01001002, up), allSucceed, allSucceed, none, allSucceed, some (0x01001003, true)⟩

/-- The neighbour comes up, and is subscribed to. -/
def subscribed : TopLabel := neighRound { nothing with in1 := true } true

/-- The neighbour's subscription ends. -/
def hungUp : TopLabel := neighRound { nothing with in3 := true, hup3 := true } true

/-- Something is received from the neighbour before its subscription ends. -/
def secondHand : List TopLabel := [subscribed, neighRound { nothing with in3 := true } true, hungUp]

theorem secondHand_exec : (Lts.exec TopSubscr.step (start [0, 1, 2] 0) secondHand).isSome = true := by decide

theorem slotOk_iff_secondHand : SlotOk (Lts.final _ _ secondHand secondHand_exec).trace := by
  have hrun : Lts.Run TopSubscr.step (start [0, 1, 2] 0) (Lts.transitions TopSubscr.step (start [0, 1, 2] 0) secondHand)
      (Lts.final _ _ secondHand secondHand_exec) :=
    Lts.run_of_exec (Option.some_get secondHand_exec).symm
  exact (slotOk_iff hrun).mpr (by decide)

/-- The neighbour is lost after its subscription has ended. -/
def lostLater : List TopLabel := [subscribed, hungUp, neighRound { nothing with in1 := true } false]

theorem lostLater_exec : (Lts.exec TopSubscr.step (start [0, 1, 2] 0) lostLater).isSome = true := by decide

/-- The loss of the neighbour closes descriptor 0, which is no subscription. -/
theorem slotOk_broken :
    ¬ ∀ (live : List ℕ) (ownNode : UInt32) (s : TopSubscr),
      Lts.Reach TopSubscr.step (start live ownNode) s → SlotOk s.trace := by
  intro h
  have hok := h [0, 1, 2] 0 _ (Lts.reach_final lostLater_exec)
  have htr : (Lts.final _ _ lostLater lostLater_exec).trace = [.created 3, .closed 3, .closed 0] := by decide
  rw [htr] at hok
  have hmem : 0 ∈ openSubs [.created 3, .closed 3] := hok.used _ (.closed 0) (List.prefix_refl _)
  exact absurd hmem (by decide)

end TopSubscr
end Tipcc
end Tipcutils
