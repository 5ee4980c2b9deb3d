import Tipcutils.Tipcc.Descriptors

/-!
# `Tipcc.Ownership` — who closes the descriptors of the C binding

**`ownership_iff`** says for each function and every outcome of its system calls exactly when each descriptor that it
opens is returned, still open, or has been closed once.
-/

namespace Tipcutils
namespace Tipcc

open Tipc Fds

/-- A call of one of the functions that open descriptors. -/
inductive Call where
  | ownNode
  | topsrvConn
  | srvWait (srv : TipcAddr) (wait : ℤ)
  | neighSubscr
  | linkSubscr
  | linkname (len : ℕ)

/-- The descriptor that the call returns, if it returns one. -/
def Call.run (sys : Sys) (p : Proc) : Call → Option ℤ × Proc
  | .ownNode => (none, (tipcOwnNode sys p).2)
  | .topsrvConn => (some (tipcTopsrvConn sys p).1, (tipcTopsrvConn sys p).2)
  | .srvWait srv wait => (none, (tipcSrvWait sys srv wait p).2)
  | .neighSubscr => (some (tipcNeighSubscr sys p).1, (tipcNeighSubscr sys p).2)
  | .linkSubscr => (some (tipcLinkSubscr sys p).1, (tipcLinkSubscr sys p).2)
  | .linkname len => (none, (tipcLinkname sys len p).2)

/-- At the end of a call with the result `ret`, each descriptor that was opened is returned as a positive number and
    still open, or it is not returned and has been closed once. No descriptor is closed twice. -/
structure Owns (ret : Option ℤ) (p : Proc) : Prop where
  settled : ∀ d, .opened d ∈ p.fds.log →
    ret = some d ∧ 0 < d ∧ p.fds.isOpen d = true ∧ p.fds.closes d = 0 ∨ ret ≠ some d ∧ p.fds.closes d = 1
  once : ∀ d, p.fds.closes d ≤ 1

/-- How the system calls of a call have to end; `next` is the descriptor that `socket` yields. -/
def Call.HoldsWhen (sys : Sys) (next : ℕ) : Call → Prop
  | .ownNode => True
  | .topsrvConn => sys.socket = false ∨ 0 < next ∧ sys.connect = true
  | .srvWait _ _ => sys.socket = false ∨ next = 0 ∨ sys.connect = true
  | .neighSubscr | .linkSubscr => sys.socket = false ∨ 0 < next ∧ (sys.connect = false ∨ sys.send = true)
  | .linkname _ => sys.socket = false

/-- A process before a call. -/
def Proc.before (live : List ℕ) (ownNode : UInt32) : Proc := ⟨.initial live, ownNode, []⟩

variable {sys : Sys} {p : Proc} {ret : Option ℤ}

theorem owns_of_log_nil (h : p.fds.log = []) : Owns ret p := by
  refine ⟨?_, ?_⟩
  · intro d hd
    rw [h] at hd
    nomatch hd
  · intro d
    rw [Table.closes, h]
    exact Nat.zero_le _

/-- One descriptor that is left open. -/
theorem owns_opened_iff {d : ℤ} (h : p.fds.log = [.opened d]) (hopen : p.fds.isOpen d = true) :
    Owns ret p ↔ ret = some d ∧ 0 < d := by
  have hcloses : ∀ e, p.fds.closes e = 0 := fun e => by simp [Table.closes, h]
  constructor
  · intro ho
    have hd := ho.settled d (by simp [h])
    rw [hcloses] at hd
    rcases hd with ⟨hret, hpos, -⟩ | ⟨-, hone⟩
    · exact ⟨hret, hpos⟩
    · nomatch hone
  · rintro ⟨hret, hpos⟩
    refine ⟨?_, fun e => by rw [hcloses]; exact Nat.zero_le _⟩
    intro e he
    obtain rfl : e = d := by simpa [h] using he
    exact .inl ⟨hret, hpos, hopen, hcloses e⟩

/-- One descriptor that is closed. -/
theorem owns_closed_iff {d : ℤ} (h : p.fds.log = [.opened d, .closed d]) : Owns ret p ↔ ret ≠ some d := by
  have hcloses : p.fds.closes d = 1 := by simp [Table.closes, h]
  constructor
  · intro ho
    have hd := ho.settled d (by simp [h])
    rw [hcloses] at hd
    rcases hd with ⟨-, -, -, hzero⟩ | ⟨hret, -⟩
    · nomatch hzero
    · exact hret
  · intro hret
    refine ⟨?_, ?_⟩
    · intro e he
      obtain rfl : e = d := by simpa [h] using he
      exact .inr ⟨hret, hcloses⟩
    · intro e
      rw [Table.closes, h]
      by_cases heq : d = e
      · simp [heq]
      · simp [heq]

/-- A descriptor that is closed twice. -/
theorem not_owns_of_twice {d : ℤ} (h : p.fds.log = [.opened d, .closed d, .closed d]) : ¬ Owns ret p := by
  intro ho
  have htwice : p.fds.closes d = 2 := by simp [Table.closes, h]
  have := ho.once d
  omega

/-! ## The functions -/

variable (live : List ℕ) (ownNode : UInt32)

theorem owns_ownNode : Owns none (tipcOwnNode sys (Proc.before live ownNode)).2 := by
  by_cases hown : ownNode = 0
  · have hfds := tipcOwnNode_fds sys (p := Proc.before live ownNode) hown
    cases hs : sys.socket with
    | false =>
      -- `close(-1)`
      have hlog : (tipcOwnNode sys (Proc.before live ownNode)).2.fds.log = [.closed (-1)] := by
        rw [hfds, tipcSocket_of_fail hs]
        rfl
      refine ⟨?_, ?_⟩
      · intro d hd
        rw [hlog] at hd
        simp at hd
      · intro d
        rw [Table.closes, hlog]
        exact List.count_le_length
    | true =>
      have hlog : (tipcOwnNode sys (Proc.before live ownNode)).2.fds.log =
          [.opened (lowest live), .closed (lowest live)] := by
        rw [hfds, tipcSocket_of_ok hs]
        rfl
      exact (owns_closed_iff hlog).mpr nofun
  · apply owns_of_log_nil
    have hsome : (Proc.before live ownNode).ownNode ≠ 0 := hown
    rw [tipcOwnNode, if_pos hsome]
    rfl

theorem owns_topsrvConn_iff :
    Owns (some (tipcTopsrvConn sys (Proc.before live ownNode)).1) (tipcTopsrvConn sys (Proc.before live ownNode)).2 ↔
      sys.socket = false ∨ 0 < lowest live ∧ sys.connect = true := by
  cases hs : sys.socket with
  | false =>
    rw [tipcTopsrvConn_of_fail hs]
    exact ⟨fun _ => .inl rfl, fun _ => owns_of_log_nil rfl⟩
  | true =>
    by_cases h0 : lowest live = 0
    · -- 0 is taken for a failure, and stays open
      rw [tipcTopsrvConn_of_zero (p := Proc.before live ownNode) hs h0,
        owns_opened_iff (d := lowest live) rfl isOpen_next_opened]
      simp [h0]
    · have hpos : 0 < lowest live := Nat.pos_of_ne_zero h0
      rw [tipcTopsrvConn_of_pos (p := Proc.before live ownNode) hs hpos]
      cases hc : sys.connect with
      | false =>
        -- the closed descriptor is returned
        show Owns _ (tipcClose (lowest live) (Proc.before live ownNode).opened) ↔ _
        rw [owns_closed_iff (d := lowest live) rfl]
        simp [Proc.before, Table.next, Table.initial]
      | true =>
        show Owns _ (Proc.before live ownNode).opened ↔ _
        rw [owns_opened_iff (d := lowest live) rfl isOpen_next_opened]
        simp [Proc.before, Table.next, Table.initial, hpos]

theorem owns_srvWait_iff (srv : TipcAddr) (wait : ℤ) :
    Owns none (tipcSrvWait sys srv wait (Proc.before live ownNode)).2 ↔
      sys.socket = false ∨ lowest live = 0 ∨ sys.connect = true := by
  cases hs : sys.socket with
  | false =>
    have hp : (tipcSrvWait sys srv wait (Proc.before live ownNode)).2 = Proc.before live ownNode := by
      rw [tipcSrvWait, tipcTopsrvConn_of_fail hs]
      rfl
    rw [hp]
    exact ⟨fun _ => .inl rfl, fun _ => owns_of_log_nil rfl⟩
  | true =>
    by_cases h0 : lowest live = 0
    · have hconn := tipcTopsrvConn_of_zero (p := Proc.before live ownNode) hs h0
      have hfds := tipcSrvWait_fds sys (p := Proc.before live ownNode) (by rw [hconn]) srv wait
      have hlog : (tipcSrvWait sys srv wait (Proc.before live ownNode)).2.fds.log =
          [.opened (lowest live), .closed (lowest live)] := by
        -- the descriptor 0 is returned, and closed by the caller
        rw [hfds, hconn, h0]
        show [Event.opened (lowest live), .closed 0] = _
        rw [h0]
        rfl
      rw [owns_closed_iff hlog]
      simp [h0]
    · have hpos : 0 < lowest live := Nat.pos_of_ne_zero h0
      have hconn := tipcTopsrvConn_of_pos (p := Proc.before live ownNode) hs hpos
      have hfds := tipcSrvWait_fds sys (p := Proc.before live ownNode)
        (by rw [hconn]; exact Int.natCast_nonneg _) srv wait
      rw [hconn] at hfds
      cases hc : sys.connect with
      | false =>
        -- closed in `tipc_topsrv_conn`, and again here
        have hlog : (tipcSrvWait sys srv wait (Proc.before live ownNode)).2.fds.log =
            [.opened (lowest live), .closed (lowest live), .closed (lowest live)] := by
          rw [hfds, hc]
          rfl
        exact ⟨fun h => absurd h (not_owns_of_twice hlog), by simp [h0]⟩
      | true =>
        have hlog : (tipcSrvWait sys srv wait (Proc.before live ownNode)).2.fds.log =
            [.opened (lowest live), .closed (lowest live)] := by
          rw [hfds, hc]
          rfl
        rw [owns_closed_iff hlog]
        simp

theorem owns_subscribeAll_iff (type : UInt32) :
    Owns (some (subscribeAll sys type (Proc.before live ownNode)).1)
        (subscribeAll sys type (Proc.before live ownNode)).2 ↔
      sys.socket = false ∨ 0 < lowest live ∧ (sys.connect = false ∨ sys.send = true) := by
  cases hs : sys.socket with
  | false =>
    rw [subscribeAll, tipcTopsrvConn_of_fail hs]
    exact ⟨fun _ => .inl rfl, fun _ => owns_of_log_nil rfl⟩
  | true =>
    by_cases h0 : lowest live = 0
    · rw [subscribeAll, tipcTopsrvConn_of_zero (p := Proc.before live ownNode) hs h0]
      -- 0 is not positive: -1 is returned, and 0 stays open
      show Owns (some (-1)) (Proc.before live ownNode).opened ↔ _
      rw [owns_opened_iff (d := lowest live) rfl isOpen_next_opened]
      simp [h0]
    · have hpos : 0 < lowest live := Nat.pos_of_ne_zero h0
      obtain ⟨hret, hfds⟩ := subscribeAll_of_pos (p := Proc.before live ownNode) hs hpos type
      rw [hret]
      cases hc : sys.connect with
      | false =>
        rw [hc] at hfds
        rw [owns_closed_iff (d := lowest live) (by rw [hfds]; rfl)]
        simp [hpos]
      | true =>
        rw [hc] at hfds
        rw [owns_opened_iff (d := lowest live) (by rw [hfds]; rfl) (by rw [hfds]; exact isOpen_next_opened)]
        -- where the subscription cannot be sent -1 is returned, and the socket stays open
        cases hsend : sys.send with
        | false => simp
        | true => simp [hpos, Proc.before, Table.next, Table.initial]

theorem owns_linkname_iff (len : ℕ) :
    Owns none (tipcLinkname sys len (Proc.before live ownNode)).2 ↔ sys.socket = false := by
  have hfds := tipcLinkname_fds sys (p := Proc.before live ownNode) len
  cases hs : sys.socket with
  | false =>
    rw [tipcSocket_of_fail hs] at hfds
    exact ⟨fun _ => rfl, fun _ => owns_of_log_nil (by rw [hfds]; rfl)⟩
  | true =>
    rw [tipcSocket_of_ok hs] at hfds
    -- nobody closes the socket of the `ioctl`
    rw [owns_opened_iff (d := lowest live) (by rw [hfds]; rfl) (by rw [hfds]; exact isOpen_next_opened)]
    simp

/-- **Who closes the descriptors.** Whatever descriptors are open before a call, and however its system calls end, each
    descriptor that the call opens is returned open or closed once if and only if `HoldsWhen` says so. -/
theorem ownership_iff (call : Call) (sys : Sys) (live : List ℕ) (ownNode : UInt32) :
    Owns (call.run sys (Proc.before live ownNode)).1 (call.run sys (Proc.before live ownNode)).2 ↔
      call.HoldsWhen sys (lowest live) := by
  cases call with
  | ownNode => exact ⟨fun _ => trivial, fun _ => owns_ownNode live ownNode⟩
  | topsrvConn => exact owns_topsrvConn_iff live ownNode
  | srvWait srv wait => exact owns_srvWait_iff live ownNode srv wait
  | neighSubscr => exact owns_subscribeAll_iff live ownNode tipcCfgSrv
  | linkSubscr => exact owns_subscribeAll_iff live ownNode tipcLinkState
  | linkname len => exact owns_linkname_iff live ownNode len

/-- The connection to the topology server fails: the descriptor that is returned has been closed. -/
theorem ownership_broken :
    ¬ ∀ (call : Call) (sys : Sys) (live : List ℕ) (ownNode : UInt32),
      Owns (call.run sys (Proc.before live ownNode)).1 (call.run sys (Proc.before live ownNode)).2 := by
  intro h
  have howns := h .topsrvConn ⟨true, false, false, none, none, none⟩ [0, 1, 2] 0
  rcases howns.settled 3 (by decide) with ⟨-, -, hopen, -⟩ | ⟨hret, -⟩
  · exact absurd hopen (by decide)
  · exact hret rfl

end Tipcc
end Tipcutils
