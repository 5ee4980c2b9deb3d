import Tipcutils.Tipcc.Descriptors

/-!
# `Tipcc.Events` — what the decoders of topology events write

`tipc_srv_evt`, `tipc_neigh_evt` and `tipc_link_evt` receive an event, and write what they find in it through the pointers
that are not NULL. A pointer that is written through is `some` value here, whatever its variable held before.

**`evt_outputs_iff`** says when each of them writes nothing if it fails, no more than `*expired` if the subscription has
expired, and every output that is asked for if there is a publication or a withdrawal.
-/

namespace Tipcutils
namespace Tipcc
namespace Events

open Tipc Fds

/-- What `recv` returns, and what the event structure holds then. -/
structure Recv where
  res : ℤ
  evt : Evt

/-- `sizeof(struct tipc_event)`. -/
def sizeofEvent : ℤ := 48

/-- `TIPC_WITHDRAWN`. -/
def tipcWithdrawn : UInt32 := 2

/-- `if (p) *p = v`: what is written. -/
def write {α : Type} (given : Bool) (v : α) : Option α := if given then some v else none

/-! ## The decoders -/

/-- The pointers of `tipc_srv_evt` that are not NULL. -/
structure SrvGiven where
  srv : Bool
  id : Bool
  available : Bool
  expired : Bool

/-- What it writes. -/
structure SrvWrites where
  srv : Option TipcAddr
  id : Option TipcAddr
  available : Option Bool
  expired : Option Bool
deriving DecidableEq

/-- `tipc_srv_evt` of the multicast blaster. -/
def tipcSrvEvt (r : Recv) (g : SrvGiven) : ℤ × SrvWrites :=
  if r.res ≠ sizeofEvent then (-1, ⟨none, none, none, none⟩)
  else if r.evt.event = tipcSubscrTimeout then (0, ⟨none, none, none, write g.expired true⟩)
  else
    (0, ⟨write g.srv ⟨r.evt.seqType, r.evt.foundLower, r.evt.portNode⟩, write g.id ⟨0, r.evt.portRef, r.evt.portNode⟩,
      write g.available (r.evt.event = tipcPublished), write g.expired false⟩)

/-- `tipc_srv_evt` of the API demo, which has no `id`. -/
def tipcSrvEvtDemo (r : Recv) (srv available expired : Bool) : ℤ × SrvWrites :=
  if r.res ≠ sizeofEvent then (-1, ⟨none, none, none, none⟩)
  else if r.evt.event = tipcSubscrTimeout then (0, ⟨none, none, none, write expired true⟩)
  else
    (0, ⟨write srv ⟨r.evt.seqType, r.evt.foundLower, r.evt.portNode⟩, none,
      write available (r.evt.event = tipcPublished), write expired false⟩)

structure NeighGiven where
  neighNode : Bool
  available : Bool

structure NeighWrites where
  neighNode : Option UInt32
  available : Option Bool
deriving DecidableEq

/-- `tipc_neigh_evt`; `srv` is what its local variable holds before it is written. The demo's calls the demo's
    `tipc_srv_evt`. -/
def tipcNeighEvt (srv : TipcAddr) (r : Recv) (g : NeighGiven) : ℤ × NeighWrites :=
  let (rc, w) := tipcSrvEvt r ⟨true, false, g.available, false⟩
  (rc, ⟨write g.neighNode (w.srv.getD srv).inst, w.available⟩)

def tipcNeighEvtDemo (srv : TipcAddr) (r : Recv) (g : NeighGiven) : ℤ × NeighWrites :=
  let (rc, w) := tipcSrvEvtDemo r true g.available false
  (rc, ⟨write g.neighNode (w.srv.getD srv).inst, w.available⟩)

structure LinkGiven where
  neighNode : Bool
  available : Bool
  localBearerid : Bool
  remoteBearerid : Bool

structure LinkWrites where
  neighNode : Option UInt32
  available : Option Bool
  localBearerid : Option UInt32
  remoteBearerid : Option UInt32
deriving DecidableEq

/-- `tipc_link_evt`, the same in both. -/
def tipcLinkEvt (r : Recv) (g : LinkGiven) : ℤ × LinkWrites :=
  if r.res ≠ sizeofEvent then (-1, ⟨none, none, none, none⟩)
  else
    (0, ⟨write g.neighNode r.evt.foundLower, write g.available (r.evt.event = tipcPublished),
      write g.localBearerid (r.evt.portRef &&& 0xffff), write g.remoteBearerid ((r.evt.portRef >>> 16) &&& 0xffff)⟩)

/-! ## What they are to write -/

/-- A decoder that leaves the outputs alone when it fails, and writes the right ones else. -/
structure Decodes {W : Type} (r : Recv) (call : ℤ × W) (nothing onTimeout onEvent : W) : Prop where
  returns : call.1 = if r.res = sizeofEvent then 0 else -1
  fails : call.1 = -1 → call.2 = nothing
  timeout : r.res = sizeofEvent → r.evt.event = tipcSubscrTimeout → call.2 = onTimeout
  event : r.res = sizeofEvent → r.evt.event = tipcPublished ∨ r.evt.event = tipcWithdrawn → call.2 = onEvent

/-- All that is asked for from a publication or a withdrawal. -/
def SrvGiven.all (g : SrvGiven) (e : Evt) : SrvWrites :=
  ⟨write g.srv ⟨e.seqType, e.foundLower, e.portNode⟩, write g.id ⟨0, e.portRef, e.portNode⟩,
    write g.available (e.event = tipcPublished), write g.expired false⟩

def NeighGiven.all (g : NeighGiven) (e : Evt) : NeighWrites :=
  ⟨write g.neighNode e.foundLower, write g.available (e.event = tipcPublished)⟩

def LinkGiven.all (g : LinkGiven) (e : Evt) : LinkWrites :=
  ⟨write g.neighNode e.foundLower, write g.available (e.event = tipcPublished),
    write g.localBearerid (e.portRef &&& 0xffff), write g.remoteBearerid ((e.portRef >>> 16) &&& 0xffff)⟩

def SrvDecodes (r : Recv) (g : SrvGiven) (call : ℤ × SrvWrites) : Prop :=
  Decodes r call ⟨none, none, none, none⟩ ⟨none, none, none, write g.expired true⟩ (g.all r.evt)

def NeighDecodes (r : Recv) (g : NeighGiven) (call : ℤ × NeighWrites) : Prop :=
  Decodes r call ⟨none, none⟩ ⟨none, none⟩ (g.all r.evt)

def LinkDecodes (r : Recv) (g : LinkGiven) (call : ℤ × LinkWrites) : Prop :=
  Decodes r call ⟨none, none, none, none⟩ ⟨none, none, none, none⟩ (g.all r.evt)

/-! ## The copies -/

theorem tipcSrvEvtDemo_eq (r : Recv) (srv available expired : Bool) :
    tipcSrvEvtDemo r srv available expired = tipcSrvEvt r ⟨srv, false, available, expired⟩ := rfl

theorem tipcNeighEvtDemo_eq (srv : TipcAddr) (r : Recv) (g : NeighGiven) :
    tipcNeighEvtDemo srv r g = tipcNeighEvt srv r g := rfl

/-- The decoder that `tipc_srv_wait` calls is `tipc_srv_evt` with all pointers. -/
theorem tipcSrvEvt_eq {sys : Sys} {sd : ℤ} {p : Proc} {r : Recv} (hopen : p.fds.isOpen sd = true)
    (hrecv : sys.recv = if r.res = sizeofEvent then some r.evt else none) :
    Tipcc.tipcSrvEvt sys sd p =
      let (rc, w) := tipcSrvEvt r ⟨true, true, true, true⟩
      if rc = 0 then some ⟨w.srv, w.id, w.available, w.expired.getD false⟩ else none := by
  rw [Tipcc.tipcSrvEvt, if_pos hopen, hrecv, tipcSrvEvt]
  by_cases hres : r.res = sizeofEvent
  · by_cases htimeout : r.evt.event = tipcSubscrTimeout
    · simp [hres, htimeout, write]
    · simp [hres, htimeout, write]
  · simp [hres]

/-! ## Which decoders do -/

theorem write_eq_none_iff {α : Type} {given : Bool} {v : α} : write given v = none ↔ given = false := by
  cases given <;> simp [write]

/-- A publication or a withdrawal is not a timeout. -/
theorem not_timeout {event : UInt32} (h : event = tipcPublished ∨ event = tipcWithdrawn) : event ≠ tipcSubscrTimeout := by
  rcases h with rfl | rfl <;> decide

variable {r : Recv}

theorem srvDecodes (g : SrvGiven) : SrvDecodes r g (tipcSrvEvt r g) := by
  unfold tipcSrvEvt
  split
  next hres => exact ⟨(if_neg hres).symm, fun _ => rfl, fun h => absurd h hres, fun h => absurd h hres⟩
  next hres =>
    have hres : r.res = sizeofEvent := not_not.mp hres
    split
    next htimeout =>
      refine ⟨(if_pos hres).symm, nofun, fun _ _ => rfl, fun _ h => absurd htimeout (not_timeout h)⟩
    next htimeout => exact ⟨(if_pos hres).symm, nofun, fun _ h => absurd h htimeout, fun _ _ => rfl⟩

/-- What `tipc_neigh_evt` writes without an event is what its local variable has held. -/
theorem neighDecodes_iff (srv : TipcAddr) (g : NeighGiven) : NeighDecodes r g (tipcNeighEvt srv r g) ↔
    g.neighNode = false ∨ r.res = sizeofEvent ∧ r.evt.event ≠ tipcSubscrTimeout := by
  by_cases hres : r.res = sizeofEvent
  · by_cases htimeout : r.evt.event = tipcSubscrTimeout
    · have hcall : tipcNeighEvt srv r g = (0, ⟨write g.neighNode srv.inst, none⟩) := by
        simp [tipcNeighEvt, tipcSrvEvt, hres, htimeout, write]
      rw [hcall, or_iff_left fun h => h.2 htimeout, ← write_eq_none_iff (v := srv.inst)]
      constructor
      · intro h
        exact congrArg NeighWrites.neighNode (h.timeout hres htimeout)
      · intro hnone
        rw [hnone]
        exact ⟨(if_pos hres).symm, nofun, fun _ _ => rfl, fun _ h => absurd htimeout (not_timeout h)⟩
    · have hcall : tipcNeighEvt srv r g = (0, g.all r.evt) := by
        simp [tipcNeighEvt, tipcSrvEvt, hres, htimeout, write, NeighGiven.all]
      rw [hcall]
      exact iff_of_true ⟨(if_pos hres).symm, nofun, fun _ h => absurd h htimeout, fun _ _ => rfl⟩
        (.inr ⟨hres, htimeout⟩)
  · have hcall : tipcNeighEvt srv r g = (-1, ⟨write g.neighNode srv.inst, none⟩) := by
      simp [tipcNeighEvt, tipcSrvEvt, hres]
    rw [hcall, or_iff_left fun h => hres h.1, ← write_eq_none_iff (v := srv.inst)]
    constructor
    · intro h
      exact congrArg NeighWrites.neighNode (h.fails rfl)
    · intro hnone
      rw [hnone]
      exact ⟨(if_neg hres).symm, fun _ => rfl, fun h => absurd h hres, fun h => absurd h hres⟩

/-- No output of `tipc_link_evt` is asked for. -/
def LinkGiven.Nothing (g : LinkGiven) : Prop :=
  g.neighNode = false ∧ g.available = false ∧ g.localBearerid = false ∧ g.remoteBearerid = false

theorem linkGiven_all_eq_iff (g : LinkGiven) (e : Evt) : g.all e = ⟨none, none, none, none⟩ ↔ g.Nothing := by
  simp only [LinkGiven.all, LinkWrites.mk.injEq, write_eq_none_iff]
  rfl

/-- `tipc_link_evt` takes an expired subscription for a lost link. -/
theorem linkDecodes_iff (g : LinkGiven) : LinkDecodes r g (tipcLinkEvt r g) ↔
    g.Nothing ∨ ¬ (r.res = sizeofEvent ∧ r.evt.event = tipcSubscrTimeout) := by
  by_cases hres : r.res = sizeofEvent
  · have hcall : tipcLinkEvt r g = (0, g.all r.evt) := if_neg (not_not.mpr hres)
    rw [hcall]
    by_cases htimeout : r.evt.event = tipcSubscrTimeout
    · rw [or_iff_left fun h => h ⟨hres, htimeout⟩, ← linkGiven_all_eq_iff g r.evt]
      constructor
      · intro h
        exact h.timeout hres htimeout
      · intro hnothing
        exact ⟨(if_pos hres).symm, nofun, fun _ _ => hnothing, fun _ _ => rfl⟩
    · exact iff_of_true ⟨(if_pos hres).symm, nofun, fun _ h => absurd h htimeout, fun _ _ => rfl⟩
        (.inr fun h => htimeout h.2)
  · have hcall : tipcLinkEvt r g = (-1, ⟨none, none, none, none⟩) := if_pos hres
    rw [hcall]
    exact iff_of_true ⟨(if_neg hres).symm, fun _ => rfl, fun h => absurd h hres, fun h => absurd h hres⟩
      (.inr fun h => hres h.1)

/-- **When the decoders leave the outputs alone on a failure, and write what is asked for else.** `tipc_srv_evt` always
    does; `tipc_neigh_evt` does for an event that is no timeout, or without `neigh_node`; `tipc_link_evt` for all but
    timeouts, or without any output. -/
theorem evt_outputs_iff (r : Recv) (srv : TipcAddr) (sg : SrvGiven) (ng : NeighGiven) (lg : LinkGiven) :
    SrvDecodes r sg (tipcSrvEvt r sg) ∧
    SrvDecodes r { sg with id := false } (tipcSrvEvtDemo r sg.srv sg.available sg.expired) ∧
    (NeighDecodes r ng (tipcNeighEvt srv r ng) ↔
      ng.neighNode = false ∨ r.res = sizeofEvent ∧ r.evt.event ≠ tipcSubscrTimeout) ∧
    (NeighDecodes r ng (tipcNeighEvtDemo srv r ng) ↔
      ng.neighNode = false ∨ r.res = sizeofEvent ∧ r.evt.event ≠ tipcSubscrTimeout) ∧
    (LinkDecodes r lg (tipcLinkEvt r lg) ↔
      lg.Nothing ∨ ¬ (r.res = sizeofEvent ∧ r.evt.event = tipcSubscrTimeout)) := by
  refine ⟨srvDecodes sg, ?_, neighDecodes_iff srv ng, ?_, linkDecodes_iff lg⟩
  · rw [tipcSrvEvtDemo_eq]
    exact srvDecodes _
  · rw [tipcNeighEvtDemo_eq]
    exact neighDecodes_iff srv ng

/-- **An output of a call that fails:** where `recv` fails, `tipc_neigh_evt` returns -1, and has written what its local
    variable has held. -/
theorem neigh_evt_writes : ¬ ∀ (r : Recv) (srv : TipcAddr) (sg : SrvGiven) (ng : NeighGiven) (lg : LinkGiven),
    SrvDecodes r sg (tipcSrvEvt r sg) ∧ NeighDecodes r ng (tipcNeighEvt srv r ng) ∧ LinkDecodes r lg (tipcLinkEvt r lg) := by
  intro h
  have hneigh := (h ⟨-1, ⟨0, 0, 0, 0, 0⟩⟩ ⟨0, 7, 0⟩ ⟨true, true, true, true⟩ ⟨true, true⟩ ⟨true, true, true, true⟩).2.1
  exact absurd (hneigh.fails rfl) (by decide)

end Events
end Tipcc
end Tipcutils
