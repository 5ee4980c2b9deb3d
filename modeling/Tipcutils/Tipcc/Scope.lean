import Tipcutils.Tipc.Addr

/-!
# `Tipcc.Scope` — `tipc_bind` in the two copies of the C binding

A name is bound with a scope that is found by comparing a domain with the own node, cluster and zone. The copy of the
multicast blaster takes the first of them that matches (`Blast`), the copy of the API demo takes the last (`Demo`). Only
where two of the three coincide does this make a difference: **`tipcBind_eq_iff`**.
-/

namespace Tipcutils
namespace Tipcc

/-- `struct sockaddr_tipc`, as `tipc_bind` fills it. -/
structure SockaddrTipc where
  family : UInt16
  addrtype : UInt8
  type : UInt32
  lower : UInt32
  upper : UInt32
  /-- a `signed char` -/
  scope : UInt8
deriving DecidableEq

/-- `AF_TIPC`. -/
def afTipc : UInt16 := 30

/-- `TIPC_ADDR_NAMESEQ`. -/
def tipcAddrNameseq : UInt8 := 1

/-- `TIPC_ZONE_SCOPE`, `TIPC_CLUSTER_SCOPE` and `TIPC_NODE_SCOPE`. -/
def tipcZoneScope : UInt8 := 1
def tipcClusterScope : UInt8 := 2
def tipcNodeScope : UInt8 := 3

/-- The address of a name sequence. -/
def nameseqAddr (type lower upper : UInt32) (scope : UInt8) : SockaddrTipc :=
  ⟨afTipc, tipcAddrNameseq, type, lower, upper, scope⟩

theorem nameseqAddr_inj {type lower upper : UInt32} {scope scope' : UInt8} :
    nameseqAddr type lower upper scope = nameseqAddr type lower upper scope' ↔ scope = scope' := by
  simp [nameseqAddr]

/-- `tipc_own_cluster`, where `tipc_own_node` returns `own`. -/
def tipcOwnCluster (own : UInt32) : UInt32 := own &&& ~~~0xfff

/-- `tipc_own_zone`. -/
def tipcOwnZone (own : UInt32) : UInt32 := own &&& ~~~0xffffff

namespace Blast

/-- `domain2scope`. -/
def domain2scope (own domain : UInt32) : UInt8 :=
  if domain = 0 then tipcZoneScope
  else if own = domain then tipcNodeScope
  else if tipcOwnCluster own = domain then tipcClusterScope
  else if tipcOwnZone own = domain then tipcZoneScope
  else 0xff

/-- `my_scope`. -/
def myScope (own domain : UInt32) : Bool := domain2scope own domain ≤ tipcNodeScope

/-- `tipc_bind`: the address that `bind` is called with; `none` is the value -1. -/
def tipcBind (own type lower upper scope : UInt32) : Option SockaddrTipc :=
  let addrScope := domain2scope own scope
  let addrScope := if scope = 0 then tipcZoneScope else addrScope
  if !myScope own scope then none else some (nameseqAddr type lower upper addrScope)

end Blast

namespace Demo

/-- `my_scope`. -/
def myScope (own domain : UInt32) : Bool :=
  if domain = 0 then true
  else if own = domain then true
  else if tipcOwnCluster own = domain then true
  else if tipcOwnZone own = domain then true
  else false

/-- `tipc_bind`: the address that `bind` is called with; `none` is the value -1. -/
def tipcBind (own type lower upper scope : UInt32) : Option SockaddrTipc :=
  let addrScope := 0
  let addrScope := if own = scope then tipcNodeScope else addrScope
  let addrScope := if tipcOwnCluster own = scope then tipcClusterScope else addrScope
  let addrScope := if tipcOwnZone own = scope then tipcZoneScope else addrScope
  let addrScope := if scope = 0 then tipcZoneScope else addrScope
  if !myScope own scope then none else some (nameseqAddr type lower upper addrScope)

end Demo

/-- The two copies accept the same domains. -/
theorem myScope_eq (own domain : UInt32) : Blast.myScope own domain = Demo.myScope own domain := by
  unfold Blast.myScope Blast.domain2scope Demo.myScope
  split
  · decide
  · split
    · decide
    · split
      · decide
      · split <;> decide

/-- A node that is its own zone is its own cluster. -/
theorem tipcOwnCluster_of_zone {own : UInt32} (h : tipcOwnZone own = own) : tipcOwnCluster own = own :=
  calc tipcOwnCluster own = tipcOwnZone own &&& ~~~0xfff := by rw [h, tipcOwnCluster]
    _ = own &&& (~~~0xffffff &&& ~~~0xfff) := UInt32.and_assoc _ _ _
    _ = tipcOwnZone own := rfl
    _ = own := h

/-- **Where the two copies bind alike.** They do, or both refuse, if and only if the domain is 0, or is not the own
    cluster, or the own cluster is neither the own node nor the own zone. -/
theorem tipcBind_eq_iff (own type lower upper scope : UInt32) :
    Blast.tipcBind own type lower upper scope = Demo.tipcBind own type lower upper scope ↔
      scope = 0 ∨ tipcOwnCluster own ≠ scope ∨ own ≠ scope ∧ tipcOwnZone own ≠ scope := by
  unfold Blast.tipcBind Demo.tipcBind
  rw [myScope_eq]
  by_cases h0 : scope = 0
  · simp [h0]
  · unfold Demo.myScope Blast.domain2scope
    by_cases hnode : own = scope
    · subst hnode
      by_cases hzone : tipcOwnZone own = own
      · simp [h0, hzone, tipcOwnCluster_of_zone hzone, nameseqAddr_inj, tipcNodeScope, tipcZoneScope]
      · by_cases hcluster : tipcOwnCluster own = own
        · simp [h0, hzone, hcluster, nameseqAddr_inj, tipcNodeScope, tipcClusterScope]
        · simp [h0, hzone, hcluster]
    · by_cases hcluster : tipcOwnCluster own = scope
      · by_cases hzone : tipcOwnZone own = scope
        · simp [h0, hnode, hcluster, hzone, nameseqAddr_inj, tipcClusterScope, tipcZoneScope]
        · simp [h0, hnode, hcluster, hzone]
      · by_cases hzone : tipcOwnZone own = scope
        · simp [h0, hnode, hcluster, hzone]
        · simp [h0, hnode, hcluster, hzone]

/-- On the node `1.1.0`, a name for this node: the scope is the node in one copy and the cluster in the other. -/
theorem tipcBind_differs :
    ¬ ∀ own type lower upper scope : UInt32,
      Blast.tipcBind own type lower upper scope = Demo.tipcBind own type lower upper scope := by
  intro h
  exact absurd (h 0x01001000 18888 17 17 0x01001000) (by decide)

end Tipcc
end Tipcutils
