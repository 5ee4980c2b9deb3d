import Tipcutils.Lib.Decimal

/-!
# `Tipc.Addr` — the internal structure of a TIPC node address

A 32-bit node address is `<zone.cluster.node>`: the top 8, the middle 12 and the low 12 bits
(`linux/tipc.h`; `tipclog/tipc.h` is the copy in this repository).
-/

namespace Tipcutils
namespace Tipc

open Decimal

/-- `tipc_zone`: the top 8 bits. -/
def tipcZone (addr : UInt32) : UInt32 := addr >>> 24

/-- `tipc_cluster`: the middle 12 bits. -/
def tipcCluster (addr : UInt32) : UInt32 := (addr >>> 12) &&& 0xfff

/-- `tipc_node`: the low 12 bits. -/
def tipcNode (addr : UInt32) : UInt32 := addr &&& 0xfff

/-- `tipc_addr`. -/
def tipcAddr (zone cluster node : UInt32) : UInt32 := (zone <<< 24) ||| (cluster <<< 12) ||| node

/-- Fields that do not overlap are added. -/
theorem or_fields {z c n : ℕ} (hc : c < 2 ^ 12) (hn : n < 2 ^ 12) :
    z <<< 24 ||| c <<< 12 ||| n = 2 ^ 24 * z + 2 ^ 12 * c + n := by
  have hlow : c <<< 12 < 2 ^ 24 := by
    rw [Nat.shiftLeft_eq]
    omega
  have hhigh : z <<< 24 ||| c <<< 12 = (2 ^ 12 * z + c) <<< 12 := by
    rw [← Nat.shiftLeft_add_eq_or_of_lt hlow, Nat.shiftLeft_eq, Nat.shiftLeft_eq, Nat.shiftLeft_eq]
    omega
  rw [hhigh, ← Nat.shiftLeft_add_eq_or_of_lt hn, Nat.shiftLeft_eq]
  omega

theorem toNat_tipcZone (addr : UInt32) : (tipcZone addr).toNat = addr.toNat / 2 ^ 24 := by
  rw [tipcZone, UInt32.toNat_shiftRight, Nat.shiftRight_eq_div_pow]
  rfl

theorem toNat_tipcCluster (addr : UInt32) : (tipcCluster addr).toNat = addr.toNat / 2 ^ 12 % 2 ^ 12 := by
  rw [tipcCluster, UInt32.toNat_and, UInt32.toNat_shiftRight, Nat.shiftRight_eq_div_pow]
  exact Nat.and_two_pow_sub_one_eq_mod _ 12

theorem toNat_tipcNode (addr : UInt32) : (tipcNode addr).toNat = addr.toNat % 2 ^ 12 := by
  rw [tipcNode, UInt32.toNat_and]
  exact Nat.and_two_pow_sub_one_eq_mod _ 12

/-- A shift that loses no bits. -/
theorem toNat_shiftLeft_of_lt {x s : UInt32} {k : ℕ} (hs : s.toNat % 32 = k) (h : x.toNat * 2 ^ k < 2 ^ 32) :
    (x <<< s).toNat = x.toNat <<< k := by
  rw [← Nat.shiftLeft_eq] at h
  rw [UInt32.toNat_shiftLeft, hs, Nat.mod_eq_of_lt h]

/-- The three fields make up the address. -/
theorem tipcAddr_fields (addr : UInt32) : tipcAddr (tipcZone addr) (tipcCluster addr) (tipcNode addr) = addr := by
  have haddr := addr.toNat_lt
  have hzone := toNat_tipcZone addr
  have hcluster := toNat_tipcCluster addr
  have hnode := toNat_tipcNode addr
  apply UInt32.toNat_inj.mp
  rw [tipcAddr, UInt32.toNat_or, UInt32.toNat_or, toNat_shiftLeft_of_lt (k := 24) rfl (by omega),
    toNat_shiftLeft_of_lt (k := 12) rfl (by omega), or_fields (by omega) (by omega)]
  omega

/-- `struct tipc_addr`. -/
structure TipcAddr where
  type : UInt32
  inst : UInt32
  domain : UInt32
deriving DecidableEq

/-- The text of `tipc_dtoa`. -/
def domainText (domain : UInt32) : Text :=
  fmtU (tipcZone domain).toNat ++ ['.'] ++ fmtU (tipcCluster domain).toNat ++ ['.'] ++ fmtU (tipcNode domain).toNat

/-- What `tipc_dtoa` leaves in a buffer of `len` octets, up to the end of the string. -/
def tipcDtoa (domain : UInt32) (len : ℕ) : Text := (domainText domain).take (len - 1)

end Tipc
end Tipcutils
