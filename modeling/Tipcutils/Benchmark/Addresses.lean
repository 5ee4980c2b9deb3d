import Mathlib.Data.Nat.Find
import Mathlib.Logic.Function.Basic
import Tipcutils.Lib.Decimal
import Tipcutils.Lib.LeadingBits
import Tipcutils.Lib.While

/-!
# `Benchmark.Addresses` — the address lists of the TIPC benchmark

`get_ip_list` makes the list of the addresses of a host, in the server and in the client, and `select_ip` compares the
lists of both. The arrays have 16 entries, and neither function knows: the model keeps the memory from `ips[0]` on, and a
trace of the indices that are written and read.

Addresses and counts are in host order here; both sides convert them.
-/

namespace Tipcutils
namespace Benchmark

open Decimal

/-! ## The lists -/

/-- `struct srv_info` without the port. `ips` is the memory from `ips[0]` on. -/
structure SrvInfo where
  numIps : UInt16
  ips : ℕ → UInt32

/-- The length of the array `ips`. -/
def maxIps : ℕ := 16

/-- The addresses that are counted. -/
def SrvInfo.addrs (i : SrvInfo) : List UInt32 := (List.range i.numIps.toNat).map i.ips

/-- `struct ifreq`, with the address that `SIOCGIFADDR` leaves in it. -/
structure Ifreq where
  name : Text
  addr : UInt32

/-- The address 127.0.0.1. -/
def loopback : UInt32 := 0x7f000001

/-- The state of `get_ip_list`: what it stores where, and its variable `ip_no`. -/
structure IpList where
  sinfo : SrvInfo
  ipNo : ℕ
  stores : List (ℕ × UInt32)

/-- An address is stored, and counted. -/
def IpList.store (l : IpList) (i : ℕ) (addr : UInt32) (ipNo : ℕ) : IpList :=
  ⟨⟨.ofNat (i + 1), Function.update l.sinfo.ips i addr⟩, ipNo, l.stores ++ [(i, addr)]⟩

/-- Whether an address is registered. -/
def registers (addr : UInt32) : Bool := addr ≠ 0 ∧ addr ≠ loopback

/-- The loop of `get_ip_list`. -/
def getIpLoop (ifname : Option Text) : IpList → List Ifreq → IpList
  | l, [] => l
  | l, item :: items =>
    if ifname = some item.name then l.store 0 item.addr l.ipNo
    else if registers item.addr then getIpLoop ifname (l.store l.ipNo item.addr (l.ipNo + 1)) items
    else getIpLoop ifname l items

/-- `get_ip_list`. -/
def getIpList (ifname : Option Text) (sinfo : SrvInfo) (ifs : List Ifreq) : IpList := getIpLoop ifname ⟨sinfo, 0, []⟩ ifs

/-! ## `select_ip` -/

/-- The variables `mask` and `shift`. -/
structure Mask where
  mask : UInt32
  shift : UInt32
deriving DecidableEq

/-- The loop that shifts the mask; each round shifts by one more than the one before. -/
def maskLoop (cIp sIp : UInt32) : Option Mask :=
  whileLoop (fun m => decide (cIp &&& m.mask ≠ sIp &&& m.mask)) (fun m => some ⟨m.mask <<< (m.shift + 1), m.shift + 1⟩)
    33 ⟨0xffffffff, 0⟩

/-- An access to one of the arrays. -/
inductive Read where
  | server (i : ℕ)
  | client (i : ℕ)
deriving DecidableEq

def Read.index : Read → ℕ
  | .server i => i
  | .client i => i

/-- The variables of `select_ip`; `ret` is the value that it has returned. -/
structure Select where
  bestPrefix : UInt32
  bestIp : UInt32
  ret : Option UInt32
  reads : List Read
deriving DecidableEq

/-- A round of the inner loop. -/
def selectClient (cinfo : SrvInfo) (sIp : UInt32) (st : Select) (cIpno : ℕ) : Option Select :=
  if st.ret.isSome then some st
  else
    let cIp := cinfo.ips cIpno
    let reads := st.reads ++ [.client cIpno]
    if cIp = sIp then some { st with ret := some loopback, reads := reads }
    else
      (maskLoop cIp sIp).map fun m =>
        if m.shift ≤ st.bestPrefix then { st with bestPrefix := m.shift, bestIp := sIp, reads := reads }
        else { st with reads := reads }

/-- A round of the outer loop. -/
def selectServer (sinfo cinfo : SrvInfo) (st : Select) (sIpno : ℕ) : Option Select :=
  if st.ret.isSome then some st
  else
    (List.range cinfo.numIps.toNat).foldlM (selectClient cinfo (sinfo.ips sIpno))
      { st with reads := st.reads ++ [.server sIpno] }

/-- `select_ip` after the call of `get_ip_list`: the state in which it ends. -/
def selectLoop (sinfo cinfo : SrvInfo) : Option Select :=
  (List.range sinfo.numIps.toNat).foldlM (selectServer sinfo cinfo) ⟨32, 0, none, []⟩

/-- What it returns. -/
def Select.result (st : Select) : UInt32 := st.ret.getD st.bestIp

/-! ## The mask -/

/-- How many bits the mask has lost after some rounds. -/
def cleared : ℕ → ℕ
  | 0 => 0
  | t + 1 => cleared t + (t + 1)

theorem le_cleared (t : ℕ) : t ≤ cleared t := by
  induction t with
  | zero => exact Nat.le_refl 0
  | succ t ih => exact Nat.le_add_left _ _

theorem cleared_mono {t u : ℕ} (h : t ≤ u) : cleared t ≤ cleared u := by
  induction h with
  | refl => exact Nat.le_refl _
  | step _ ih => exact Nat.le_trans ih (Nat.le_add_right _ _)

/-- How many rounds it takes to clear `d` bits. -/
def roundsFor (d : ℕ) : ℕ := Nat.find (⟨d, le_cleared d⟩ : ∃ t, d ≤ cleared t)

theorem roundsFor_le_iff {d t : ℕ} : roundsFor d ≤ t ↔ d ≤ cleared t := by
  rw [roundsFor, Nat.find_le_iff]
  exact ⟨fun ⟨_, hle, hd⟩ => Nat.le_trans hd (cleared_mono hle), fun h => ⟨t, Nat.le_refl t, h⟩⟩

/-- The mask after `t` rounds. -/
def maskAfter (t : ℕ) : Mask := ⟨.ofNat (highMask 32 (cleared t)), .ofNat t⟩

theorem maskAfter_toNat (t : ℕ) : (maskAfter t).mask.toNat = highMask 32 (cleared t) :=
  UInt32.toNat_ofNat_of_lt' (Nat.mod_lt _ (by decide))

/-- A shift count below the width of a word. -/
theorem maskAfter_succ {t : ℕ} (ht : t < 31) :
    (⟨(maskAfter t).mask <<< ((maskAfter t).shift + 1), (maskAfter t).shift + 1⟩ : Mask) = maskAfter (t + 1) := by
  have hshift : ((maskAfter t).shift + 1).toNat = t + 1 := by
    show (UInt32.ofNat t + 1).toNat = t + 1
    simp
    omega
  have hmask : ((maskAfter t).mask <<< ((maskAfter t).shift + 1)).toNat = (maskAfter (t + 1)).mask.toNat := by
    rw [UInt32.toNat_shiftLeft, hshift, maskAfter_toNat, maskAfter_toNat, Nat.mod_eq_of_lt (show t + 1 < 32 by omega)]
    exact highMask_shiftLeft 32 (cleared t) (t + 1)
  have hshift' : (maskAfter t).shift + 1 = (maskAfter (t + 1)).shift := by
    apply UInt32.toNat_inj.mp
    rw [hshift]
    exact (UInt32.toNat_ofNat_of_lt' (show t + 1 < 2 ^ 32 by omega)).symm
  rw [UInt32.toNat_inj.mp hmask, hshift']

/-- The low bits in which two addresses differ. -/
def apart (p : UInt32 × UInt32) : ℕ := lowBits p.1.toNat p.2.toNat

theorem apart_le (p : UInt32 × UInt32) : apart p ≤ 32 := lowBits_le_width p.1.toNat_lt p.2.toNat_lt

/-- When the mask makes two addresses equal. -/
theorem masked_eq_iff (cIp sIp : UInt32) (t : ℕ) :
    cIp &&& (maskAfter t).mask = sIp &&& (maskAfter t).mask ↔ roundsFor (apart (sIp, cIp)) ≤ t := by
  rw [roundsFor_le_iff, apart, ← and_mask_eq_iff sIp.toNat_lt cIp.toNat_lt, ← UInt32.toNat_inj, UInt32.toNat_and,
    UInt32.toNat_and, maskAfter_toNat, eq_comm]

theorem roundsFor_apart_le (p : UInt32 × UInt32) : roundsFor (apart p) ≤ 8 :=
  roundsFor_le_iff.mpr (Nat.le_trans (apart_le p) (by decide))

/-- **The mask loop ends**, after as many rounds as it takes to clear the bits that differ. -/
theorem maskLoop_eq (cIp sIp : UInt32) : maskLoop cIp sIp = some (maskAfter (roundsFor (apart (sIp, cIp)))) := by
  have hle := roundsFor_apart_le (sIp, cIp)
  have hguard : ∀ t, decide (cIp &&& (maskAfter t).mask ≠ sIp &&& (maskAfter t).mask) =
      decide (t < roundsFor (apart (sIp, cIp))) := by
    intro t
    rw [decide_eq_decide, ne_eq, masked_eq_iff, Nat.not_le]
  generalize roundsFor (apart (sIp, cIp)) = n at hle hguard ⊢
  -- the rounds from the `t`-th on
  have hrun : ∀ k t, t + k = n → Rounds (fun m : Mask => decide (cIp &&& m.mask ≠ sIp &&& m.mask))
      (fun m => some ⟨m.mask <<< (m.shift + 1), m.shift + 1⟩) k (maskAfter t) (maskAfter n) := by
    intro k
    induction k with
    | zero =>
      rintro t rfl
      exact .refl
    | succ k ih =>
      intro t ht
      refine .head ?_ (congrArg some (maskAfter_succ (by omega))) (ih (t + 1) (by omega))
      rw [hguard]
      exact decide_eq_true (by omega)
  obtain ⟨fuel, hfuel⟩ : ∃ fuel, 33 = n + (fuel + 1) := ⟨32 - n, by omega⟩
  have hstop : decide (cIp &&& (maskAfter n).mask ≠ sIp &&& (maskAfter n).mask) = false := by
    rw [hguard]
    exact decide_eq_false (Nat.lt_irrefl n)
  rw [maskLoop, hfuel, show (⟨0xffffffff, 0⟩ : Mask) = maskAfter 0 from rfl, (hrun n 0 (Nat.zero_add n)).whileLoop]
  exact whileLoop_of_false hstop

end Benchmark
end Tipcutils
