import Mathlib.Data.List.GetD
import Tipcutils.Benchmark.Nearest

/-!
# `Benchmark.Bounds` — when the address lists stay within their arrays

`get_ip_list` stores as many addresses as the host has interfaces with one, and sets the count only along with an
address; `select_ip` trusts the count of a message. **`addresses_within_iff`** says when all accesses are within the
arrays, and the count is that of the list.
-/

namespace Tipcutils
namespace Benchmark

open Decimal

variable {ifname : Option Text}

/-! ## The list of a host -/

/-- The addresses that are registered before the interface `ifname`, or of all interfaces if there is none. -/
def registered (ifname : Option Text) (ifs : List Ifreq) : List UInt32 :=
  ((ifs.takeWhile fun item => ifname ≠ some item.name).filter fun item => registers item.addr).map Ifreq.addr

/-- The address of the interface `ifname`. -/
def named (ifname : Option Text) (ifs : List Ifreq) : Option UInt32 :=
  (ifs.find? fun item => ifname = some item.name).map Ifreq.addr

/-- The list of a host: the address of the interface that is asked for, or else all that are registered. -/
def listed (ifname : Option Text) (ifs : List Ifreq) : List UInt32 :=
  match named ifname ifs with
  | some addr => [addr]
  | none => registered ifname ifs

/-- The list that some stores leave: a store ends the list. -/
def storedList (stores : List (ℕ × UInt32)) : List UInt32 := stores.foldl (fun l s => l.take s.1 ++ [s.2]) []

/-- The state of `get_ip_list` when it has registered the addresses `r`, from a count `n` on. -/
structure Registered (n : UInt16) (r : List UInt32) (l : IpList) : Prop where
  ipNo : l.ipNo = r.length
  list : storedList l.stores = r
  index : ∀ i, (∃ s ∈ l.stores, s.1 = i) ↔ i < r.length
  ips : ∀ i < r.length, l.sinfo.ips i = r.getD i 0
  numIps : l.sinfo.numIps = if r = [] then n else .ofNat r.length

theorem storedList_concat (stores : List (ℕ × UInt32)) (i : ℕ) (addr : UInt32) :
    storedList (stores ++ [(i, addr)]) = (storedList stores).take i ++ [addr] := by
  rw [storedList, List.foldl_append]
  rfl

theorem Registered.start (sinfo : SrvInfo) : Registered sinfo.numIps [] ⟨sinfo, 0, []⟩ :=
  ⟨rfl, rfl, fun i => iff_of_false nofun (Nat.not_lt_zero i), nofun, rfl⟩

/-- One more address is registered. -/
theorem Registered.store {n : UInt16} {r : List UInt32} {l : IpList} (h : Registered n r l) (addr : UInt32) :
    Registered n (r ++ [addr]) (l.store l.ipNo addr (l.ipNo + 1)) where
  ipNo := by
    rw [List.length_append, List.length_singleton, ← h.ipNo]
    rfl
  list := by
    rw [IpList.store, storedList_concat, h.list, h.ipNo, List.take_length]
  index i := by
    have hsplit : (∃ s ∈ l.stores ++ [(l.ipNo, addr)], s.1 = i) ↔ (∃ s ∈ l.stores, s.1 = i) ∨ l.ipNo = i := by
      simp only [List.mem_append, List.mem_singleton, or_and_right, exists_or, exists_eq_left]
    rw [IpList.store, hsplit, h.index, h.ipNo, List.length_append, List.length_singleton]
    omega
  ips i hi := by
    rw [List.length_append, List.length_singleton] at hi
    by_cases hlast : i = r.length
    · subst hlast
      rw [List.getD_append_right _ _ _ _ (Nat.le_refl _), Nat.sub_self, IpList.store, h.ipNo]
      exact Function.update_self ..
    · rw [List.getD_append _ _ _ _ (by omega), ← h.ips i (by omega), IpList.store, h.ipNo]
      exact Function.update_of_ne hlast ..
  numIps := by
    rw [if_neg (by simp), List.length_append, List.length_singleton, ← h.ipNo]
    rfl

/-- What the loop leaves: the list of the registered addresses, and over its start the address that is asked for. -/
theorem getIpLoop_spec (ifname : Option Text) {n : UInt16} {r : List UInt32} {l : IpList} (h : Registered n r l) (ifs : List Ifreq) :
    ∃ l', Registered n (r ++ registered ifname ifs) l' ∧
      getIpLoop ifname l ifs = match named ifname ifs with
        | some addr => l'.store 0 addr l'.ipNo
        | none => l' := by
  induction ifs generalizing r l with
  | nil => exact ⟨l, by simpa [registered] using h, rfl⟩
  | cons item ifs ih =>
    by_cases hname : ifname = some item.name
    · refine ⟨l, ?_, ?_⟩
      · simpa [registered, hname] using h
      · simp [getIpLoop, named, hname]
    · have hnamed : named ifname (item :: ifs) = named ifname ifs := by
        rw [named, List.find?_cons_of_neg (by simpa using hname)]
        rfl
      rw [hnamed, getIpLoop, if_neg hname]
      by_cases haddr : registers item.addr = true
      · have hreg : registered ifname (item :: ifs) = item.addr :: registered ifname ifs := by
          simp [registered, hname, haddr]
        obtain ⟨l', hl', heq⟩ := ih (h.store item.addr)
        rw [List.append_assoc, List.singleton_append, ← hreg] at hl'
        exact ⟨l', hl', by rw [if_pos haddr]; exact heq⟩
      · have hreg : registered ifname (item :: ifs) = registered ifname ifs := by
          simp [registered, hname, haddr]
        obtain ⟨l', hl', heq⟩ := ih h
        exact ⟨l', hreg ▸ hl', by rw [if_neg haddr]; exact heq⟩

/-- `get_ip_list` stores within the array only, and counts its list. -/
def GetsWithin (ifname : Option Text) (sinfo : SrvInfo) (ifs : List Ifreq) : Prop :=
  let l := getIpList ifname sinfo ifs
  (∀ s ∈ l.stores, s.1 < maxIps) ∧ l.sinfo.numIps.toNat ≤ maxIps ∧ l.sinfo.numIps.toNat = (storedList l.stores).length

/-- Up to 16 addresses, and a count that is set, or was 0 before. -/
def ListFits (ifname : Option Text) (sinfo : SrvInfo) (ifs : List Ifreq) : Prop :=
  (registered ifname ifs).length ≤ maxIps ∧ (listed ifname ifs = [] → sinfo.numIps = 0)

/-- The stores of the registered addresses. -/
theorem Registered.within_iff {n : UInt16} {r : List UInt32} {l : IpList} (h : Registered n r l) :
    (∀ s ∈ l.stores, s.1 < maxIps) ↔ r.length ≤ maxIps := by
  constructor
  · intro hall
    rw [← Nat.not_lt]
    intro hlt
    obtain ⟨s, hs, hi⟩ := (h.index maxIps).mpr hlt
    exact absurd (hall s hs) (by omega)
  · intro hle s hs
    exact Nat.lt_of_lt_of_le ((h.index s.1).mp ⟨s, hs, rfl⟩) hle

/-- The count of the registered addresses. -/
theorem Registered.count_iff {n : UInt16} {r : List UInt32} {l : IpList} (h : Registered n r l)
    (hlen : r.length ≤ maxIps) :
    (l.sinfo.numIps.toNat ≤ maxIps ∧ l.sinfo.numIps.toNat = (storedList l.stores).length) ↔ (r = [] → n = 0) := by
  have hmax : maxIps = 16 := rfl
  rw [h.numIps, h.list]
  by_cases hnil : r = []
  · subst hnil
    simp only [if_pos, List.length_nil, true_implies, ← UInt16.toNat_inj]
    constructor
    · exact fun hcount => hcount.2
    · exact fun hzero => ⟨hzero ▸ Nat.zero_le _, hzero⟩
  · have hcount : (UInt16.ofNat r.length).toNat = r.length :=
      UInt16.toNat_ofNat_of_lt' (show r.length < 2 ^ 16 by omega)
    rw [if_neg hnil, hcount]
    exact iff_of_true ⟨hlen, rfl⟩ fun h => absurd h hnil

theorem getsWithin_iff (ifname : Option Text) (sinfo : SrvInfo) (ifs : List Ifreq) :
    GetsWithin ifname sinfo ifs ↔ ListFits ifname sinfo ifs := by
  obtain ⟨l, hl, heq⟩ := getIpLoop_spec ifname (Registered.start sinfo) ifs
  rw [List.nil_append] at hl
  rw [GetsWithin, getIpList, heq, ListFits, listed]
  cases named ifname ifs with
  | none =>
    simp only
    rw [hl.within_iff]
    constructor
    · rintro ⟨hlen, hcount⟩
      exact ⟨hlen, (hl.count_iff hlen).mp hcount⟩
    · rintro ⟨hlen, hcount⟩
      exact ⟨hlen, (hl.count_iff hlen).mpr hcount⟩
  | some addr =>
    -- one more store, at the start of the list
    have hstores : (∀ s ∈ l.stores ++ [(0, addr)], s.1 < maxIps) ↔ ∀ s ∈ l.stores, s.1 < maxIps := by
      simp [or_imp, forall_and, maxIps]
    simp only [IpList.store]
    rw [hstores, hl.within_iff, storedList_concat]
    constructor
    · exact fun h => ⟨h.1, nofun⟩
    · exact fun h => ⟨h.1, by decide, rfl⟩

/-- A list that fits is the list of the host. -/
theorem addrs_getIpList {sinfo : SrvInfo} {ifs : List Ifreq} (h : ListFits ifname sinfo ifs) :
    (getIpList ifname sinfo ifs).sinfo.addrs = listed ifname ifs := by
  obtain ⟨l, hl, heq⟩ := getIpLoop_spec ifname (Registered.start sinfo) ifs
  rw [List.nil_append] at hl
  obtain ⟨hlen, hcount⟩ := h
  rw [getIpList, heq]
  rw [listed] at hcount ⊢
  cases hnamed : named ifname ifs with
  | some addr => rfl
  | none =>
    rw [hnamed] at hcount
    simp only at hcount ⊢
    have hnum : l.sinfo.numIps.toNat = (registered ifname ifs).length := by
      rw [((hl.count_iff hlen).mpr hcount).2, hl.list]
    apply List.ext_getElem
    · rw [SrvInfo.addrs, List.length_map, List.length_range, hnum]
    · intro i hi hi'
      simp only [SrvInfo.addrs, List.getElem_map, List.getElem_range]
      rw [hl.ips i hi', List.getD_eq_getElem _ _ hi']

/-! ## The accesses of `select_ip` -/

/-- `select_ip` ends, and reads within the arrays only. -/
def SelectsWithin (sinfo cinfo : SrvInfo) : Prop :=
  ∃ st, selectLoop sinfo cinfo = some st ∧ ∀ r ∈ st.reads, r.index < maxIps

/-- With a client list that fits, the server list fits, or its first part has a client address. -/
theorem selectsWithin_iff {sinfo cinfo : SrvInfo} (hc : cinfo.numIps.toNat ≤ maxIps) :
    SelectsWithin sinfo cinfo ↔ sinfo.numIps.toNat ≤ maxIps ∨ ∃ i < maxIps, sinfo.ips i ∈ cinfo.addrs := by
  obtain ⟨st, hst, -, hclient, hserver⟩ := selectLoop_inv sinfo cinfo sinfo.numIps.toNat
  have hmatch : (∃ i < maxIps, sinfo.ips i ∈ cinfo.addrs) ↔ ∃ p ∈ pairsTo sinfo cinfo maxIps, p.1 = p.2 := by
    constructor
    · rintro ⟨i, hi, hmem⟩
      exact ⟨_, mem_pairs.mpr ⟨List.mem_map.mpr ⟨i, List.mem_range.mpr hi, rfl⟩, hmem⟩, rfl⟩
    · rintro ⟨⟨s, c⟩, hp, heq⟩
      obtain ⟨hs, hc⟩ := mem_pairs.mp hp
      obtain ⟨i, hi, rfl⟩ := List.mem_map.mp hs
      exact ⟨i, List.mem_range.mp hi, (show sinfo.ips i = c from heq) ▸ hc⟩
  have hreads : (∀ r ∈ st.reads, r.index < maxIps) ↔ .server maxIps ∉ st.reads := by
    constructor
    · exact fun hall hmem => absurd (hall _ hmem) (Nat.lt_irrefl maxIps)
    · intro hnot r hr
      cases r with
      | client j => exact Nat.lt_of_lt_of_le (hclient j hr) hc
      | server i =>
        -- an access behind the array comes after the access right behind it
        rw [← Nat.not_le]
        intro hle
        obtain ⟨hi, hne⟩ := (hserver i).mp hr
        refine hnot ((hserver maxIps).mpr ⟨Nat.lt_of_le_of_lt hle hi, fun p hp => hne p ?_⟩)
        obtain ⟨s, c⟩ := p
        obtain ⟨hs, hc⟩ := mem_pairs.mp hp
        obtain ⟨k, hk, rfl⟩ := List.mem_map.mp hs
        exact mem_pairs.mpr
          ⟨List.mem_map.mpr ⟨k, List.mem_range.mpr (Nat.lt_of_lt_of_le (List.mem_range.mp hk) hle), rfl⟩, hc⟩
  rw [SelectsWithin, selectLoop, hst, hmatch]
  simp only [Option.some.injEq, exists_eq_left']
  rw [hreads, hserver, not_and_or, Nat.not_lt]
  simp

/-- **When all accesses are within the arrays.** For the interfaces of a client, the interface it is asked for, what its
    uninitialised list holds before, and the list that a message brings: both functions stay within the arrays, and the
    count is that of the list, if and only if at most 16 addresses are registered, the list has an address or its count
    was 0 before, and the message counts at most 16 addresses, or one of its first 16 is an address of the client. -/
theorem addresses_within_iff (ifname : Option Text) (cinfo : SrvInfo) (ifs : List Ifreq) (sinfo : SrvInfo) :
    (GetsWithin ifname cinfo ifs ∧ SelectsWithin sinfo (getIpList ifname cinfo ifs).sinfo) ↔
      ((registered ifname ifs).length ≤ maxIps ∧ (listed ifname ifs = [] → cinfo.numIps = 0)) ∧
        (sinfo.numIps.toNat ≤ maxIps ∨ ∃ i < maxIps, sinfo.ips i ∈ listed ifname ifs) := by
  rw [getsWithin_iff]
  refine and_congr_right fun hfits => ?_
  obtain ⟨-, hcount, -⟩ := (getsWithin_iff ifname cinfo ifs).mpr hfits
  rw [selectsWithin_iff hcount, addrs_getIpList hfits]

/-- A host with 17 interfaces. -/
def manyIfs : List Ifreq := (List.range 17).map fun i => ⟨fmtU i, 0xc0a80001 + .ofNat i⟩

/-- **A store behind the array.** -/
theorem addresses_overflow : ¬ ∀ (ifname : Option Text) (cinfo : SrvInfo) (ifs : List Ifreq) (sinfo : SrvInfo),
    ifs.length * 40 ≤ 8192 →
      GetsWithin ifname cinfo ifs ∧ SelectsWithin sinfo (getIpList ifname cinfo ifs).sinfo := by
  intro h
  have hgets := (h none (infoOf []) manyIfs (infoOf []) (by decide)).1
  rw [getsWithin_iff] at hgets
  exact absurd hgets.1 (by decide)

end Benchmark
end Tipcutils
