import Mathlib.Data.List.Basic
import Tipcutils.Benchmark.Addresses
import Tipcutils.Lib.LastLeast

/-!
# `Benchmark.Nearest` — which server address `select_ip` picks

`select_ip` looks for the pair of addresses with the longest common prefix, but compares how many rounds of the mask loop
each pair takes; these grow more slowly than the number of bits that differ, and of pairs that take as many rounds the last
one counts. **`selectLoop_nearest_iff`** says when it finds the nearest address all the same.
-/

namespace Tipcutils
namespace Benchmark

/-! ## The pairs of a run -/

/-- The rounds of the mask loop for a pair of a server's and a client's address. -/
def maskRounds (p : UInt32 × UInt32) : ℕ := roundsFor (apart p)

/-- The pairs of a server address with each client address. -/
def row (sIp : UInt32) (clients : List UInt32) : List (UInt32 × UInt32) := clients.map fun c => (sIp, c)

/-- The pairs in the order of `select_ip`. -/
def pairs (servers clients : List UInt32) : List (UInt32 × UInt32) := servers.flatMap fun s => row s clients

theorem mem_pairs {servers clients : List UInt32} {s c : UInt32} :
    (s, c) ∈ pairs servers clients ↔ s ∈ servers ∧ c ∈ clients := by
  simp only [pairs, row, List.mem_flatMap, List.mem_map, Prod.mk.injEq]
  constructor
  · rintro ⟨s', hs, c', hc, rfl, rfl⟩
    exact ⟨hs, hc⟩
  · rintro ⟨hs, hc⟩
    exact ⟨s, hs, c, hc, rfl, rfl⟩

/-- What the variables say about the pairs that have been compared. -/
def Select.Inv (done : List (UInt32 × UInt32)) (st : Select) : Prop :=
  match st.ret with
  | some ip => ip = loopback ∧ ∃ p ∈ done, p.1 = p.2
  | none => (∀ p ∈ done, p.1 ≠ p.2) ∧
      (done = [] ∧ st.bestPrefix = 32 ∨
        ∃ p, LastLeast maskRounds done p ∧ st.bestPrefix = .ofNat (maskRounds p) ∧ st.bestIp = p.1)

/-- Accesses do not matter. -/
theorem Select.Inv.congr {done : List (UInt32 × UInt32)} {st : Select} (h : st.Inv done) (reads : List Read) :
    { st with reads := reads }.Inv done := h

theorem ofNat_maskRounds_le_iff (p q : UInt32 × UInt32) :
    UInt32.ofNat (maskRounds q) ≤ .ofNat (maskRounds p) ↔ maskRounds q ≤ maskRounds p := by
  have hp : maskRounds p ≤ 8 := roundsFor_apart_le p
  have hq : maskRounds q ≤ 8 := roundsFor_apart_le q
  rw [UInt32.le_iff_toNat_le, UInt32.toNat_ofNat_of_lt' (show maskRounds p < 2 ^ 32 by omega),
    UInt32.toNat_ofNat_of_lt' (show maskRounds q < 2 ^ 32 by omega)]

/-- One pair. -/
theorem selectClient_inv {cinfo : SrvInfo} {sIp : UInt32} {st : Select} {done : List (UInt32 × UInt32)} (cIpno : ℕ)
    (h : st.Inv done) : ∃ st', selectClient cinfo sIp st cIpno = some st' ∧ st'.Inv (done ++ [(sIp, cinfo.ips cIpno)]) ∧
      st'.reads = if st.ret = none then st.reads ++ [.client cIpno] else st.reads := by
  obtain ⟨bestPrefix, bestIp, ret, reads⟩ := st
  cases ret with
  | some ip =>
    obtain ⟨hip, p, hp, heq⟩ := h
    exact ⟨_, rfl, ⟨hip, p, List.mem_append_left _ hp, heq⟩, rfl⟩
  | none =>
    obtain ⟨hne, hbest⟩ := h
    by_cases heq : cinfo.ips cIpno = sIp
    · refine ⟨⟨bestPrefix, bestIp, some loopback, reads ++ [.client cIpno]⟩, ?_,
        ⟨rfl, _, List.mem_append_right _ (List.mem_singleton_self _), heq.symm⟩, rfl⟩
      rw [selectClient, if_neg (by simp), if_pos heq]
    · have hne' : ∀ p ∈ done ++ [(sIp, cinfo.ips cIpno)], p.1 ≠ p.2 := by
        intro p hp
        rcases List.mem_append.mp hp with hp | hp
        · exact hne p hp
        · rw [List.mem_singleton.mp hp]
          exact Ne.symm heq
      have hrun : selectClient cinfo sIp ⟨bestPrefix, bestIp, none, reads⟩ cIpno =
          some (if UInt32.ofNat (maskRounds (sIp, cinfo.ips cIpno)) ≤ bestPrefix
            then ⟨.ofNat (maskRounds (sIp, cinfo.ips cIpno)), sIp, none, reads ++ [.client cIpno]⟩
            else ⟨bestPrefix, bestIp, none, reads ++ [.client cIpno]⟩) := by
        rw [selectClient, if_neg (by simp), if_neg heq, maskLoop_eq]
        rfl
      refine ⟨_, hrun, ?_, by split <;> rfl⟩
      rcases hbest with ⟨rfl, rfl⟩ | ⟨p, hp, rfl, rfl⟩
      · -- the first pair
        have hle : UInt32.ofNat (maskRounds (sIp, cinfo.ips cIpno)) ≤ 32 := by
          have hrounds : maskRounds (sIp, cinfo.ips cIpno) ≤ 8 := roundsFor_apart_le _
          rw [UInt32.le_iff_toNat_le, UInt32.toNat_ofNat_of_lt' (Nat.lt_of_le_of_lt hrounds (by decide))]
          exact Nat.le_trans hrounds (by decide)
        rw [if_pos hle]
        exact ⟨hne', .inr ⟨_, .singleton maskRounds _, rfl, rfl⟩⟩
      · have hlast := hp.concat (sIp, cinfo.ips cIpno)
        rw [if_congr (ofNat_maskRounds_le_iff p (sIp, cinfo.ips cIpno)) rfl rfl]
        split at hlast
        · next hle =>
          rw [if_pos hle]
          exact ⟨hne', .inr ⟨_, hlast, rfl, rfl⟩⟩
        · next hgt =>
          rw [if_neg hgt]
          exact ⟨hne', .inr ⟨p, hlast, rfl, rfl⟩⟩

/-- Nothing has been returned as long as no pair is one address. -/
theorem Select.Inv.ret_eq_none_iff {done : List (UInt32 × UInt32)} {st : Select} (h : st.Inv done) :
    st.ret = none ↔ ∀ p ∈ done, p.1 ≠ p.2 := by
  obtain ⟨bestPrefix, bestIp, ret, reads⟩ := st
  cases ret with
  | none => exact iff_of_true rfl h.1
  | some ip =>
    obtain ⟨-, p, hp, heq⟩ := h
    exact iff_of_false nofun fun hne => hne p hp heq

/-- One row of pairs. -/
theorem foldlM_selectClient (cinfo : SrvInfo) (sIp : UInt32) (js : List ℕ) {st : Select} {done : List (UInt32 × UInt32)}
    (h : st.Inv done) : ∃ st', js.foldlM (selectClient cinfo sIp) st = some st' ∧
      st'.Inv (done ++ row sIp (js.map cinfo.ips)) ∧ (∀ r ∈ st.reads, r ∈ st'.reads) ∧
      ∀ r ∈ st'.reads, r ∈ st.reads ∨ ∃ j ∈ js, r = .client j := by
  induction js generalizing st done with
  | nil => exact ⟨st, rfl, by simpa [row] using h, fun r hr => hr, fun r hr => .inl hr⟩
  | cons j js ih =>
    obtain ⟨st₁, hst₁, hinv₁, hreads₁⟩ := selectClient_inv j h
    obtain ⟨st', hst', hinv', hkeep, hnew⟩ := ih hinv₁
    have hold : ∀ r ∈ st.reads, r ∈ st₁.reads := by
      intro r hr
      rw [hreads₁]
      split
      · exact List.mem_append_left _ hr
      · exact hr
    refine ⟨st', ?_, ?_, fun r hr => hkeep r (hold r hr), ?_⟩
    · rw [List.foldlM_cons, hst₁]
      exact hst'
    · rw [List.append_assoc] at hinv'
      exact hinv'
    · intro r hr
      rcases hnew r hr with hr | ⟨j', hj', rfl⟩
      · rw [hreads₁] at hr
        split at hr
        · rcases List.mem_append.mp hr with hr | hr
          · exact .inl hr
          · exact .inr ⟨j, List.mem_cons_self, List.mem_singleton.mp hr⟩
        · exact .inl hr
      · exact .inr ⟨j', List.mem_cons_of_mem _ hj', rfl⟩

/-- One server address. -/
theorem selectServer_inv {sinfo cinfo : SrvInfo} {st : Select} {done : List (UInt32 × UInt32)} (i : ℕ) (h : st.Inv done) :
    ∃ st', selectServer sinfo cinfo st i = some st' ∧ st'.Inv (done ++ row (sinfo.ips i) cinfo.addrs) ∧
      (∀ r ∈ st.reads, r ∈ st'.reads) ∧ (st.ret = none → .server i ∈ st'.reads) ∧
      ∀ r ∈ st'.reads, r ∈ st.reads ∨ (st.ret = none ∧ r = .server i) ∨ ∃ j < cinfo.numIps.toNat, r = .client j := by
  by_cases hret : st.ret = none
  · obtain ⟨st', hst', hinv', hkeep, hnew⟩ := foldlM_selectClient cinfo (sinfo.ips i)
      (List.range cinfo.numIps.toNat) (h.congr (st.reads ++ [.server i]))
    refine ⟨st', ?_, hinv', fun r hr => hkeep r (List.mem_append_left _ hr),
      fun _ => hkeep _ (List.mem_append_right _ (List.mem_singleton_self _)), ?_⟩
    · rw [selectServer, if_neg (by simp [hret])]
      exact hst'
    · intro r hr
      rcases hnew r hr with hr | ⟨j, hj, rfl⟩
      · rcases List.mem_append.mp hr with hr | hr
        · exact .inl hr
        · exact .inr (.inl ⟨hret, List.mem_singleton.mp hr⟩)
      · exact .inr (.inr ⟨j, List.mem_range.mp hj, rfl⟩)
  · refine ⟨st, ?_, ?_, fun r hr => hr, fun hnone => absurd hnone hret, fun r hr => .inl hr⟩
    · rw [selectServer, if_pos (Option.isSome_iff_ne_none.mpr hret)]
    · -- the pair that was returned at remains among the pairs
      obtain ⟨bestPrefix, bestIp, ret, reads⟩ := st
      cases ret with
      | none => exact absurd rfl hret
      | some ip =>
        obtain ⟨hip, p, hp, heq⟩ := h
        exact ⟨hip, p, List.mem_append_left _ hp, heq⟩

/-! ## A whole run -/

/-- The pairs of the first `k` server addresses. -/
def pairsTo (sinfo cinfo : SrvInfo) (k : ℕ) : List (UInt32 × UInt32) :=
  pairs ((List.range k).map sinfo.ips) cinfo.addrs

theorem pairsTo_succ (sinfo cinfo : SrvInfo) (k : ℕ) :
    pairsTo sinfo cinfo (k + 1) = pairsTo sinfo cinfo k ++ row (sinfo.ips k) cinfo.addrs := by
  simp [pairsTo, pairs, List.range_succ]

/-- **A run of `select_ip` ends**, and accesses the server addresses up to the first one that is a client address. -/
theorem selectLoop_inv (sinfo cinfo : SrvInfo) (k : ℕ) :
    ∃ st, (List.range k).foldlM (selectServer sinfo cinfo) ⟨32, 0, none, []⟩ = some st ∧
      st.Inv (pairsTo sinfo cinfo k) ∧ (∀ j, .client j ∈ st.reads → j < cinfo.numIps.toNat) ∧
      ∀ i, .server i ∈ st.reads ↔ i < k ∧ ∀ p ∈ pairsTo sinfo cinfo i, p.1 ≠ p.2 := by
  induction k with
  | zero =>
    refine ⟨_, rfl, ⟨nofun, .inl ⟨rfl, rfl⟩⟩, nofun, fun i => iff_of_false nofun ?_⟩
    rintro ⟨hi, -⟩
    exact absurd hi (Nat.not_lt_zero i)
  | succ k ih =>
    obtain ⟨st, hst, hinv, hclient, hserver⟩ := ih
    obtain ⟨st', hst', hinv', hkeep, hread, hnew⟩ := selectServer_inv k hinv
    refine ⟨st', ?_, pairsTo_succ sinfo cinfo k ▸ hinv', ?_, ?_⟩
    · rw [List.range_succ, List.foldlM_append, hst]
      show (selectServer sinfo cinfo st k >>= fun st => some st) = some st'
      rw [hst']
      rfl
    · intro j hj
      rcases hnew _ hj with hj | ⟨-, hj⟩ | ⟨j', hj', hj⟩
      · exact hclient j hj
      · nomatch hj
      · obtain rfl := Read.client.inj hj
        exact hj'
    · intro i
      constructor
      · intro hi
        rcases hnew _ hi with hi | ⟨hnone, hi⟩ | ⟨j', -, hi⟩
        · obtain ⟨hlt, hne⟩ := (hserver i).mp hi
          exact ⟨Nat.lt_succ_of_lt hlt, hne⟩
        · obtain rfl := Read.server.inj hi
          exact ⟨Nat.lt_succ_self i, hinv.ret_eq_none_iff.mp hnone⟩
        · nomatch hi
      · rintro ⟨hlt, hne⟩
        rcases Nat.lt_succ_iff_lt_or_eq.mp hlt with hlt | rfl
        · exact hkeep _ ((hserver i).mpr ⟨hlt, hne⟩)
        · exact hread (hinv.ret_eq_none_iff.mpr hne)

/-! ## The nearest address -/

/-- The longest common prefix of a pair. -/
def prefixOf (p : UInt32 × UInt32) : ℕ := commonPrefix 32 p.1.toNat p.2.toNat

/-- `ip` is a server address that is as near to some client address as any pair is. -/
def Nearest (servers clients : List UInt32) (ip : UInt32) : Prop :=
  ip ∈ servers ∧ ∃ c ∈ clients, ∀ p ∈ pairs servers clients, prefixOf p ≤ prefixOf (ip, c)

/-- What `select_ip` is to return. -/
def SelectsWell (servers clients : List UInt32) (ip : UInt32) : Prop :=
  ((∃ a ∈ servers, a ∈ clients) → ip = loopback) ∧ ((¬ ∃ a ∈ servers, a ∈ clients) → Nearest servers clients ip)

/-- **When the nearest address is picked.** `select_ip` ends, and returns what it is to, if and only if the two lists have
    a common address, or else, of the pairs that take the fewest rounds of the mask loop, the last one is of a server
    address that is nearest. -/
theorem selectLoop_nearest_iff {sinfo cinfo : SrvInfo} (hs : sinfo.numIps ≠ 0) (hc : cinfo.numIps ≠ 0) :
    (∃ st, selectLoop sinfo cinfo = some st ∧ SelectsWell sinfo.addrs cinfo.addrs st.result) ↔
      (∃ a ∈ sinfo.addrs, a ∈ cinfo.addrs) ∨
        ∃ p, LastLeast maskRounds (pairs sinfo.addrs cinfo.addrs) p ∧ Nearest sinfo.addrs cinfo.addrs p.1 := by
  obtain ⟨⟨bestPrefix, bestIp, ret, reads⟩, hst, hinv, -⟩ := selectLoop_inv sinfo cinfo sinfo.numIps.toNat
  have hpairs : pairsTo sinfo cinfo sinfo.numIps.toNat = pairs sinfo.addrs cinfo.addrs := rfl
  rw [hpairs] at hinv
  have hcommon : (∃ a ∈ sinfo.addrs, a ∈ cinfo.addrs) ↔ ∃ p ∈ pairs sinfo.addrs cinfo.addrs, p.1 = p.2 := by
    constructor
    · rintro ⟨a, ha, ha'⟩
      exact ⟨(a, a), mem_pairs.mpr ⟨ha, ha'⟩, rfl⟩
    · rintro ⟨⟨s, c⟩, hp, heq⟩
      obtain ⟨ha, ha'⟩ := mem_pairs.mp hp
      exact ⟨s, ha, (show s = c from heq) ▸ ha'⟩
  rw [selectLoop, hst]
  simp only [Option.some.injEq, exists_eq_left']
  rw [SelectsWell, hcommon]
  cases ret with
  | some ip =>
    obtain ⟨rfl, hex⟩ := hinv
    exact iff_of_true ⟨fun _ => rfl, fun hnone => absurd hex hnone⟩ (.inl hex)
  | none =>
    obtain ⟨hne, hbest⟩ := hinv
    have hnone : ¬ ∃ p ∈ pairs sinfo.addrs cinfo.addrs, p.1 = p.2 := by
      rintro ⟨p, hp, heq⟩
      exact hne p hp heq
    rcases hbest with ⟨hnil, -⟩ | ⟨p, hp, -, hip⟩
    · -- both lists have a first address
      have hfirst : ∀ i : SrvInfo, i.numIps ≠ 0 → i.ips 0 ∈ i.addrs := by
        intro i hi
        refine List.mem_map.mpr ⟨0, List.mem_range.mpr (Nat.pos_of_ne_zero fun h => hi ?_), rfl⟩
        exact UInt16.toNat_inj.mp h
      have hmem : (sinfo.ips 0, cinfo.ips 0) ∈ pairs sinfo.addrs cinfo.addrs := mem_pairs.mpr ⟨hfirst _ hs, hfirst _ hc⟩
      rw [hnil] at hmem
      nomatch hmem
    · have hresult : Select.result ⟨bestPrefix, bestIp, none, reads⟩ = p.1 := hip
      rw [hresult]
      constructor
      · rintro ⟨-, hnear⟩
        exact .inr ⟨p, hp, hnear hnone⟩
      · rintro (hex | ⟨q, hq, hnear⟩)
        · exact absurd hex hnone
        · rw [hp.unique hq]
          exact ⟨fun hex => absurd hex hnone, fun _ => hnear⟩

/-- A list of addresses. -/
def infoOf (ips : List UInt32) : SrvInfo := ⟨.ofNat ips.length, fun i => ips.getD i 0⟩

/-- Three server addresses and two client addresses. -/
theorem selectLoop_nearest_iff_sixPairs :
    let sinfo := infoOf [0xc0a80002, 0xc0a80004, 0x0a000001]
    let cinfo := infoOf [0xc0a80000, 0xc0a80106]
    (∃ st, selectLoop sinfo cinfo = some st ∧ SelectsWell sinfo.addrs cinfo.addrs st.result) ↔
      (∃ a ∈ sinfo.addrs, a ∈ cinfo.addrs) ∨
        ∃ p, LastLeast maskRounds (pairs sinfo.addrs cinfo.addrs) p ∧ Nearest sinfo.addrs cinfo.addrs p.1 :=
  selectLoop_nearest_iff (by decide) (by decide)

/-- **A farther address is picked:** the client 192.168.0.0 has 30 bits in common with the server address 192.168.0.2 and
    29 with 192.168.0.4, both in two rounds of the mask loop, and the second is picked. -/
theorem selectLoop_not_nearest :
    ¬ ∀ sinfo cinfo : SrvInfo, sinfo.numIps ≠ 0 → sinfo.numIps ≤ 16 → cinfo.numIps ≠ 0 → cinfo.numIps ≤ 16 →
      ∃ st, selectLoop sinfo cinfo = some st ∧ SelectsWell sinfo.addrs cinfo.addrs st.result := by
  intro h
  obtain ⟨st, hst, -, hnear⟩ := h (infoOf [0xc0a80002, 0xc0a80004]) (infoOf [0xc0a80000])
    (by decide) (by decide) (by decide) (by decide)
  obtain rfl : st = ⟨2, 0xc0a80004, none, [.server 0, .client 0, .server 1, .client 0]⟩ :=
    Option.some.inj (hst.symm.trans (by decide))
  obtain ⟨-, c, hc, hle⟩ := hnear (by decide)
  obtain rfl : c = 0xc0a80000 := List.mem_singleton.mp hc
  exact absurd (hle (0xc0a80002, 0xc0a80000) (by decide)) (by decide)

end Benchmark
end Tipcutils
