import Tipcutils.Inventory.Accounting

/-!
# `Inventory.OneBuyer` — an item goes to one buyer

An item stops at its first successful reply (`ItemTask.Ok.soldTo_eq`), and a customer reads only replies that
were sent on its own connections (`Cluster.linked`). **`oneBuyer`** puts the two together: whatever the
interleaving of requests, replies, timeouts and failed sends, an item's reply is read by at most one customer,
and a customer that reports a sale has an item that nobody else obtained.
-/

namespace Tipcutils
namespace Inventory

variable {σ ι κ : Type}

namespace Cluster

/-- Nobody shares an item, and a customer gets at most one. -/
structure OneBuyer (s : Cluster σ ι κ) : Prop where
  /-- an item's reply goes out on at most one connection -/
  repliesOnce : ∀ x, (s.item x).soldTo.length ≤ 1
  /-- at most one customer reads it -/
  oneReader : ∀ x c d, x ∈ (s.cust c).reads → x ∈ (s.cust d).reads → c = d
  readsOnce : ∀ c, (s.cust c).reads.length ≤ 1
  reportsOnce : ∀ c, (s.cust c).reports.length ≤ 1
  /-- a report with a marker is a sale (`logTransaction_custOut_sale`) -/
  sale : ∀ c, ∀ text ∈ (s.cust c).reports, '<' ∈ text →
    ∃ x, (s.cust c).reads = [x] ∧ (∃ id, (s.item x).soldTo = [.cust c id]) ∧ ∀ d, x ∈ (s.cust d).reads → d = c

variable [DecidableEq σ] [DecidableEq ι] [DecidableEq κ] {m : Sim σ ι κ} {s : Cluster σ ι κ}

/-- An item that a customer has read has sold itself to that customer and to nobody else. -/
theorem soldTo_of_read (h : Reachable m s) {c : κ} {x : ι} (hx : x ∈ (s.cust c).reads) :
    ∃ id, (s.item x).soldTo = [.cust c id] := by
  obtain ⟨id, hsent⟩ := (linked h c).reads x hx
  exact ⟨id, (item_ok h x).soldTo_eq hsent⟩

theorem reader_unique (h : Reachable m s) {c d : κ} {x : ι} (hc : x ∈ (s.cust c).reads)
    (hd : x ∈ (s.cust d).reads) : c = d := by
  obtain ⟨id, hid⟩ := soldTo_of_read h hc
  obtain ⟨id', hid'⟩ := soldTo_of_read h hd
  rw [hid] at hid'
  cases hid'
  rfl

/-- **One buyer per item.** -/
theorem oneBuyer (h : Reachable m s) : s.OneBuyer where
  repliesOnce x := by
    rcases (item_ok h x).phase with ⟨-, -, hsold⟩ | ⟨-, -, hsold⟩ | ⟨p, -, hsold⟩ <;> simp [hsold]
  oneReader x c d := reader_unique h
  readsOnce c := by
    rcases (cust_ok h c).phase with ⟨-, -, hreads, -⟩ | ⟨-, -, hreads, -⟩ | ⟨_, -, -, _, _, -, hlast⟩
    · simp [hreads]
    · simp [hreads]
    · rcases hlast with ⟨hreads, -⟩ | ⟨x, hreads, -⟩ <;> simp [hreads]
  reportsOnce c := by
    rcases (cust_ok h c).phase with ⟨-, -, -, hreps⟩ | ⟨-, -, -, hreps⟩ | ⟨_, -, hreps, -⟩ <;> simp [hreps]
  sale c text htext hmark := by
    rcases (cust_ok h c).phase with ⟨-, -, -, hreps⟩ | ⟨-, -, -, hreps⟩ | ⟨rep, -, hreps, _, last, rfl, hlast⟩
    · simp [hreps] at htext
    · simp [hreps] at htext
    · obtain rfl : text = _ := List.mem_singleton.mp (hreps ▸ htext)
      rcases hlast with ⟨-, hno⟩ | ⟨x, hreads, -⟩
      · exact absurd (lt_mem_custOutText.mp hmark) hno
      · have hx : x ∈ (s.cust c).reads := by simp [hreads]
        exact ⟨x, hreads, soldTo_of_read h hx, fun d hd => reader_unique h hd hx⟩

end Cluster

/-- The sale of `twoStoresSale`: the item sold itself to the customer that reports it. -/
theorem oneBuyer_twoStores :
    (Lts.final (Cluster.step twoStores) .initial twoStoresSale (by decide)).OneBuyer :=
  Cluster.oneBuyer (Lts.reach_final _)

end Inventory
end Tipcutils
