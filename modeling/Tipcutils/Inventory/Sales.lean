import Tipcutils.Inventory.OneBuyer

/-!
# `Inventory.Sales` — sales across the cluster

A seller and a buyer report the same sale to two logging tasks, so the totals of the stores can agree only when no
task is between its two reports (`Quiescent`), and even then two things keep them apart
(**`sales_unbalanced`**): an item may reply to a customer that has just given up, and a closed store records no
sale of an item that a customer of another store still obtains. **`sales_balance`** says that these are all.

The proof counts: a sale is a customer that has read a reply, and such customers are in bijection with
the items they have taken (`card_readers`).
-/

set_option linter.unusedSectionVars false

namespace Tipcutils
namespace Inventory

open Finset

variable {σ ι κ : Type}

namespace Cluster

/-- No item or customer is between its two reports. -/
def Quiescent (s : Cluster σ ι κ) : Prop :=
  (∀ x, (s.item x).admitted = true → (s.item x).reported ≠ none) ∧
    ∀ c, (s.cust c).admitted = true → (s.cust c).left = true

/-- Some customer has read the reply of item `x`. -/
def Taken (s : Cluster σ ι κ) (x : ι) : Prop := ∃ c, x ∈ (s.cust c).reads

variable [Fintype σ] [Fintype ι] [Fintype κ] [DecidableEq σ] [DecidableEq ι] [DecidableEq κ]

instance (s : Cluster σ ι κ) : DecidablePred s.Taken := fun x =>
  inferInstanceAs (Decidable (∃ c, x ∈ (s.cust c).reads))

instance (s : Cluster σ ι κ) : Decidable s.Quiescent :=
  inferInstanceAs (Decidable ((∀ _, _ → _) ∧ ∀ _, _ → _))

variable {m : Sim σ ι κ} {s : Cluster σ ι κ}

/-! ## Counting sales -/

theorem reads_eq_singleton (h : Reachable m s) {c : κ} {x : ι} (hx : x ∈ (s.cust c).reads) :
    (s.cust c).reads = [x] := by
  have hlen := (oneBuyer h).readsOnce c
  cases hr : (s.cust c).reads with
  | nil => simp [hr] at hx
  | cons y rest =>
      rw [hr] at hlen hx
      obtain rfl : rest = [] := List.length_eq_zero_iff.mp (Nat.le_zero.mp (Nat.le_of_succ_le_succ hlen))
      rw [List.mem_singleton.mp hx]

/-- The customers that have read a reply are in bijection with the items that were taken. -/
theorem card_readers (h : Reachable m s) :
    (univ.filter fun c => (s.cust c).reads ≠ []).card = (univ.filter s.Taken).card := by
  refine card_bij (fun c hc => (s.cust c).reads.head (mem_filter.mp hc).2) ?_ ?_ ?_
  · intro c hc
    exact mem_filter.mpr ⟨mem_univ _, c, List.head_mem _⟩
  · intro c hc d hd heq
    exact reader_unique h (List.head_mem (mem_filter.mp hc).2) (heq ▸ List.head_mem (mem_filter.mp hd).2)
  · intro x hx
    obtain ⟨c, hc⟩ := (mem_filter.mp hx).2
    have hreads := reads_eq_singleton h hc
    exact ⟨c, mem_filter.mpr ⟨mem_univ _, by simp [hreads]⟩, by simp [hreads]⟩

/-- In a quiescent state, a customer has read a reply exactly when its sale is on the books. -/
theorem bought_iff (h : Reachable m s) (hq : s.Quiescent) (c : κ) :
    (s.cust c).bought = true ↔ (s.cust c).reads ≠ [] := by
  have hleft : (s.cust c).reads ≠ [] → (s.cust c).left = true := fun hne => by
    refine hq.2 c ?_
    rcases (cust_ok h c).phase with ⟨-, -, hreads, -⟩ | ⟨hadm, -⟩ | ⟨_, hadm, -⟩
    · exact absurd hreads hne
    · exact hadm
    · exact hadm
  constructor
  · intro hb hreads
    simp [CustTask.bought, hreads] at hb
  · intro hne
    simp [CustTask.bought, hleft hne, hne]

/-- In a quiescent state, an item that was taken has been reported out, as sold or in a closed store. -/
theorem sold_or_cleared_of_taken (h : Reachable m s) (hq : s.Quiescent) {x : ι} (hx : s.Taken x) :
    (s.item x).sold = true ∨ (s.item x).cleared = true := by
  obtain ⟨c, hc⟩ := hx
  obtain ⟨id, hsold⟩ := soldTo_of_read h hc
  have hadm := (item_ok h x).admitted_of_soldTo (by simp [hsold])
  cases hr : (s.item x).reported with
  | none => exact absurd hr (hq.1 x hadm)
  | some st => cases st <;> simp [ItemTask.sold, ItemTask.cleared, hr]

theorem sum_customerSales (h : Reachable m s) (hq : s.Quiescent) :
    ∑ t, (s.log t).store.customerSales = (univ.filter s.Taken).card := by
  have hsum : ∑ t, census (fun c => m.custHome c = t) CustTask.bought s.cust =
      tally (fun _ k => k.bought = true) s.cust := sum_tally_fiber m.custHome _ s.cust
  have hbought : tally (fun _ (k : CustTask ι) => k.bought = true) s.cust =
      tally (fun _ (k : CustTask ι) => k.reads ≠ []) s.cust := tally_congr (bought_iff h hq)
  simp only [(books h _).2.customerSales]
  rw [← Nat.cast_sum, hsum, hbought, ← card_readers h]
  rfl

theorem sum_itemsSold (h : Reachable m s) :
    ∑ t, ∑ i, (s.log t).store.itemsSold i = (univ.filter fun x => (s.item x).sold = true).card := by
  have hstore : ∀ t, ∑ i, (s.log t).store.itemsSold i =
      (census (fun x => m.itemHome x = t) ItemTask.sold s.item : ℤ) := by
    intro t
    simp only [(books h t).1.itemsSold]
    rw [← sum_census m.itemNo]
    push_cast
    rfl
  have hsum : ∑ t, census (fun x => m.itemHome x = t) ItemTask.sold s.item =
      tally (fun _ k => k.sold = true) s.item := sum_tally_fiber m.itemHome _ s.item
  rw [sum_congr rfl fun t _ => hstore t, ← Nat.cast_sum, hsum]
  rfl

/-- **Sales balance.** When no task is between its reports, the customers' sales and the items sold whose reply no
    customer read are as many as the items sold and the items of closed stores that a customer obtained. The totals
    are over ℤ; each is an `int` that holds it while its store has admitted fewer than 2³¹ customers and items. -/
theorem sales_balance (h : Reachable m s) (hq : s.Quiescent) :
    ∑ t, (s.log t).store.customerSales +
        ((univ.filter fun x => (s.item x).sold = true ∧ ¬ s.Taken x).card : ℤ) =
      ∑ t, ∑ i, (s.log t).store.itemsSold i +
        ((univ.filter fun x => (s.item x).reported = some .storeClosed ∧ s.Taken x).card : ℤ) := by
  rw [sum_customerSales h hq, sum_itemsSold h]
  have htaken : (univ.filter s.Taken).card =
      (univ.filter fun x => (s.item x).sold = true ∧ s.Taken x).card +
        (univ.filter fun x => (s.item x).reported = some .storeClosed ∧ s.Taken x).card := by
    rw [← card_union_of_disjoint, ← filter_or]
    · congr 1
      ext x
      simp only [mem_filter, mem_univ, true_and, ← or_and_right]
      refine ⟨fun hx => ⟨?_, hx⟩, fun hx => hx.2⟩
      simpa [ItemTask.cleared] using sold_or_cleared_of_taken h hq hx
    · rw [disjoint_filter]
      rintro x - ⟨hsold, -⟩ ⟨hclosed, -⟩
      simp [ItemTask.sold, hclosed] at hsold
  have hsold : (univ.filter fun x => (s.item x).sold = true).card =
      (univ.filter fun x => (s.item x).sold = true ∧ s.Taken x).card +
        (univ.filter fun x => (s.item x).sold = true ∧ ¬ s.Taken x).card := by
    rw [← card_filter_add_card_filter_not s.Taken, filter_filter, filter_filter]
  rw [htaken, hsold]
  push_cast
  ring

end Cluster

/-! ## Two runs that do not balance -/

/-- The item's store is closed before the item sells itself to the customer of the other store. -/
def soldFromClosedStore : List (Label Bool Unit Unit) :=
  twoStoresRequest ++
    [.log (.kill false) true, .switch false,
      .item () (.accept true), .item () (.recv true), .item () (.send true),
      .cust () (.select true), .cust () (.recvReply true),
      .log (.item ()) true, .switch false, .log (.cust ()) true, .switch true]

/-- The customer gives up on the reply before the item sends it, and leaves. -/
def soldToNobody : List (Label Bool Unit Unit) :=
  twoStoresRequest ++
    [.cust () (.select false), .log (.cust ()) true, .switch true,
      .item () (.accept true), .item () (.recv true), .item () (.send true),
      .log (.item ()) true, .switch false,
      .cust () (.event .timeout), .log (.cust ()) true, .switch true]

/-- A sale that no store has recorded, and a recorded sale that no customer reports. -/
theorem sales_unbalanced :
    (∃ s, Cluster.Reachable twoStores s ∧ s.Quiescent ∧
      ∑ t, (s.log t).store.customerSales = 1 ∧ ∑ t, ∑ i, (s.log t).store.itemsSold i = 0) ∧
    ∃ s, Cluster.Reachable twoStores s ∧ s.Quiescent ∧
      ∑ t, (s.log t).store.customerSales = 0 ∧ ∑ t, ∑ i, (s.log t).store.itemsSold i = 1 :=
  ⟨⟨Lts.final (Cluster.step twoStores) .initial soldFromClosedStore (by decide), Lts.reach_final _,
      by decide, by decide, by decide⟩,
    Lts.final (Cluster.step twoStores) .initial soldToNobody (by decide), Lts.reach_final _,
      by decide, by decide, by decide⟩

theorem sales_balance_soldToNobody :
    let s := Lts.final (Cluster.step twoStores) .initial soldToNobody (by decide)
    ∑ t, (s.log t).store.customerSales +
        ((univ.filter fun x => (s.item x).sold = true ∧ ¬ s.Taken x).card : ℤ) =
      ∑ t, ∑ i, (s.log t).store.itemsSold i +
        ((univ.filter fun x => (s.item x).reported = some .storeClosed ∧ s.Taken x).card : ℤ) :=
  Cluster.sales_balance (Lts.reach_final _) (by decide)

end Inventory
end Tipcutils
