import Tipcutils.Inventory.TaskInv
import Tipcutils.Lib.Tally
import Mathlib.Tactic.Ring

/-!
# `Inventory.Accounting` — the counters of a store count its tasks

**`books`** is the joint invariant of the counters of one store: each of them is the census of the
tasks of that store that pass a test on their history. A closed store keeps an item it reports out in
`itemCount` (`SIM_ITEM_OUT` then updates one of three counters), so the test behind `itemCount` is "admitted and
not sold", not "admitted and not reported out".

A step that handles no transaction moves no counter and no history (`ItemBooks.congr`, `CustBooks.congr`); each
transaction moves one task and the matching counters (`ItemBooks.enter`, `.sell`, `.clear`, `CustBooks.enter`,
`.leave`). **`accounting`** reads the relations between the counters off the books. The counters are integers here;
`Inventory.IntCounters` says which runs the program's `int`s follow.
-/

set_option linter.unusedSectionVars false

namespace Tipcutils
namespace Inventory

open Function Decimal

variable {σ ι κ : Type}

/-! ## Tests on a task's history -/

namespace ItemTask

/-- Reported out while the store was still recording sales. -/
def sold (t : ItemTask σ κ) : Bool :=
  match t.reported with
  | none | some .storeClosed => false
  | some .storeOpen | some .storeClosing | some .storeEmpty => true

/-- Reported out while the store was closed. -/
def cleared (t : ItemTask σ κ) : Bool := decide (t.reported = some .storeClosed)

/-- Admitted and not recorded as sold. -/
def inStock (t : ItemTask σ κ) : Bool := t.admitted && !t.sold

/-- Admitted and not reported out. -/
def unreported (t : ItemTask σ κ) : Bool := t.admitted && t.reported.isNone

/-- The logging task has recorded the same. -/
def SameHistory (t t' : ItemTask σ κ) : Prop := t'.admitted = t.admitted ∧ t'.reported = t.reported

variable {itemID : ℤ} {t t' : ItemTask σ κ}

theorem step_history {act : ItemAct} (h : t.step itemID act = some t') : t.SameHistory t' := by
  cases step_branch h <;> exact ⟨rfl, rfl⟩

theorem connect_history (t : ItemTask σ κ) (r : Request σ κ) : t.SameHistory (t.connect r) := by
  unfold connect
  split <;> exact ⟨rfl, rfl⟩

/-- What the task does with the acknowledgement is no matter of record. -/
theorem resume_history (t : ItemTask σ κ) (k : ItemCont) (res : ℤ) : t.SameHistory (t.resume k res) := by
  cases k <;> simp only [resume] <;> first
    | exact ⟨rfl, rfl⟩
    | (split <;> exact ⟨rfl, rfl⟩)

theorem answered_history {msg : TransMsg} {k : ItemCont} (hpc : t.pc = .logging msg k) (r : LogReply) :
    (t.record k r).SameHistory (t.answered r) := by
  simp only [answered, hpc]
  exact resume_history _ _ _

theorem unhandled_history (t : ItemTask σ κ) : t.SameHistory (t.answered .unhandled) := by
  unfold answered
  split
  · exact resume_history _ _ _
  · exact ⟨rfl, rfl⟩

theorem SameHistory.sold_eq (h : t.SameHistory t') : t'.sold = t.sold := by
  simp only [sold, h.2]

theorem SameHistory.inStock_eq (h : t.SameHistory t') : t'.inStock = t.inStock := by
  simp only [inStock, h.1, h.sold_eq]

theorem SameHistory.unreported_eq (h : t.SameHistory t') : t'.unreported = t.unreported := by
  simp only [unreported, h.1, h.2]

end ItemTask

namespace CustTask

/-- Admitted and still in the store. -/
def inStore (t : CustTask ι) : Bool := t.admitted && !t.left

/-- Left after reading an item's reply. -/
def bought (t : CustTask ι) : Bool := t.left && !t.reads.isEmpty

/-- Left without reading one. -/
def walkedOut (t : CustTask ι) : Bool := t.left && t.reads.isEmpty

/-- The logging task has recorded the same, and a customer who has left has read the same. -/
def SameHistory (t t' : CustTask ι) : Prop :=
  t'.admitted = t.admitted ∧ t'.left = t.left ∧ (t.left = true → t'.reads = t.reads)

variable {a : CustArgs} {t t' : CustTask ι}

theorem step_history (hok : t.Ok a) {act : CustAct ι} (h : t.step a act = some t') : t.SameHistory t' := by
  have hpcOk := hok.pcOk
  cases step_branch h with
  -- only a customer in the store reads
  | reads hpc _ =>
      simp only [PcOk, hpc] at hpcOk
      obtain ⟨-, hleft, -⟩ := hpcOk
      exact ⟨rfl, rfl, fun h => absurd h (by simp [hleft])⟩
  | _ => exact ⟨rfl, rfl, fun _ => rfl⟩

theorem deliver_history [DecidableEq ι] (t : CustTask ι) (x : ι) (id : ℤ) (msg : Text) :
    t.SameHistory (t.deliver x id msg) := by
  unfold deliver
  split <;> exact ⟨rfl, rfl, fun _ => rfl⟩

theorem resume_history (t : CustTask ι) (k : CustCont) (res : ℤ) : t.SameHistory (t.resume k res) := by
  cases k <;> simp only [resume] <;> first
    | exact ⟨rfl, rfl, fun _ => rfl⟩
    | (split <;> exact ⟨rfl, rfl, fun _ => rfl⟩)

theorem answered_history {msg : TransMsg} {k : CustCont} (hpc : t.pc = .logging msg k) (r : LogReply) :
    (t.record k r).SameHistory (t.answered r) := by
  simp only [answered, hpc]
  exact resume_history _ _ _

theorem unhandled_history (t : CustTask ι) : t.SameHistory (t.answered .unhandled) := by
  unfold answered
  split
  · exact resume_history _ _ _
  · exact ⟨rfl, rfl, fun _ => rfl⟩

theorem SameHistory.inStore_eq (h : t.SameHistory t') : t'.inStore = t.inStore := by
  simp only [inStore, h.1, h.2.1]

theorem SameHistory.bought_eq (h : t.SameHistory t') : t'.bought = t.bought := by
  obtain ⟨-, hleft, hreads⟩ := h
  cases hl : t.left with
  | false => simp [bought, hleft, hl]
  | true => simp only [bought, hleft, hreads hl]

theorem SameHistory.walkedOut_eq (h : t.SameHistory t') : t'.walkedOut = t.walkedOut := by
  obtain ⟨-, hleft, hreads⟩ := h
  cases hl : t.left with
  | false => simp [walkedOut, hleft, hl]
  | true => simp only [walkedOut, hleft, hreads hl]

end CustTask

/-! ## The books -/

section Books

variable [Fintype ι] [Fintype κ] [DecidableEq σ] (m : Sim σ ι κ) (t : σ)

/-- Item `x` belongs to store `t` and has number `i`. -/
abbrev Sim.ItemAt (i : ItemIx) (x : ι) : Prop := m.itemHome x = t ∧ m.itemNo x = i

/-- Customer `c` visits store `t` and wants item number `i`. -/
abbrev Sim.CustAt (i : ItemIx) (c : κ) : Prop := m.custHome c = t ∧ m.custNo c = i

/-- The item counters of store `t` count its items. -/
structure ItemBooks (b : Counters) (items : ι → ItemTask σ κ) : Prop where
  itemCount : ∀ i, b.itemCount i = census (m.ItemAt t i) ItemTask.inStock items
  itemsSold : ∀ i, b.itemsSold i = census (m.ItemAt t i) ItemTask.sold items
  itemsInStore : b.itemsInStore = census (fun x => m.itemHome x = t) ItemTask.unreported items

/-- The customer counters of store `t` count its customers. -/
structure CustBooks (b : Counters) (custs : κ → CustTask ι) : Prop where
  customerCount : ∀ i, b.customerCount i = census (m.CustAt t i) CustTask.inStore custs
  customersInStore : b.customersInStore = census (fun c => m.custHome c = t) CustTask.inStore custs
  customerTotal : b.customerTotal = census (fun c => m.custHome c = t) CustTask.admitted custs
  customerSales : b.customerSales = census (fun c => m.custHome c = t) CustTask.bought custs
  customerExits : b.customerExits = census (fun c => m.custHome c = t) CustTask.walkedOut custs

variable {m t} {b : Counters} {items items' : ι → ItemTask σ κ} {custs custs' : κ → CustTask ι}

theorem ItemBooks.congr (h : ItemBooks m t b items)
    (hx : ∀ x, m.itemHome x = t → (items x).SameHistory (items' x)) : ItemBooks m t b items' where
  itemCount i := by rw [h.itemCount, census_congr fun x hat => ((hx x hat.1).inStock_eq).symm]
  itemsSold i := by rw [h.itemsSold, census_congr fun x hat => ((hx x hat.1).sold_eq).symm]
  itemsInStore := by rw [h.itemsInStore, census_congr fun x hat => ((hx x hat).unreported_eq).symm]

theorem CustBooks.congr (h : CustBooks m t b custs)
    (hc : ∀ c, m.custHome c = t → (custs c).SameHistory (custs' c)) : CustBooks m t b custs' where
  customerCount i := by rw [h.customerCount, census_congr fun c hat => ((hc c hat.1).inStore_eq).symm]
  customersInStore := by rw [h.customersInStore, census_congr fun c hat => ((hc c hat).inStore_eq).symm]
  customerTotal := by rw [h.customerTotal, census_congr fun c hat => ((hc c hat).1).symm]
  customerSales := by rw [h.customerSales, census_congr fun c hat => ((hc c hat).bought_eq).symm]
  customerExits := by rw [h.customerExits, census_congr fun c hat => ((hc c hat).walkedOut_eq).symm]

variable [DecidableEq ι] [DecidableEq κ]

/-- An item is admitted. -/
theorem ItemBooks.enter {x : ι} {k : ItemTask σ κ} (h : ItemBooks m (m.itemHome x) b items)
    (hold : (items x).Fresh) (hnew : k.admitted = true ∧ k.reported = none) :
    ItemBooks m (m.itemHome x)
      { b with
        itemsInStore := b.itemsInStore + 1
        itemCount := update b.itemCount (m.itemNo x) (b.itemCount (m.itemNo x) + 1) }
      (update items x k) := by
  obtain ⟨hadm, hrep, -⟩ := hold
  have holdTests : (items x).inStock = false ∧ (items x).sold = false ∧ (items x).unreported = false := by
    simp [ItemTask.inStock, ItemTask.sold, ItemTask.unreported, hadm, hrep]
  have hnewTests : k.inStock = true ∧ k.sold = false ∧ k.unreported = true := by
    simp [ItemTask.inStock, ItemTask.sold, ItemTask.unreported, hnew.1, hnew.2]
  refine ⟨?_, ?_, ?_⟩
  · apply update_eq_census h.itemCount rfl
    simp [holdTests, hnewTests]
  · intro i
    simp [census_update, holdTests, hnewTests, h.itemsSold]
  · simp [census_update, holdTests, hnewTests, h.itemsInStore]

/-- An item is reported out while sales are recorded. -/
theorem ItemBooks.sell {x : ι} {k : ItemTask σ κ} (h : ItemBooks m (m.itemHome x) b items)
    (hold : (items x).admitted = true ∧ (items x).reported = none) (hnew : k.admitted = true ∧ k.sold = true) :
    ItemBooks m (m.itemHome x)
      { b with
        itemsInStore := b.itemsInStore - 1
        itemCount := update b.itemCount (m.itemNo x) (b.itemCount (m.itemNo x) - 1)
        itemsSold := update b.itemsSold (m.itemNo x) (b.itemsSold (m.itemNo x) + 1) }
      (update items x k) := by
  have holdTests : (items x).inStock = true ∧ (items x).sold = false ∧ (items x).unreported = true := by
    simp [ItemTask.inStock, ItemTask.sold, ItemTask.unreported, hold.1, hold.2]
  have hnewTests : k.inStock = false ∧ k.sold = true ∧ k.unreported = false := by
    have hrep : k.reported ≠ none := fun hn => absurd hnew.2 (by simp [ItemTask.sold, hn])
    refine ⟨by simp [ItemTask.inStock, hnew.2], hnew.2, ?_⟩
    simpa [ItemTask.unreported, hnew.1] using Option.isSome_iff_ne_none.mpr hrep
  refine ⟨?_, ?_, ?_⟩
  · apply update_eq_census h.itemCount rfl
    simp [holdTests, hnewTests, sub_eq_add_neg]
  · apply update_eq_census h.itemsSold rfl
    simp [holdTests, hnewTests]
  · simp [census_update, holdTests, hnewTests, h.itemsInStore, sub_eq_add_neg]

/-- An item is reported out of a closed store: only the total moves. -/
theorem ItemBooks.clear {x : ι} {k : ItemTask σ κ} (h : ItemBooks m (m.itemHome x) b items)
    (hold : (items x).admitted = true ∧ (items x).reported = none)
    (hnew : k.admitted = true ∧ k.reported = some .storeClosed) :
    ItemBooks m (m.itemHome x) { b with itemsInStore := b.itemsInStore - 1 } (update items x k) := by
  have holdTests : (items x).inStock = true ∧ (items x).sold = false ∧ (items x).unreported = true := by
    simp [ItemTask.inStock, ItemTask.sold, ItemTask.unreported, hold.1, hold.2]
  have hnewTests : k.inStock = true ∧ k.sold = false ∧ k.unreported = false := by
    simp [ItemTask.inStock, ItemTask.sold, ItemTask.unreported, hnew.1, hnew.2]
  refine ⟨?_, ?_, ?_⟩
  · intro i
    simp [census_update, holdTests, hnewTests, h.itemCount]
  · intro i
    simp [census_update, holdTests, hnewTests, h.itemsSold]
  · simp [census_update, holdTests, hnewTests, h.itemsInStore, sub_eq_add_neg]

/-- A customer is admitted. -/
theorem CustBooks.enter {c : κ} {k : CustTask ι} (h : CustBooks m (m.custHome c) b custs)
    (hold : (custs c).Fresh) (hnew : k.admitted = true ∧ k.left = false) :
    CustBooks m (m.custHome c)
      { b with
        customersInStore := b.customersInStore + 1
        customerCount := update b.customerCount (m.custNo c) (b.customerCount (m.custNo c) + 1)
        customerTotal := b.customerTotal + 1 }
      (update custs c k) := by
  obtain ⟨hadm, hleft, -⟩ := hold
  have holdTests : (custs c).inStore = false ∧ (custs c).bought = false ∧ (custs c).walkedOut = false := by
    simp [CustTask.inStore, CustTask.bought, CustTask.walkedOut, hadm, hleft]
  have hnewTests : k.inStore = true ∧ k.bought = false ∧ k.walkedOut = false := by
    simp [CustTask.inStore, CustTask.bought, CustTask.walkedOut, hnew.1, hnew.2]
  refine ⟨?_, ?_, ?_, ?_, ?_⟩
  · apply update_eq_census h.customerCount rfl
    simp [holdTests, hnewTests]
  · simp [census_update, holdTests, hnewTests, h.customersInStore]
  · simp [census_update, hadm, hnew.1, h.customerTotal]
  · simp [census_update, holdTests, hnewTests, h.customerSales]
  · simp [census_update, holdTests, hnewTests, h.customerExits]

/-- A customer leaves, with an item (`sale`) or without. -/
theorem CustBooks.leave {c : κ} {k : CustTask ι} (h : CustBooks m (m.custHome c) b custs)
    (hold : (custs c).admitted = true ∧ (custs c).left = false) (hnew : k.admitted = true ∧ k.left = true)
    (numRetries : ℤ) (sale : Bool) (hsale : k.reads.isEmpty = !sale) :
    CustBooks m (m.custHome c)
      { b with
        customersInStore := b.customersInStore - 1
        customerCount := update b.customerCount (m.custNo c) (b.customerCount (m.custNo c) - 1)
        customerRetries := numRetries
        customerSales := if sale then b.customerSales + 1 else b.customerSales
        customerExits := if sale then b.customerExits else b.customerExits + 1 }
      (update custs c k) := by
  have holdTests : (custs c).inStore = true ∧ (custs c).bought = false ∧ (custs c).walkedOut = false := by
    simp [CustTask.inStore, CustTask.bought, CustTask.walkedOut, hold.1, hold.2]
  have hnewTests : k.inStore = false ∧ k.bought = sale ∧ k.walkedOut = !sale := by
    simp [CustTask.inStore, CustTask.bought, CustTask.walkedOut, hnew.1, hnew.2, hsale]
  refine ⟨?_, ?_, ?_, ?_, ?_⟩
  · apply update_eq_census h.customerCount rfl
    simp [holdTests, hnewTests, sub_eq_add_neg]
  · simp [census_update, holdTests, hnewTests, h.customersInStore, sub_eq_add_neg]
  · simp [census_update, hold.1, hnew.1, h.customerTotal]
  · cases sale <;> simp [census_update, holdTests, hnewTests, h.customerSales]
  · cases sale <;> simp [census_update, holdTests, hnewTests, h.customerExits]

end Books

/-! ## The invariant -/

namespace Cluster

variable [Fintype ι] [Fintype κ] [DecidableEq σ] [DecidableEq ι] [DecidableEq κ]
  {m : Sim σ ι κ} {s s' : Cluster σ ι κ} {t : σ}

/-- The counters of store `t` count its tasks. -/
def Books (m : Sim σ ι κ) (s : Cluster σ ι κ) (t : σ) : Prop :=
  ItemBooks m t (s.log t).store.toCounters s.item ∧ CustBooks m t (s.log t).store.toCounters s.cust

theorem books_initial (m : Sim σ ι κ) (t : σ) : Books m initial t := by
  refine ⟨⟨fun i => ?_, fun i => ?_, ?_⟩, ⟨fun i => ?_, ?_, ?_, ?_, ?_⟩⟩
  all_goals
    rw [census_eq_zero]
    · rfl
    · intros
      rfl

/-- Nothing recorded about the tasks of `t`, and no counter of `t`, has changed. -/
theorem Books.frame (h : Books m s t) (hlog : (s'.log t).store.toCounters = (s.log t).store.toCounters)
    (hitem : ∀ x, m.itemHome x = t → (s.item x).SameHistory (s'.item x))
    (hcust : ∀ c, m.custHome c = t → (s.cust c).SameHistory (s'.cust c)) : Books m s' t := by
  unfold Books
  rw [hlog]
  exact ⟨h.1.congr hitem, h.2.congr hcust⟩

/-- A `switch` keeps the counters, and so does the end of a transaction. -/
theorem counters_setLog {u : σ} {l : LogTask} (hl : l.store.toCounters = (s.log u).store.toCounters) (t : σ) :
    ((s.setLog u l).log t).store.toCounters = (s.log t).store.toCounters :=
  (forall_update_iff s.log fun t l => l.store.toCounters = (s.log t).store.toCounters).mpr ⟨hl, fun _ _ => rfl⟩ t

theorem item_history_update {x : ι} {k : ItemTask σ κ} (h : (s.item x).SameHistory k) (y : ι) :
    (s.item y).SameHistory (update s.item x k y) :=
  (forall_update_iff s.item fun y k => (s.item y).SameHistory k).mpr ⟨h, fun _ _ => ⟨rfl, rfl⟩⟩ y

theorem cust_history_update {c : κ} {k : CustTask ι} (h : (s.cust c).SameHistory k) (d : κ) :
    (s.cust d).SameHistory (update s.cust c k d) :=
  (forall_update_iff s.cust fun d k => (s.cust d).SameHistory k).mpr
    ⟨h, fun _ _ => ⟨rfl, rfl, fun _ => rfl⟩⟩ d

theorem connected_history {items : ι → ItemTask σ κ}
    (h : items = s.item ∨ ∃ y r, Formatted m r ∧ items = update s.item y ((s.item y).connect r)) (x : ι) :
    (s.item x).SameHistory (items x) := by
  rcases h with rfl | ⟨y, r, -, rfl⟩
  · exact ⟨rfl, rfl⟩
  · exact item_history_update (ItemTask.connect_history _ _) x

theorem replied_history (s : Cluster σ ι κ) (x : ι) (act : ItemAct) (c : κ) :
    (s.cust c).SameHistory (s.replied m x act c) := by
  rcases replied_cases m s x act with heq | ⟨d, id, msg, -, -, heq⟩
  · rw [heq]
    exact ⟨rfl, rfl, fun _ => rfl⟩
  · rw [heq]
    exact cust_history_update (CustTask.deliver_history _ _ _ _) c

/-- A transaction that is not handled changes no books. -/
theorem Books.answer_unhandled (h : Books m s t) (w : Sender σ ι κ) : Books m (s.answer w .unhandled) t := by
  cases w with
  | item x =>
      exact h.frame rfl (fun y _ => item_history_update (ItemTask.unhandled_history _) y)
        fun _ _ => ⟨rfl, rfl, fun _ => rfl⟩
  | cust c =>
      exact h.frame rfl (fun _ _ => ⟨rfl, rfl⟩)
        fun d _ => cust_history_update (CustTask.unhandled_history _) d
  | janitor | kill => exact h

/-- A handled transaction changes the books of its own store only. -/
theorem Books.answer_other (h : Books m s t) {w : Sender σ ι κ} (hw : m.home w ≠ t) (l : LogTask) (r : LogReply) :
    Books m ((s.setLog (m.home w) l).answer w r) t := by
  have hlog : (((s.setLog (m.home w) l).answer w r).log t) = s.log t := by
    rw [answer_log]
    exact update_of_ne (Ne.symm hw) _ _
  refine h.frame (by rw [hlog]) (fun x hx => ?_) fun c hc => ?_
  · cases w with
    | item y =>
        have hne : x ≠ y := fun h => hw (h ▸ hx)
        show (s.item x).SameHistory (update s.item y _ x)
        rw [update_of_ne hne]
        exact ⟨rfl, rfl⟩
    | cust | janitor | kill => exact ⟨rfl, rfl⟩
  · cases w with
    | cust d =>
        have hne : c ≠ d := fun h => hw (h ▸ hc)
        show (s.cust c).SameHistory (update s.cust d _ c)
        rw [update_of_ne hne]
        exact ⟨rfl, rfl, fun _ => rfl⟩
    | item | janitor | kill => exact ⟨rfl, rfl, fun _ => rfl⟩

/-- The transactions of an item. -/
theorem Books.log_item (hr : Reachable m s) {x : ι} (h : Books m s (m.itemHome x)) {pt received : Bool}
    {msg : TransMsg} {r : Logged} (hp : s.pending (.item x) = some msg)
    (hlt : logTransaction pt (s.log (m.itemHome x)).store msg = some r) :
    ItemBooks m (m.itemHome x) r.store.toCounters (update s.item x ((s.item x).answered
      (.handled (s.log (m.itemHome x)).store.simState r.ackCode received))) ∧
    CustBooks m (m.itemHome x) r.store.toCounters s.cust := by
  obtain ⟨hib, hcb⟩ := h
  obtain ⟨k, hpc⟩ := item_pc_of_pending hp
  have hok := item_ok hr x
  simp only [ItemTask.Ok, hpc] at hok
  set st := (s.log (m.itemHome x)).store with hst
  have hhist := ItemTask.answered_history hpc (.handled st.simState r.ackCode received)
  cases k with
  | admitted =>
      obtain ⟨rfl, hfresh⟩ := hok
      by_cases hopen : st.simState = .storeOpen
      · obtain ⟨shown, heq⟩ := logTransaction_itemIn_open pt (m.itemNo x) hopen
        obtain rfl := Option.some.inj (heq.symm.trans hlt)
        refine ⟨hib.enter hfresh ⟨hhist.1.trans ?_, hhist.2.trans hfresh.2.1⟩, ⟨hcb.1, hcb.2, hcb.3, hcb.4, hcb.5⟩⟩
        simp [ItemTask.record]
      · rw [logTransaction_itemIn_shut pt hopen] at hlt
        obtain rfl := Option.some.inj hlt
        refine ⟨hib.congr fun y _ => item_history_update ⟨hhist.1.trans ?_, hhist.2⟩ y, hcb⟩
        simp [ItemTask.record, Code.val, hfresh.1]
  | fail =>
      have hneutral : msg.code.neutral = true := by simp [hok.1, Code.neutral]
      rw [counters_of_neutral hneutral hlt]
      exact ⟨hib.congr fun y _ => item_history_update hhist y, hcb⟩
  | retry =>
      have hneutral : msg.code.neutral = true := by simp [hok.1, Code.neutral]
      rw [counters_of_neutral hneutral hlt]
      exact ⟨hib.congr fun y _ => item_history_update hhist y, hcb⟩
  | sold =>
      obtain ⟨⟨buyer, rfl⟩, hrep, -, hadm, -⟩ := hok
      by_cases hclosed : st.simState = .storeClosed
      · rw [logTransaction_itemOut_closed pt hclosed] at hlt
        obtain rfl := Option.some.inj hlt
        refine ⟨hib.clear ⟨hadm, hrep⟩ ⟨hhist.1.trans hadm, hhist.2.trans ?_⟩, ⟨hcb.1, hcb.2, hcb.3, hcb.4, hcb.5⟩⟩
        simp [ItemTask.record, hclosed]
      · obtain ⟨shown, heq⟩ := logTransaction_itemOut_selling pt (m.itemNo x) hclosed buyer
        obtain rfl := Option.some.inj (heq.symm.trans hlt)
        refine ⟨hib.sell ⟨hadm, hrep⟩ ⟨hhist.1.trans hadm, ?_⟩, ⟨hcb.1, hcb.2, hcb.3, hcb.4, hcb.5⟩⟩
        rw [hhist.sold_eq]
        cases hs : st.simState with
        | storeClosed => exact absurd hs hclosed
        | storeOpen | storeClosing | storeEmpty => rfl

/-- The transactions of a customer. -/
theorem Books.log_cust (hr : Reachable m s) {c : κ} (h : Books m s (m.custHome c)) {pt received : Bool}
    {msg : TransMsg} {r : Logged} (hp : s.pending (.cust c) = some msg)
    (hlt : logTransaction pt (s.log (m.custHome c)).store msg = some r) :
    ItemBooks m (m.custHome c) r.store.toCounters s.item ∧
    CustBooks m (m.custHome c) r.store.toCounters (update s.cust c ((s.cust c).answered
      (.handled (s.log (m.custHome c)).store.simState r.ackCode received))) := by
  obtain ⟨hib, hcb⟩ := h
  obtain ⟨k, hpc⟩ := cust_pc_of_pending hp
  have hok := (cust_ok hr c).pcOk
  simp only [CustTask.PcOk, hpc] at hok
  set st := (s.log (m.custHome c)).store with hst
  have hhist := CustTask.answered_history hpc (.handled st.simState r.ackCode received)
  cases k with
  | admitted =>
      obtain ⟨rfl, hfresh⟩ := hok
      by_cases hopen : st.simState = .storeOpen
      · obtain ⟨shown, heq⟩ :=
          logTransaction_custIn_open pt (m.custNo c) hopen (m.custArgs c).waitTime
        obtain rfl := Option.some.inj (heq.symm.trans hlt)
        refine ⟨⟨hib.1, hib.2, hib.3⟩, hcb.enter hfresh ⟨hhist.1.trans ?_, hhist.2.1.trans hfresh.2.1⟩⟩
        have htotal : 0 ≤ st.customerTotal := hcb.customerTotal ▸ Int.natCast_nonneg _
        simp [CustTask.record, show 0 ≤ st.customerTotal + 1 by omega]
      · rw [logTransaction_custIn_shut pt hopen] at hlt
        obtain rfl := Option.some.inj hlt
        refine ⟨hib, hcb.congr fun d _ => cust_history_update ⟨hhist.1.trans ?_, hhist.2⟩ d⟩
        simp [CustTask.record, Code.val, hfresh.1]
  | fail =>
      have hneutral : msg.code.neutral = true := by simp [hok.1, Code.neutral]
      rw [counters_of_neutral hneutral hlt]
      exact ⟨hib, hcb.congr fun d _ => cust_history_update hhist d⟩
  | retry =>
      have hneutral : msg.code.neutral = true := by
        rcases hok.1 with hcode | hcode <;> simp [hcode, Code.neutral]
      rw [counters_of_neutral hneutral hlt]
      exact ⟨hib, hcb.congr fun d _ => cust_history_update hhist d⟩
  | left =>
      obtain ⟨code, text⟩ := msg
      obtain ⟨hleft, rfl, hadm, -, numRetries, last, rfl, hlast⟩ := hok
      have hnew := hhist.2.2 rfl
      rcases hlast with ⟨hreads, hno⟩ | ⟨x, hreads, hmark⟩
      · obtain ⟨shown, heq⟩ := logTransaction_custOut_exit pt st (m.custNo c)
          (s.cust c).customerID numRetries hno
        obtain rfl := Option.some.inj (heq.symm.trans hlt)
        exact ⟨⟨hib.1, hib.2, hib.3⟩, hcb.leave ⟨hadm, hleft⟩ ⟨hhist.1.trans hadm, hhist.2.1⟩ _ false
          (by rw [hnew]; simp [CustTask.record, hreads])⟩
      · obtain ⟨shown, heq⟩ := logTransaction_custOut_sale pt st (m.custNo c)
          (s.cust c).customerID numRetries hmark
        obtain rfl := Option.some.inj (heq.symm.trans hlt)
        exact ⟨⟨hib.1, hib.2, hib.3⟩, hcb.leave ⟨hadm, hleft⟩ ⟨hhist.1.trans hadm, hhist.2.1⟩ _ true
          (by rw [hnew]; simp [CustTask.record, hreads])⟩

/-- **The joint invariant.** In every reachable state the counters of every store count its tasks. -/
theorem books (h : Reachable m s) (t : σ) : Books m s t := by
  refine h.inv_of (J := Reachable m) (I := fun s => Books m s t) (fun _ h => h) (books_initial m t) ?_
  intro s l s' hr hb hs
  cases l with
  | item x act =>
      obtain ⟨k, hk, rfl⟩ := step_item hs
      exact hb.frame rfl (fun y _ => item_history_update (ItemTask.step_history hk) y)
        fun c _ => replied_history s x act c
  | cust c act =>
      obtain ⟨k, -, hk, rfl⟩ := step_cust hs
      exact hb.frame rfl (fun x _ => connected_history (requested_cases m s c act) x)
        fun d _ => cust_history_update (CustTask.step_history (cust_ok hr c) hk) d
  | janitor u j act =>
      obtain ⟨pc, pc', -, -, rfl⟩ := step_janitor hs
      exact hb.frame rfl (fun x _ => connected_history (faked_cases m s u j pc act) x)
        fun _ _ => ⟨rfl, rfl, fun _ => rfl⟩
  | log w received =>
      obtain ⟨msg, r, -, hp, hlt, rfl⟩ := step_log hs
      by_cases hw : m.home w = t
      · subst hw
        have hlog (l : LogTask) (a : LogReply) :
            (((s.setLog (m.home w) l).answer w a).log (m.home w)) = l := by
          rw [answer_log]
          exact update_self _ _ _
        unfold Books
        rw [hlog]
        cases w with
        | item x => exact hb.log_item hr hp hlt
        | cust c => exact hb.log_cust hr hp hlt
        | janitor u j =>
            have hneutral : msg.code.neutral = true := by
              rcases janitor_pending_neutral hr hp with hcode | hcode <;> simp [hcode, Code.neutral]
            rw [counters_of_neutral hneutral hlt]
            exact hb
        | kill u =>
            obtain rfl := Option.some.inj hp
            have hneutral : (⟨.simKill, []⟩ : TransMsg).code.neutral = true := rfl
            rw [counters_of_neutral hneutral hlt]
            exact hb
      · exact hb.answer_other hw _ _
  | drop w =>
      obtain ⟨-, -, rfl⟩ := step_drop hs
      refine Books.answer_unhandled ?_ w
      refine hb.frame ?_ (fun _ _ => ⟨rfl, rfl⟩) fun _ _ => ⟨rfl, rfl, fun _ => rfl⟩
      apply counters_setLog
      rfl
  | fail w =>
      obtain ⟨-, rfl⟩ := step_fail hs
      exact hb.answer_unhandled w
  | switch u =>
      obtain ⟨-, rfl⟩ := step_switch hs
      exact hb.frame (counters_setLog (afterTransaction_counters _) t) (fun _ _ => ⟨rfl, rfl⟩)
        fun _ _ => ⟨rfl, rfl, fun _ => rfl⟩

/-! ## What the counters mean -/

/-- The accounts of store `t`: what its counters say about its tasks, and how they are related. -/
structure Accounts (m : Sim σ ι κ) (s : Cluster σ ι κ) (t : σ) : Prop where
  /-- the admitted customers for number `i` that have not yet reported `SIM_CUST_OUT` -/
  waiting : ∀ i, (s.log t).store.customerCount i =
    census (m.CustAt t i) (fun c => c.admitted && !c.left) s.cust
  /-- the admitted items with number `i` -/
  soldAndLeft : ∀ i, (s.log t).store.itemsSold i + (s.log t).store.itemCount i =
    census (m.ItemAt t i) (fun x => x.admitted) s.item
  /-- without those reported out of the closed store, the admitted items not yet reported out -/
  stock : ∀ i, (s.log t).store.itemCount i -
      census (m.ItemAt t i) (fun x => decide (x.reported = some .storeClosed)) s.item =
    census (m.ItemAt t i) (fun x => x.admitted && x.reported.isNone) s.item
  customers : (s.log t).store.customersInStore = ∑ i, (s.log t).store.customerCount i
  balance : (s.log t).store.customersInStore =
    (s.log t).store.customerTotal - (s.log t).store.customerSales - (s.log t).store.customerExits
  items : (s.log t).store.itemsInStore =
    census (fun x => m.itemHome x = t) (fun x => x.admitted && x.reported.isNone) s.item
  itemsNonneg : 0 ≤ (s.log t).store.itemsInStore ∧
    ∀ i, 0 ≤ (s.log t).store.itemCount i ∧ 0 ≤ (s.log t).store.itemsSold i
  customersNonneg : 0 ≤ (s.log t).store.customersInStore ∧ 0 ≤ (s.log t).store.customerTotal ∧
    0 ≤ (s.log t).store.customerSales ∧ 0 ≤ (s.log t).store.customerExits ∧
    ∀ i, 0 ≤ (s.log t).store.customerCount i

/-- Only an admitted item is recorded as sold. -/
theorem sold_le_admitted (h : Reachable m s) (x : ι) : (s.item x).sold = true → (s.item x).admitted = true := by
  intro hsold
  refine (item_ok h x).admitted_of_reported fun hrep => ?_
  simp [ItemTask.sold, hrep] at hsold

/-- Only an admitted customer leaves. -/
theorem left_le_admitted (h : Reachable m s) (c : κ) : (s.cust c).left = true → (s.cust c).admitted = true := by
  intro hleft
  rcases (cust_ok h c).phase with ⟨-, hl, -⟩ | ⟨hadm, -⟩ | ⟨text, hadm, -⟩
  · exact absurd hleft (by simp [hl])
  · exact hadm
  · exact hadm

/-- **Store accounting** over ℤ. In every reachable state, for any number of tasks, `killSim` calls and failures. -/
theorem accounting (h : Reachable m s) (t : σ) : Accounts m s t := by
  obtain ⟨hib, hcb⟩ := books h t
  have hsold : ∀ i, census (m.ItemAt t i) (fun x => x.admitted) s.item =
      census (m.ItemAt t i) ItemTask.sold s.item + census (m.ItemAt t i) ItemTask.inStock s.item := by
    refine fun i => census_add (fun x _ => ?_) fun x _ => ?_
    · have := sold_le_admitted h x
      cases hs : (s.item x).sold <;> simp_all [ItemTask.inStock]
    · cases hs : (s.item x).sold <;> simp [ItemTask.inStock, hs]
  have hstock : ∀ i, census (m.ItemAt t i) ItemTask.inStock s.item =
      census (m.ItemAt t i) ItemTask.unreported s.item + census (m.ItemAt t i) ItemTask.cleared s.item := by
    refine fun i => census_add (fun x _ => ?_) fun x _ => ?_
    · have := (item_ok h x).admitted_of_reported
      cases hr : (s.item x).reported with
      | none => simp [ItemTask.inStock, ItemTask.sold, ItemTask.unreported, ItemTask.cleared, hr]
      | some st =>
          rw [hr] at this
          cases st <;> simp [ItemTask.inStock, ItemTask.sold, ItemTask.unreported, ItemTask.cleared, hr,
            this (Option.some_ne_none _)]
    · cases hr : (s.item x).reported <;> simp [ItemTask.unreported, ItemTask.cleared, hr]
  have hleft : census (fun c => m.custHome c = t) CustTask.admitted s.cust =
      census (fun c => m.custHome c = t) CustTask.inStore s.cust +
        census (fun c => m.custHome c = t) CustTask.left s.cust := by
    refine census_add (fun c _ => ?_) fun c _ => ?_
    · have := left_le_admitted h c
      cases hl : (s.cust c).left <;> simp_all [CustTask.inStore]
    · cases hl : (s.cust c).left <;> simp [CustTask.inStore, hl]
  have hout : census (fun c => m.custHome c = t) CustTask.left s.cust =
      census (fun c => m.custHome c = t) CustTask.bought s.cust +
        census (fun c => m.custHome c = t) CustTask.walkedOut s.cust := by
    refine census_add (fun c _ => ?_) fun c _ => ?_
    · cases hl : (s.cust c).left <;> cases hr : (s.cust c).reads.isEmpty <;>
        simp [CustTask.bought, CustTask.walkedOut, hl, hr]
    · cases hr : (s.cust c).reads.isEmpty <;> simp [CustTask.bought, CustTask.walkedOut, hr]
  refine ⟨hcb.customerCount, fun i => ?_, fun i => ?_, ?_, ?_, hib.itemsInStore, ⟨?_, fun i => ⟨?_, ?_⟩⟩,
    ?_, ?_, ?_, ?_, fun i => ?_⟩
  · rw [hib.itemsSold, hib.itemCount, hsold i]
    push_cast
    rfl
  · rw [hib.itemCount, hstock i]
    push_cast
    exact add_sub_cancel_right _ _
  · simp only [hcb.customerCount, hcb.customersInStore]
    rw [← sum_census m.custNo]
    push_cast
    rfl
  · rw [hcb.customersInStore, hcb.customerTotal, hcb.customerSales, hcb.customerExits, hleft, hout]
    push_cast
    ring
  · exact hib.itemsInStore ▸ Int.natCast_nonneg _
  · exact hib.itemCount i ▸ Int.natCast_nonneg _
  · exact hib.itemsSold i ▸ Int.natCast_nonneg _
  · exact hcb.customersInStore ▸ Int.natCast_nonneg _
  · exact hcb.customerTotal ▸ Int.natCast_nonneg _
  · exact hcb.customerSales ▸ Int.natCast_nonneg _
  · exact hcb.customerExits ▸ Int.natCast_nonneg _
  · exact hcb.customerCount i ▸ Int.natCast_nonneg _

end Cluster

/-! ## A run of two stores -/

/-- Two stores; an item in the first and a customer for it in the second. -/
def twoStores : Sim Bool Unit Unit where
  node second := if second then 0x01001002 else 0x01001001
  printTrans _ := false
  itemHome _ := false
  itemNo _ := 2
  custHome _ := true
  custNo _ := 2
  waitTime _ := 1000
  taskID _ := 1

/-- The item arrives and the customer asks for it. -/
def twoStoresRequest : List (Label Bool Unit Unit) :=
  [.item () (.publish none), .log (.item ()) true, .switch false,
    .cust () .arrive, .log (.cust ()) true, .switch true, .cust () (.subscribe none),
    .cust () (.event (.published ())), .cust () (.request none)]

/-- Then the item sells itself, and both report out. -/
def twoStoresSale : List (Label Bool Unit Unit) :=
  twoStoresRequest ++
    [.item () (.accept true), .item () (.recv true), .item () (.send true),
      .cust () (.select true), .cust () (.recvReply true),
      .log (.item ()) true, .switch false, .log (.cust ()) true, .switch true]

end Inventory
end Tipcutils
