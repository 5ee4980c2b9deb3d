import Mathlib.Logic.Function.Basic
import Tipcutils.Inventory.Text

/-!
# `Inventory.LogTask` — the logging task of a store

`logTransaction` handles one transaction (it moves the counters and answers with an acknowledgement code);
the `switch` of `simLogTask` that follows it (`afterTransaction`) closes the store, spawns the janitor and ends
the task. The two run one after the other, with the state visible in between, so they are two functions here.

`none` stands for undefined behaviour: a text from which `sscanf` leaves the item number unset, a missing
blank in an item's report, or an item number outside the arrays. `Inventory.TaskInv` shows that the tasks never
send such a transaction. The counters are C `int`s and modelled as integers: they agree in the runs in which a store
admits fewer than 2³¹ customers and fewer than 2³¹ items (`Inventory.IntCounters`).
-/

namespace Tipcutils
namespace Inventory

open Decimal Function

/-! ## Data -/

/-- The simulation state values. -/
inductive StoreState where
  | storeOpen
  | storeClosing
  | storeClosed
  | storeEmpty
deriving DecidableEq

/-- The value of the enumerator. -/
def StoreState.val : StoreState → ℕ
  | .storeOpen => 0
  | .storeClosing => 1
  | .storeClosed => 2
  | .storeEmpty => 3

/-- The logging task transaction codes. -/
inductive Code where
  | simDone
  | simKill
  | simError
  | simWarn
  | simInfo
  | simItemIn
  | simItemOut
  | simCustIn
  | simCustOut
deriving DecidableEq

/-- The value of the enumerator; a negative acknowledgement is one of these. -/
def Code.val : Code → ℤ
  | .simDone => -4
  | .simKill => -3
  | .simError => -2
  | .simWarn => -1
  | .simInfo => 0
  | .simItemIn => 1
  | .simItemOut => 2
  | .simCustIn => 3
  | .simCustOut => 4

/-- `struct trans_msg`. -/
structure TransMsg where
  code : Code
  stringArea : Text

/-- `NUM_DEMO_ITEMS`: items are numbered from `DEMO_ITEM_ID_MIN = 1` to `DEMO_ITEM_ID_MAX = 10`. -/
abbrev numDemoItems : ℕ := 10

/-- An array slot. -/
abbrev ItemIx := Fin numDemoItems

/-- The item number of an array slot. -/
def itemIDOf (i : ItemIx) : ℤ := (i.val : ℤ) + 1

/-- `itemID - DEMO_ITEM_ID_MIN` as an array index; `none` is an access outside the array. -/
def itemIndex (itemID : ℤ) : Option ItemIx :=
  if h : 1 ≤ itemID ∧ itemID ≤ 10 then some ⟨(itemID - 1).toNat, by unfold numDemoItems; omega⟩ else none

@[simp] theorem itemIndex_itemIDOf (i : ItemIx) : itemIndex (itemIDOf i) = some i := by
  have hi : i.val < 10 := i.isLt
  have hrange : 1 ≤ itemIDOf i ∧ itemIDOf i ≤ 10 := by unfold itemIDOf; omega
  unfold itemIndex
  rw [dif_pos hrange]
  congr 1
  apply Fin.ext
  show (itemIDOf i - 1).toNat = i.val
  unfold itemIDOf
  omega

/-- The item and customer counters, as integers (`Inventory.IntCounters` has them in `int`s). -/
structure Counters where
  itemCount : ItemIx → ℤ
  itemsInStore : ℤ
  itemsSold : ItemIx → ℤ
  customerCount : ItemIx → ℤ
  customersInStore : ℤ
  customerTotal : ℤ
  customerSales : ℤ
  customerExits : ℤ
  customerRetries : ℤ

/-- The file's static variables. -/
structure Store extends Counters where
  simState : StoreState
  simErrors : ℤ
  simWarnings : ℤ

/-- The statics as `simLogTask` initialises them. -/
def Store.initial : Store where
  itemCount := fun _ => 0
  itemsInStore := 0
  itemsSold := fun _ => 0
  customerCount := fun _ => 0
  customersInStore := 0
  customerTotal := 0
  customerSales := 0
  customerExits := 0
  customerRetries := 0
  simState := .storeOpen
  simErrors := 0
  simWarnings := 0

/-- The `printf` calls of `logTransaction`, with their arguments. -/
inductive Shown where
  | closing
  | waitingFor (customersInStore : ℤ)
  | error (text : Text)
  | warning (text : Text)
  | info (text : Text)
  | itemCreated (item : Text)
  | itemGiven (item buyer : Text)
  | custWants (customerID itemID waitTime : ℤ)
  | custGot (customerID itemID : ℤ) (marker : Text)
  | custLeft (customerID itemID : ℤ) (waitTime : Option ℤ)

/-- What handling one transaction produces. -/
structure Logged where
  store : Store
  ackCode : ℤ
  shown : List Shown

/-! ## `logTransaction` -/

/-- Lines that are printed only with `printTrans`. -/
def ifPrint (printTrans : Bool) (l : List Shown) : List Shown := if printTrans then l else []

/-- `if (simState != STORE_OPEN) ack_code = SIM_KILL;` -/
def shutAck (st : Store) : ℤ := if st.simState = .storeOpen then 0 else Code.simKill.val

/-- Process a transaction report from a simulation task. -/
def logTransaction (printTrans : Bool) (st : Store) (msg : TransMsg) : Option Logged :=
  match msg.code with
  | .simDone => some ⟨{ st with simState := .storeEmpty }, 0, []⟩
  | .simKill =>
    some ⟨{ st with simState := .storeClosing }, 0,
      .closing :: if 0 < st.customersInStore then [.waitingFor st.customersInStore] else []⟩
  | .simError => some ⟨{ st with simErrors := st.simErrors + 1 }, 0, [.error msg.stringArea]⟩
  | .simWarn => some ⟨{ st with simWarnings := st.simWarnings + 1 }, 0, [.warning msg.stringArea]⟩
  | .simInfo => some ⟨st, 0, ifPrint printTrans [.info msg.stringArea]⟩
  | .simItemIn =>
    if st.simState ≠ .storeOpen then some ⟨st, Code.simKill.val, []⟩
    else
      match scanInts 1 msg.stringArea with
      | [itemID] =>
        (itemIndex itemID).map fun i =>
          ⟨{ st with
              itemsInStore := st.itemsInStore + 1
              itemCount := update st.itemCount i (st.itemCount i + 1) }, 0,
            ifPrint printTrans [.itemCreated msg.stringArea]⟩
      | _ => none
  | .simItemOut =>
    -- a closed store only takes the item off its total: the sale is taken for janitor cleanup
    if st.simState = .storeClosed then
      some ⟨{ st with itemsInStore := st.itemsInStore - 1 }, Code.simKill.val, []⟩
    else
      match strchr msg.stringArea ' ' with
      | [] => none
      | _ :: buyer =>
        let item := msg.stringArea.takeWhile (· != ' ')
        match scanInts 1 item with
        | [itemID] =>
          (itemIndex itemID).map fun i =>
            ⟨{ st with
                itemsInStore := st.itemsInStore - 1
                itemCount := update st.itemCount i (st.itemCount i - 1)
                itemsSold := update st.itemsSold i (st.itemsSold i + 1) }, shutAck st,
              ifPrint printTrans [.itemGiven item buyer]⟩
        | _ => none
  | .simCustIn =>
    if st.simState ≠ .storeOpen then some ⟨st, Code.simKill.val, []⟩
    else
      match scanInts 2 msg.stringArea with
      | [itemID, waitTime] =>
        (itemIndex itemID).map fun i =>
          ⟨{ st with
              customersInStore := st.customersInStore + 1
              customerCount := update st.customerCount i (st.customerCount i + 1)
              customerTotal := st.customerTotal + 1 }, st.customerTotal + 1,
            ifPrint printTrans [.custWants (st.customerTotal + 1) itemID waitTime]⟩
      | _ => none
  | .simCustOut =>
    match scanInts 4 msg.stringArea with
    | customerID :: itemID :: numRetries :: rest =>
      (itemIndex itemID).map fun i =>
        let st' : Store := { st with
          customersInStore := st.customersInStore - 1
          customerCount := update st.customerCount i (st.customerCount i - 1)
          customerRetries := if numRetries ≠ 0 then st.customerRetries + 1 else st.customerRetries }
        match strchr msg.stringArea '<' with
        | [] =>
          ⟨{ st' with customerExits := st.customerExits + 1 }, shutAck st,
            ifPrint printTrans [.custLeft customerID itemID rest.head?]⟩
        | marker =>
          ⟨{ st' with customerSales := st.customerSales + 1 }, shutAck st,
            ifPrint printTrans [.custGot customerID itemID marker]⟩
    | _ => none

/-! ## The `switch` of `simLogTask` -/

/-- What the logging task does after `logTransaction` returns. -/
structure AfterTransaction where
  store : Store
  spawnJanitor : Bool
  exit : Bool

/-- The `switch (simState)` after `logTransaction`. -/
def afterTransaction (st : Store) : AfterTransaction :=
  match st.simState with
  | .storeOpen => ⟨st, false, false⟩
  | .storeClosing =>
    if st.customersInStore = 0 then ⟨{ st with simState := .storeClosed }, true, false⟩
    else ⟨st, false, false⟩
  | .storeClosed => ⟨st, false, false⟩
  | .storeEmpty => ⟨st, false, true⟩

/-! ## What each transaction does

One lemma per transaction a task sends, stated on the text it sends; the rest of the development uses these
and never unfolds `logTransaction`. -/

variable (pt : Bool) {st : Store} (i : ItemIx)

/-- The transactions that leave the item and customer counters alone. -/
def Code.neutral : Code → Bool
  | .simDone | .simKill | .simError | .simWarn | .simInfo => true
  | .simItemIn | .simItemOut | .simCustIn | .simCustOut => false

/-- A neutral transaction is always handled; it keeps the counters and acknowledges with 0. -/
theorem logTransaction_neutral (st : Store) {msg : TransMsg} (hn : msg.code.neutral = true) :
    ∃ r, logTransaction pt st msg = some r ∧ r.store.toCounters = st.toCounters ∧ r.ackCode = 0 := by
  obtain ⟨code, text⟩ := msg
  cases code with
  | simDone => exact ⟨_, rfl, rfl, rfl⟩
  | simKill => exact ⟨_, rfl, rfl, rfl⟩
  | simError => exact ⟨_, rfl, rfl, rfl⟩
  | simWarn => exact ⟨_, rfl, rfl, rfl⟩
  | simInfo => exact ⟨_, rfl, rfl, rfl⟩
  | simItemIn => exact absurd hn Bool.false_ne_true
  | simItemOut => exact absurd hn Bool.false_ne_true
  | simCustIn => exact absurd hn Bool.false_ne_true
  | simCustOut => exact absurd hn Bool.false_ne_true

theorem counters_of_neutral {pt : Bool} {st : Store} {msg : TransMsg} {r : Logged} (hn : msg.code.neutral = true)
    (hlt : logTransaction pt st msg = some r) : r.store.toCounters = st.toCounters := by
  obtain ⟨r', hr', hcnt, -⟩ := logTransaction_neutral pt st hn
  obtain rfl := Option.some.inj (hr'.symm.trans hlt)
  exact hcnt

/-- Only `SIM_DONE` and `SIM_KILL` move `simState`. -/
theorem logTransaction_simState {pt : Bool} {msg : TransMsg} {r : Logged} (h : logTransaction pt st msg = some r) :
    r.store.simState = match msg.code with
      | .simDone => .storeEmpty
      | .simKill => .storeClosing
      | _ => st.simState := by
  obtain ⟨code, text⟩ := msg
  cases code <;> simp only [logTransaction] at h
  case simItemIn =>
    split at h
    · cases h; rfl
    · split at h
      · obtain ⟨j, -, rfl⟩ := Option.map_eq_some_iff.mp h; rfl
      · cases h
  case simItemOut =>
    split at h
    · cases h; rfl
    · split at h
      · cases h
      · split at h
        · obtain ⟨j, -, rfl⟩ := Option.map_eq_some_iff.mp h; rfl
        · cases h
  case simCustIn =>
    split at h
    · cases h; rfl
    · split at h
      · obtain ⟨j, -, rfl⟩ := Option.map_eq_some_iff.mp h; rfl
      · cases h
  case simCustOut =>
    split at h
    · obtain ⟨j, -, rfl⟩ := Option.map_eq_some_iff.mp h
      split <;> rfl
    · cases h
  all_goals (cases h; rfl)

/-- A store that is not open gets no new customer. -/
theorem logTransaction_customersInStore_le {pt : Bool} (hst : st.simState ≠ .storeOpen) {msg : TransMsg} {r : Logged}
    (h : logTransaction pt st msg = some r) : r.store.customersInStore ≤ st.customersInStore := by
  obtain ⟨code, text⟩ := msg
  cases code <;> simp only [logTransaction] at h
  case simItemIn =>
    rw [if_pos hst] at h
    cases h; exact le_rfl
  case simItemOut =>
    split at h
    · cases h; exact le_rfl
    · split at h
      · cases h
      · split at h
        · obtain ⟨j, -, rfl⟩ := Option.map_eq_some_iff.mp h; exact le_rfl
        · cases h
  case simCustIn =>
    rw [if_pos hst] at h
    cases h; exact le_rfl
  case simCustOut =>
    have hsub : st.customersInStore - 1 ≤ st.customersInStore := by omega
    split at h
    · obtain ⟨j, -, rfl⟩ := Option.map_eq_some_iff.mp h
      split <;> exact hsub
    · cases h
  all_goals (cases h; exact le_rfl)

/-- A store that is not open admits no item. -/
theorem logTransaction_itemIn_shut (hst : st.simState ≠ .storeOpen) (text : Text) :
    logTransaction pt st ⟨.simItemIn, text⟩ = some ⟨st, Code.simKill.val, []⟩ := by
  simp [logTransaction, hst]

/-- An open store puts the item on its books. -/
theorem logTransaction_itemIn_open (hst : st.simState = .storeOpen) :
    ∃ shown, logTransaction pt st ⟨.simItemIn, itemInText (itemIDOf i)⟩ =
      some ⟨{ st with
        itemsInStore := st.itemsInStore + 1
        itemCount := update st.itemCount i (st.itemCount i + 1) }, 0, shown⟩ := by
  simp only [logTransaction, scanInts_itemInText, itemIndex_itemIDOf, Option.map_some]
  rw [if_neg (by simp [hst])]
  exact ⟨_, rfl⟩

/-- A closed store only takes the item off its total. -/
theorem logTransaction_itemOut_closed (hst : st.simState = .storeClosed) (text : Text) :
    logTransaction pt st ⟨.simItemOut, text⟩ =
      some ⟨{ st with itemsInStore := st.itemsInStore - 1 }, Code.simKill.val, []⟩ := by
  simp [logTransaction, hst]

/-- Before it is closed, a store records the item as sold. -/
theorem logTransaction_itemOut_selling (hst : st.simState ≠ .storeClosed) (buyer : Text) :
    ∃ shown, logTransaction pt st ⟨.simItemOut, itemOutText (itemIDOf i) buyer⟩ =
      some ⟨{ st with
        itemsInStore := st.itemsInStore - 1
        itemCount := update st.itemCount i (st.itemCount i - 1)
        itemsSold := update st.itemsSold i (st.itemsSold i + 1) }, shutAck st, shown⟩ := by
  simp only [logTransaction, strchr_itemOutText, takeWhile_itemOutText, scanInts_itemInText,
    itemIndex_itemIDOf, Option.map_some]
  rw [if_neg hst]
  exact ⟨_, rfl⟩

/-- A store that is not open admits no customer. -/
theorem logTransaction_custIn_shut (hst : st.simState ≠ .storeOpen) (text : Text) :
    logTransaction pt st ⟨.simCustIn, text⟩ = some ⟨st, Code.simKill.val, []⟩ := by
  simp [logTransaction, hst]

/-- An open store gives the customer the next ID. -/
theorem logTransaction_custIn_open (hst : st.simState = .storeOpen) (waitTime : ℤ) :
    ∃ shown, logTransaction pt st ⟨.simCustIn, custInText (itemIDOf i) waitTime⟩ =
      some ⟨{ st with
        customersInStore := st.customersInStore + 1
        customerCount := update st.customerCount i (st.customerCount i + 1)
        customerTotal := st.customerTotal + 1 }, st.customerTotal + 1, shown⟩ := by
  simp only [logTransaction, scanInts_custInText, itemIndex_itemIDOf, Option.map_some]
  rw [if_neg (by simp [hst])]
  exact ⟨_, rfl⟩

/-- The counters after a customer's last report, but for the sale or walk-out itself. -/
def Store.custGone (st : Store) (i : ItemIx) (numRetries : ℤ) : Store :=
  { st with
    customersInStore := st.customersInStore - 1
    customerCount := update st.customerCount i (st.customerCount i - 1)
    customerRetries := if numRetries ≠ 0 then st.customerRetries + 1 else st.customerRetries }

/-- A report whose fourth field carries a marker is a sale. -/
theorem logTransaction_custOut_sale (st : Store) (i : ItemIx) (customerID numRetries : ℤ) {last : Text} (hlast : '<' ∈ last) :
    ∃ shown, logTransaction pt st ⟨.simCustOut, custOutText customerID (itemIDOf i) numRetries last⟩ =
      some ⟨{ st.custGone i numRetries with customerSales := st.customerSales + 1 }, shutAck st, shown⟩ := by
  simp only [logTransaction, scanInts_custOutText, itemIndex_itemIDOf, Option.map_some]
  cases hm : strchr (custOutText customerID (itemIDOf i) numRetries last) '<' with
  | nil => exact absurd (lt_mem_custOutText.mpr hlast) (strchr_eq_nil.mp hm)
  | cons c t => exact ⟨_, rfl⟩

/-- A report without a marker is a walk-out. -/
theorem logTransaction_custOut_exit (st : Store) (i : ItemIx) (customerID numRetries : ℤ) {last : Text} (hlast : '<' ∉ last) :
    ∃ shown, logTransaction pt st ⟨.simCustOut, custOutText customerID (itemIDOf i) numRetries last⟩ =
      some ⟨{ st.custGone i numRetries with customerExits := st.customerExits + 1 }, shutAck st, shown⟩ := by
  simp only [logTransaction, scanInts_custOutText, itemIndex_itemIDOf, Option.map_some]
  rw [strchr_eq_nil.mpr fun h => hlast (lt_mem_custOutText.mp h)]
  exact ⟨_, rfl⟩

/-- A customer that has timed out leaves without its item. -/
theorem logTransaction_custOut_left (st : Store) (i : ItemIx) (customerID numRetries waitTime : ℤ) :
    logTransaction pt st ⟨.simCustOut, custOutText customerID (itemIDOf i) numRetries (fmtD waitTime)⟩ =
      some ⟨{ st.custGone i numRetries with customerExits := st.customerExits + 1 }, shutAck st,
        ifPrint pt [.custLeft customerID (itemIDOf i) (some waitTime)]⟩ := by
  have hmarker : strchr (custOutText customerID (itemIDOf i) numRetries (fmtD waitTime)) '<' = [] :=
    strchr_eq_nil.mpr fun h => lt_notMem_fmtD waitTime (lt_mem_custOutText.mp h)
  have hwait : scanInts 1 (fmtD waitTime) = [waitTime] := scanInts_itemInText waitTime
  simp only [logTransaction, scanInts_custOutText, hwait, itemIndex_itemIDOf, Option.map_some, hmarker]
  rfl

/-- A customer that has read a reply got its item from the node in it. -/
theorem logTransaction_custOut_got (st : Store) (i : ItemIx) (customerID numRetries : ℤ) (addr : UInt32) :
    logTransaction pt st ⟨.simCustOut, custOutText customerID (itemIDOf i) numRetries (nodeText addr)⟩ =
      some ⟨{ st.custGone i numRetries with customerSales := st.customerSales + 1 }, shutAck st,
        ifPrint pt [.custGot customerID (itemIDOf i) (nodeText addr)]⟩ := by
  have hmarker := strchr_custOutText customerID (itemIDOf i) numRetries addr
  simp only [logTransaction, scanInts_custOutText, itemIndex_itemIDOf, Option.map_some, hmarker]
  rfl

/-! ### The `switch` -/

@[simp] theorem afterTransaction_counters (st : Store) :
    (afterTransaction st).store.toCounters = st.toCounters := by
  unfold afterTransaction
  split
  · rfl
  · split <;> rfl
  · rfl
  · rfl

/-- Either the store closes now and gets its janitor, or the `switch` leaves the state alone. -/
theorem afterTransaction_cases (st : Store) :
    (st.simState = .storeClosing ∧ st.customersInStore = 0 ∧
      afterTransaction st = ⟨{ st with simState := .storeClosed }, true, false⟩) ∨
    afterTransaction st = ⟨st, false, decide (st.simState = .storeEmpty)⟩ := by
  unfold afterTransaction
  cases hst : st.simState with
  | storeClosing =>
      by_cases hcust : st.customersInStore = 0
      · exact .inl ⟨rfl, hcust, by simp [hcust]⟩
      · exact .inr (by simp [hcust])
  | storeOpen | storeClosed | storeEmpty => exact .inr rfl

end Inventory
end Tipcutils
