import Tipcutils.Inventory.Transactions

/-!
# `Inventory.Buffers` — which texts fit into their buffers

`simCust` and `simItem` format their messages into `MSG_SIZE_MAX` octets, and `simLog` formats the reports into
`TRANSACTION_CONTENT_SIZE` octets; none of the calls of `sprintf` is bounded. The requests and the reports fit whatever
the addresses and the IDs are. A reply is the request once more behind another address, and may be too long:
**`messages_fit_iff`**.
-/

set_option linter.unusedSectionVars false

namespace Tipcutils
namespace Inventory

open Decimal Tipc

/-- `MSG_SIZE_MAX` -/
def msgSizeMax : ℕ := 50

/-- `TRANSACTION_CONTENT_SIZE` -/
def transactionContentSize : ℕ := 100

/-- A text fits into a buffer, with its terminator. -/
def Fits (size : ℕ) (t : Text) : Prop := t.length + 1 ≤ size

/-- The values of an `int`. -/
def IsInt (n : ℤ) : Prop := -2 ^ 31 ≤ n ∧ n < 2 ^ 31

/-- The digits of an address: zone, cluster and node. -/
def addrDigits (addr : UInt32) : ℕ :=
  digits (tipcZone addr).toNat + digits (tipcCluster addr).toNat + digits (tipcNode addr).toNat

/-- The reports of the tasks fit, whatever state they have come to. -/
def ReportsFit : Prop :=
  ∀ (σ ι κ : Type) [DecidableEq σ] [DecidableEq ι] [DecidableEq κ] (m : Sim σ ι κ) (s : Cluster σ ι κ),
    Cluster.Reachable m s →
      (∀ x msg, s.pending (.item x) = some msg → Fits transactionContentSize msg.stringArea) ∧
        ∀ c msg, IsInt (m.waitTime c) → IsInt (m.taskID c) → IsInt (s.cust c).customerID →
          IsInt (s.cust c).transactionID → s.pending (.cust c) = some msg → Fits transactionContentSize msg.stringArea

/-! ## Lengths -/

theorem addrDigits_le (addr : UInt32) : addrDigits addr ≤ 11 := by
  have haddr := addr.toNat_lt
  have hzone : digits (tipcZone addr).toNat ≤ 3 := by
    refine digits_le (by decide) ?_
    rw [toNat_tipcZone]
    omega
  have hcluster : digits (tipcCluster addr).toNat ≤ 4 := by
    refine digits_le (by decide) ?_
    rw [toNat_tipcCluster]
    omega
  have hnode : digits (tipcNode addr).toNat ≤ 4 := by
    refine digits_le (by decide) ?_
    rw [toNat_tipcNode]
    omega
  unfold addrDigits
  omega

theorem length_nodeText (addr : UInt32) : (nodeText addr).length = addrDigits addr + 4 := by
  simp only [nodeText, List.length_append, List.length_cons, List.length_nil, length_fmtU, addrDigits]
  omega

theorem length_nodeText_le (addr : UInt32) : (nodeText addr).length ≤ 15 := by
  rw [length_nodeText]
  exact Nat.add_le_add_right (addrDigits_le addr) 4

/-- An `int` has ten digits and a sign at most. -/
theorem length_fmtD_int {n : ℤ} (h : IsInt n) : (fmtD n).length ≤ 11 := by
  refine length_fmtD_le (by decide) ?_
  obtain ⟨hlow, hhigh⟩ := h
  omega

theorem length_fmtD_pred {n : ℤ} (h : IsInt n) : (fmtD (n - 1)).length ≤ 11 := by
  refine length_fmtD_le (by decide) ?_
  obtain ⟨hlow, hhigh⟩ := h
  omega

theorem length_fmtD_itemID (i : ItemIx) : (fmtD (itemIDOf i)).length ≤ 3 := by
  refine length_fmtD_le (by decide) ?_
  have hi : i.val < 10 := i.isLt
  unfold itemIDOf
  omega

/-! ## The reports of the tasks -/

theorem length_itemName (i : ItemIx) : (itemName (itemIDOf i)).length ≤ 8 := by
  have hitem := length_fmtD_itemID i
  have hconst : "Item ".toList.length = 5 := rfl
  unfold itemName
  rw [List.length_append, hconst]
  omega

theorem length_location {σ ι κ : Type} (m : Sim σ ι κ) (p : Peer σ κ) : (m.location p).length ≤ 15 := by
  cases p with
  | cust c transactionID => exact length_nodeText_le _
  | janitor t j => exact Nat.zero_le _

namespace ItemTask

variable {σ ι κ : Type} {m : Sim σ ι κ} {i : ItemIx} {t t' : ItemTask σ κ}

/-- What an item reports fits. -/
def ReportFits (t : ItemTask σ κ) : Prop := ∀ msg k, t.pc = .logging msg k → Fits transactionContentSize msg.stringArea

theorem fits_itemName {why : Text} (h : why.length ≤ 91) : Fits transactionContentSize (itemName (itemIDOf i) ++ why) := by
  have hname := length_itemName i
  rw [Fits, List.length_append, transactionContentSize]
  omega

theorem fits_fault (fault : ItemFault) : Fits transactionContentSize (fault.text (itemIDOf i)) := by
  cases fault <;> exact fits_itemName (by decide)

theorem ReportFits.of_logging {msg : TransMsg} {k : ItemCont} (hpc : t.pc = .logging msg k)
    (h : Fits transactionContentSize msg.stringArea) : t.ReportFits := by
  intro msg' k' hpc'
  obtain ⟨rfl, rfl⟩ := ItemPc.logging.inj (hpc.symm.trans hpc')
  exact h

theorem ReportFits.of_no_logging (h : ∀ msg k, t.pc ≠ .logging msg k) : t.ReportFits :=
  fun msg k hpc => absurd hpc (h msg k)

theorem ReportFits.step (htells : t.Tells m (itemIDOf i)) {act : ItemAct} (hs : t.step (itemIDOf i) act = some t') :
    t'.ReportFits := by
  have hitem := length_fmtD_itemID i
  cases step_branch hs with
  | arrives hpc =>
    refine .of_logging rfl ?_
    show (fmtD (itemIDOf i)).length + 1 ≤ 100
    omega
  | notListening hpc => exact .of_logging rfl (fits_fault .listen)
  | notPublished f hpc => exact .of_logging rfl (fits_fault f)
  | accepts hpc _ | receives hpc => exact .of_no_logging nofun
  | notAccepted hpc | notReceived hpc | notReplied hpc => exact .of_logging rfl (fits_itemName (by decide))
  | @sells r hpc =>
    have hreq := htells.requests
    simp only [ItemTask.requests, hpc] at hreq
    have hlocation := length_location m r.peer
    refine .of_logging rfl ?_
    rw [cutAfter_formatted (hreq r List.mem_cons_self), Fits, itemOutText, List.length_append, List.length_cons,
      transactionContentSize]
    omega

theorem ReportFits.moved (h : t.ReportFits) (htells : t.Tells m (itemIDOf i)) (hm : t.Moved (itemIDOf i) t') :
    t'.ReportFits := by
  cases hm with
  | same => exact h
  | step hs => exact .step htells hs
  | connect r =>
    unfold ItemTask.connect
    split
    · exact h
    · exact h
  | answered r =>
    obtain heq | ⟨-, -, hpc⟩ := t.answered_spec r
    · exact heq.symm ▸ h
    · refine .of_no_logging fun msg k hlog => ?_
      obtain hpc | ⟨res, hpc⟩ := hpc <;> rw [hpc] at hlog <;> nomatch hlog

end ItemTask

namespace CustTask

variable {ι : Type} {a : CustArgs} {i : ItemIx} {t t' : CustTask ι}

/-- What a customer reports fits, if its numbers are values of `int`. -/
def ReportFits (t : CustTask ι) : Prop :=
  ∀ msg k, t.pc = .logging msg k → IsInt t.customerID → IsInt t.transactionID →
    Fits transactionContentSize msg.stringArea

theorem ReportFits.of_logging {msg : TransMsg} {k : CustCont} (hpc : t.pc = .logging msg k)
    (h : IsInt t.customerID → IsInt t.transactionID → Fits transactionContentSize msg.stringArea) : t.ReportFits := by
  intro msg' k' hpc'
  obtain ⟨rfl, rfl⟩ := CustPc.logging.inj (hpc.symm.trans hpc')
  exact h

theorem ReportFits.of_no_logging (h : ∀ msg k, t.pc ≠ .logging msg k) : t.ReportFits :=
  fun msg k hpc => absurd hpc (h msg k)

theorem fits_custName {why : Text} (htask : IsInt a.taskID) (h : why.length ≤ 74) :
    Fits transactionContentSize (custName a.taskID ++ why) := by
  have hname := length_fmtD_int htask
  have hconst : "Customer task ".toList.length = 14 := rfl
  unfold Fits custName transactionContentSize
  rw [List.length_append, List.length_append, hconst]
  omega

theorem fits_missed {customerID : ℤ} {why : String} (hcust : IsInt customerID) (h : why.toList.length ≤ 50) :
    Fits transactionContentSize (missedText customerID (itemIDOf i) why) := by
  have hcustomer := length_fmtD_int hcust
  have hitem := length_fmtD_itemID i
  have hfront : "Customer ".toList.length = 9 := rfl
  have hmissed : " missed item ".toList.length = 13 := rfl
  have hopen : " (".toList.length = 2 := rfl
  have hclose : ")\n".toList.length = 2 := rfl
  unfold Fits missedText transactionContentSize
  simp only [List.length_append, hfront, hmissed, hopen, hclose]
  omega

theorem fits_custOut {customerID numRetries : ℤ} {last : Text} (hcust : (fmtD customerID).length ≤ 11)
    (hretries : (fmtD numRetries).length ≤ 11) (hlast : last.length ≤ 15) :
    Fits transactionContentSize (custOutText customerID (itemIDOf i) numRetries last) := by
  have hitem := length_fmtD_itemID i
  simp only [Fits, custOutText, List.length_append, List.length_cons, transactionContentSize]
  omega

theorem fits_subscrFault (htask : IsInt a.taskID) (fault : SubscrFault) :
    Fits transactionContentSize (fault.text a.taskID) := by
  cases fault <;> exact fits_custName htask (by decide)

theorem fits_unable (htask : IsInt a.taskID) (ha : a.itemID = itemIDOf i) :
    Fits transactionContentSize
      (custName a.taskID ++ " unable to send request to item ".toList ++ fmtD a.itemID ++ "\n".toList) := by
  have hitem := length_fmtD_itemID i
  have hunable : " unable to send request to item ".toList.length = 32 := rfl
  have hend : "\n".toList.length = 1 := rfl
  rw [List.append_assoc, List.append_assoc]
  refine fits_custName htask ?_
  rw [List.length_append, List.length_append, hunable, hend, ha]
  omega

theorem ReportFits.step (hok : t.Ok a) (ha : a.itemID = itemIDOf i) (hwait : IsInt a.waitTime) (htask : IsInt a.taskID)
    {act : CustAct ι} (hs : t.step a act = some t') : t'.ReportFits := by
  have hwaitTime := length_fmtD_int hwait
  cases step_branch hs with
  | arrives hpc =>
    refine .of_logging rfl fun _ _ => ?_
    have hitem := length_fmtD_itemID i
    show (custInText a.itemID a.waitTime).length + 1 ≤ 100
    rw [ha, custInText, List.length_append, List.length_cons]
    omega
  | notSubscribed f hpc => exact .of_logging rfl fun _ _ => fits_subscrFault htask f
  | noEvent hpc | noSocket hpc => exact .of_logging rfl fun _ _ => fits_custName htask (by decide)
  | notSent hpc => exact .of_logging rfl fun _ _ => fits_unable htask ha
  | timesOut hpc =>
    refine .of_logging rfl fun hcust hretries => ?_
    rw [ha]
    exact fits_custOut (length_fmtD_int hcust) (length_fmtD_int hretries) (hwaitTime.trans (by decide))
  | withdrawn hpc => exact .of_no_logging fun msg k hlog => by simp [hpc] at hlog
  | subscribes hpc | sees x hpc | requests hpc | ready hpc => exact .of_no_logging fun msg k hlog => by cases hlog
  | noReply hpc _ | rejected hpc => exact .of_logging rfl fun hcust _ => ha ▸ fits_missed hcust (by decide)
  | @reads x msg hpc hi =>
    obtain ⟨-, addr, inMsg, rfl⟩ := hok.inbox msg hi
    refine .of_logging rfl fun hcust hretries => ?_
    rw [replyText, cutAfter_nodeText, ha]
    exact fits_custOut (length_fmtD_int hcust) (length_fmtD_pred hretries) (length_nodeText_le addr)

theorem ReportFits.moved [DecidableEq ι] (h : t.ReportFits) (hok : t.Ok a) (ha : a.itemID = itemIDOf i)
    (hwait : IsInt a.waitTime) (htask : IsInt a.taskID) (hm : t.Moved a t') : t'.ReportFits := by
  cases hm with
  | same => exact h
  | step hs => exact .step hok ha hwait htask hs
  | deliver x id addr inMsg =>
    unfold CustTask.deliver
    split
    · exact h
    · exact h
  | answered r =>
    obtain heq | ⟨_, _, -, -, -, -, hpc⟩ := t.answered_spec r
    · exact heq.symm ▸ h
    · refine .of_no_logging fun msg k hlog => ?_
      obtain ⟨-, hpc⟩ | ⟨-, hpc⟩ | ⟨res, hpc⟩ := hpc <;> rw [hpc] at hlog <;> nomatch hlog

end CustTask

/-- **The reports fit** in every reachable state. -/
theorem reportsFit : ReportsFit := by
  intro σ ι κ _ _ _ m s h
  constructor
  · intro x msg hp
    have hfits : (s.item x).ReportFits :=
      h.inv_of (J := Cluster.Reachable m) (I := fun s => (s.item x).ReportFits) (fun _ h => h)
        (ItemTask.ReportFits.of_no_logging nofun)
        fun _ _ _ hr hfits hs => hfits.moved (Cluster.item_tells hr x) (Cluster.item_moved hs x)
    obtain ⟨k, hpc⟩ := Cluster.item_pc_of_pending hp
    exact hfits msg k hpc
  · intro c msg hwait htask hcust hretries hp
    have hfits : (s.cust c).ReportFits :=
      h.inv_of (J := Cluster.Reachable m) (I := fun s => (s.cust c).ReportFits) (fun _ h => h)
        (CustTask.ReportFits.of_no_logging nofun)
        fun _ _ _ hr hfits hs => hfits.moved (Cluster.cust_ok hr c) rfl hwait htask (Cluster.cust_moved hs c)
    obtain ⟨k, hpc⟩ := Cluster.cust_pc_of_pending hp
    exact hfits msg k hpc hcust hretries

/-! ## Requests and replies -/

section
variable {buyer seller : UInt32} {customerID transactionID : ℤ}

theorem length_requestText (hc : 0 < customerID) (ht : 0 < transactionID) :
    (requestText buyer customerID transactionID).length =
      addrDigits buyer + digits customerID.toNat + digits transactionID.toNat + 7 := by
  simp only [requestText, List.length_append, List.length_cons, List.length_nil, length_nodeText,
    length_fmtD_of_nonneg hc.le, length_fmtD_of_nonneg ht.le]
  omega

theorem digits_int {n : ℤ} (h : IsInt n) : digits n.toNat ≤ 10 := by
  refine digits_le (by decide) ?_
  obtain ⟨hlow, hhigh⟩ := h
  omega

theorem request_fits (hc : 0 < customerID) (ht : 0 < transactionID) (hcint : IsInt customerID) (htint : IsInt transactionID) :
    Fits msgSizeMax (requestText buyer customerID transactionID) := by
  have haddr := addrDigits_le buyer
  have hcust := digits_int hcint
  have htrans := digits_int htint
  rw [Fits, length_requestText hc ht, msgSizeMax]
  omega

theorem reply_fits_iff (hc : 0 < customerID) (ht : 0 < transactionID) :
    Fits msgSizeMax (replyText seller (requestText buyer customerID transactionID)) ↔
      addrDigits seller + addrDigits buyer + digits customerID.toNat + digits transactionID.toNat ≤ 38 := by
  rw [Fits, replyText, List.length_append, length_nodeText, length_requestText hc ht, msgSizeMax]
  omega

end

/-- **Which messages fit:** all requests and all reports, and the replies if and only if the digits of the two addresses and
    of the two IDs are 38 at most. -/
theorem messages_fit_iff (buyer seller : UInt32) (customerID transactionID : ℤ) (hc : 0 < customerID) (ht : 0 < transactionID)
    (hcint : IsInt customerID) (htint : IsInt transactionID) :
    (Fits msgSizeMax (requestText buyer customerID transactionID) ∧
      Fits msgSizeMax (replyText seller (requestText buyer customerID transactionID)) ∧ ReportsFit) ↔
        addrDigits seller + addrDigits buyer + digits customerID.toNat + digits transactionID.toNat ≤ 38 := by
  rw [← reply_fits_iff hc ht]
  exact ⟨fun h => h.2.1, fun h => ⟨request_fits hc ht hcint htint, h, reportsFit⟩⟩

/-- The first request of the first customer. -/
theorem messages_fit_iff_first :
    (Fits msgSizeMax (requestText 0x01001001 1 1) ∧ Fits msgSizeMax (replyText 0x01001002 (requestText 0x01001001 1 1)) ∧
      ReportsFit) ↔ addrDigits 0x01001002 + addrDigits 0x01001001 + digits (1 : ℤ).toNat + digits (1 : ℤ).toNat ≤ 38 :=
  messages_fit_iff 0x01001001 0x01001002 1 1 (by decide) (by decide) ⟨by decide, by decide⟩ ⟨by decide, by decide⟩

/-- **A reply that is too long:** `<255.4095.4095><255.4095.4095>[100000000:10000000]` has 50 octets, and one
    more with its terminator. -/
theorem reply_overflows : ¬ ∀ (buyer seller : UInt32) (customerID transactionID : ℤ), 0 < customerID → 0 < transactionID →
    IsInt customerID → IsInt transactionID →
      Fits msgSizeMax (requestText buyer customerID transactionID) ∧
        Fits msgSizeMax (replyText seller (requestText buyer customerID transactionID)) ∧ ReportsFit := by
  intro h
  have hfits := (h 0xffffffff 0xffffffff 100000000 10000000 (by decide) (by decide) ⟨by decide, by decide⟩
    ⟨by decide, by decide⟩).2.1
  exact absurd hfits (show ¬ (replyText 0xffffffff (requestText 0xffffffff 100000000 10000000)).length + 1 ≤ 50 by decide)

end Inventory
end Tipcutils
