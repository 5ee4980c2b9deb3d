import Tipcutils.Inventory.Accounting

/-!
# `Inventory.Transactions` — the texts survive the trip

A customer's node travels in its request, and from there in the report of the item that is sold; the item's node travels in
its reply, and from there in the report of the customer. The requests that fail are counted by `transactionID`.
**`texts_survive`**: what `logTransaction` reads out of the three reports is what their senders meant, in every run.

The sizes of the buffers are not modelled; `Inventory.Buffers` says which texts fit.
-/

set_option linter.unusedSectionVars false

namespace Tipcutils
namespace Inventory

open Function Decimal Lts

variable {σ ι κ : Type}

/-! ## What the texts say -/

/-- The node that the sender of a request puts into it; a janitor puts none. -/
def Sim.location (m : Sim σ ι κ) : Peer σ κ → Text
  | .cust c _ => nodeText (m.node (m.custHome c))
  | .janitor _ _ => []

/-- The node of an item. -/
def Sim.seller (m : Sim σ ι κ) (x : ι) : UInt32 := m.node (m.itemHome x)

theorem cutAfter_formatted {m : Sim σ ι κ} {r : Request σ κ} (h : Cluster.Formatted m r) :
    cutAfter '>' r.msg = m.location r.peer := by
  obtain ⟨peer, msg⟩ := r
  cases peer with
  | cust c transactionID =>
    obtain ⟨customerID, rfl⟩ := h
    exact cutAfter_requestText _ _ _
  | janitor t j =>
    obtain rfl : msg = [] := h
    rfl

/-! ## Items -/

namespace ItemTask

/-- The requests that an item has not answered. -/
def requests (t : ItemTask σ κ) : List (Request σ κ) :=
  match t.pc with
  | .receiving r | .replying r => r :: t.queue
  | _ => t.queue

/-- An item holds requests as they were formatted, and reports the node of the one to which it has sold itself. -/
structure Tells (m : Sim σ ι κ) (itemID : ℤ) (t : ItemTask σ κ) : Prop where
  requests : ∀ r ∈ t.requests, Cluster.Formatted m r
  sold : ∀ msg, t.pc = .logging msg .sold →
    ∃ p, t.soldTo = [p] ∧ msg = ⟨.simItemOut, itemOutText itemID (m.location p)⟩

variable {m : Sim σ ι κ} {itemID : ℤ} {t t' : ItemTask σ κ}

theorem tells_initial : (initial : ItemTask σ κ).Tells m itemID := ⟨nofun, nofun⟩

theorem Tells.step (h : t.Tells m itemID) (hok : t.Ok itemID) {act : ItemAct} (hs : t.step itemID act = some t') :
    t'.Tells m itemID := by
  have hreq := h.requests
  cases step_branch hs with
  | arrives hpc | notListening hpc | notPublished f hpc | notAccepted hpc | receives hpc =>
    simp only [ItemTask.requests, hpc] at hreq
    exact ⟨hreq, nofun⟩
  | accepts hpc hqueue =>
    simp only [ItemTask.requests, hpc, hqueue] at hreq
    exact ⟨hreq, nofun⟩
  | notReceived hpc | notReplied hpc =>
    simp only [ItemTask.requests, hpc] at hreq
    exact ⟨fun r hr => hreq r (List.mem_cons_of_mem _ hr), nofun⟩
  | @sells r hpc =>
    simp only [ItemTask.requests, hpc] at hreq
    simp only [Ok, hpc] at hok
    refine ⟨fun r' hr' => hreq r' (List.mem_cons_of_mem _ hr'), ?_⟩
    intro msg hmsg
    cases hmsg
    exact ⟨r.peer, by rw [hok.2.2], by rw [cutAfter_formatted (hreq r List.mem_cons_self)]⟩

theorem Tells.connect (h : t.Tells m itemID) {r : Request σ κ} (hr : Cluster.Formatted m r) : (t.connect r).Tells m itemID := by
  unfold ItemTask.connect
  split
  · refine ⟨?_, h.sold⟩
    intro r' hr'
    have hmem : r' ∈ t.requests ∨ r' = r := by
      unfold ItemTask.requests at hr' ⊢
      dsimp only at hr'
      split at hr' <;> simp_all [or_assoc]
    rcases hmem with hold | rfl
    · exact h.requests r' hold
    · exact hr
  · exact h

theorem Tells.answered (h : t.Tells m itemID) (r : LogReply) : (t.answered r).Tells m itemID := by
  obtain heq | ⟨hqueue, -, hpc⟩ := t.answered_spec r
  · exact heq.symm ▸ h
  · have hreq : (t.answered r).requests = t.queue := by
      rw [ItemTask.requests, ← hqueue]
      obtain hpc | ⟨res, hpc⟩ := hpc <;> rw [hpc]
    have hsub : ∀ r' ∈ t.queue, r' ∈ t.requests := by
      intro r' hr'
      unfold ItemTask.requests
      split
      · exact List.mem_cons_of_mem _ hr'
      · exact List.mem_cons_of_mem _ hr'
      · exact hr'
    refine ⟨fun r' hr' => h.requests r' (hsub r' (hreq ▸ hr')), fun msg hmsg => ?_⟩
    obtain hpc | ⟨res, hpc⟩ := hpc <;> rw [hpc] at hmsg <;> nomatch hmsg

end ItemTask

/-! ## Customers -/

/-- A request that has failed: it could not be sent, or no reply came, or its connection was closed. -/
def CustAct.fails : CustAct ι → Bool
  | .request (some _) => true
  | .select false => true
  | .recvReply false => true
  | _ => false

namespace CustTask

/-- The last field of a customer's report: the node of the item that it has read, or how long it has waited. -/
def lastField (a : CustArgs) (seller : ι → UInt32) (t : CustTask ι) : Text :=
  match t.reads with
  | [] => fmtD a.waitTime
  | x :: _ => nodeText (seller x)

/-- What `transactionID` and the report say, where `failed` of the requests have failed. -/
def Counts (a : CustArgs) (seller : ι → UInt32) (failed : ℕ) (t : CustTask ι) : Prop :=
  match t.pc with
  | .enter | .logging _ .admitted | .subscribing => failed = 0
  | .waiting | .requesting _ | .logging _ .retry => t.transactionID = failed
  | .selecting _ | .reading _ => t.transactionID = failed + 1
  | .logging msg .left => msg = ⟨.simCustOut, custOutText t.customerID a.itemID failed (t.lastField a seller)⟩
  | .logging _ .fail | .done _ => True

/-- The same with the reply that may be waiting: it is from the item to which the customer is connected. -/
structure Tells (a : CustArgs) (seller : ι → UInt32) (failed : ℕ) (t : CustTask ι) : Prop where
  counts : t.Counts a seller failed
  inbox : ∀ msg, t.inbox = some msg → ∃ x inMsg, t.connectedTo = some x ∧ msg = replyText (seller x) inMsg

variable {a : CustArgs} {seller : ι → UInt32} {failed : ℕ} {t t' : CustTask ι}

theorem tells_initial : (initial : CustTask ι).Tells a seller 0 := ⟨rfl, nofun⟩

/-- Off a connection the inbox says nothing. -/
theorem Tells.of_inbox_none (hc : t.Counts a seller failed) (hi : t.inbox = none) : t.Tells a seller failed :=
  ⟨hc, fun msg hmsg => by rw [hi] at hmsg; nomatch hmsg⟩

theorem Tells.step (h : t.Tells a seller failed) (hok : t.Ok a) {act : CustAct ι} (hs : t.step a act = some t') :
    t'.Tells a seller (failed + act.fails.toNat) := by
  have hcounts := h.counts
  have hin := hok.inbox_eq_none
  cases step_branch hs with
  | arrives hpc =>
    simp only [Counts, hpc] at hcounts
    exact .of_inbox_none hcounts (hin (by simp [connectedTo, hpc]))
  | subscribes hpc =>
    simp only [Counts, hpc] at hcounts
    exact .of_inbox_none (by rw [hcounts]; rfl) (hin (by simp [connectedTo, hpc]))
  -- the customer gives up without a report
  | notSubscribed f hpc | noEvent hpc | noSocket hpc | notSent hpc =>
    exact .of_inbox_none trivial (hin (by simp [connectedTo, hpc]))
  | timesOut hpc =>
    have hpcOk := hok.pcOk
    simp only [PcOk, hpc] at hpcOk
    simp only [Counts, hpc] at hcounts
    refine .of_inbox_none ?_ (hin (by simp [connectedTo, hpc]))
    show TransMsg.mk .simCustOut _ = _
    rw [hcounts, lastField]
    simp only [report, hpcOk.2.2.1]
    rfl
  | withdrawn hpc => exact h
  | sees x hpc =>
    simp only [Counts, hpc] at hcounts
    exact .of_inbox_none hcounts (hin (by simp [connectedTo, hpc]))
  | requests hpc =>
    simp only [Counts, hpc] at hcounts
    exact .of_inbox_none (congrArg (· + 1) hcounts) rfl
  | ready hpc =>
    simp only [Counts, hpc] at hcounts
    refine ⟨hcounts, fun msg hmsg => ?_⟩
    obtain ⟨y, inMsg, hy, rfl⟩ := h.inbox msg hmsg
    exact ⟨y, inMsg, by simpa [connectedTo, hpc] using hy, rfl⟩
  | noReply hpc hno =>
    simp only [Counts, hpc] at hcounts
    exact .of_inbox_none (hcounts.trans (Nat.cast_succ failed).symm) hno
  | @reads x msg hpc hi =>
    simp only [Counts, hpc] at hcounts
    obtain ⟨y, inMsg, hy, rfl⟩ := h.inbox msg hi
    obtain rfl : x = y := by simpa [connectedTo, hpc] using hy
    refine .of_inbox_none ?_ rfl
    show TransMsg.mk .simCustOut _ = _
    rw [hcounts, replyText, cutAfter_nodeText]
    simp only [report, lastField, add_sub_cancel_right]
    rfl
  | rejected hpc =>
    simp only [Counts, hpc] at hcounts
    exact .of_inbox_none (hcounts.trans (Nat.cast_succ failed).symm) rfl

theorem Tells.deliver [DecidableEq ι] (h : t.Tells a seller failed) (x : ι) (id : ℤ) (inMsg : Text) :
    (t.deliver x id (replyText (seller x) inMsg)).Tells a seller failed := by
  unfold CustTask.deliver
  split
  · rename_i hc
    exact ⟨h.counts, fun msg hmsg => ⟨x, inMsg, hc.1, (Option.some.inj hmsg).symm⟩⟩
  · exact h

theorem Tells.answered (h : t.Tells a seller failed) (hok : t.Ok a) (r : LogReply) :
    (t.answered r).Tells a seller failed := by
  have hcounts := h.counts
  obtain heq | ⟨msg, k, hpc, hinbox, -, htrans, hnext⟩ := t.answered_spec r
  · exact heq.symm ▸ h
  · have hno := hok.inbox_eq_none (by simp [connectedTo, hpc])
    refine .of_inbox_none ?_ (hinbox.trans hno)
    obtain ⟨rfl, hnext⟩ | ⟨rfl, hnext⟩ | ⟨res, hnext⟩ := hnext
    · simp only [Counts, hpc] at hcounts
      simp only [Counts, hnext]
      exact hcounts
    · simp only [Counts, hpc] at hcounts
      simp only [Counts, hnext]
      exact htrans.trans hcounts
    · simp only [Counts, hnext]

end CustTask

/-! ## Every run -/

variable [DecidableEq σ] [DecidableEq ι] [DecidableEq κ] {m : Sim σ ι κ} {s s' : Cluster σ ι κ}

/-- A move in which a request of customer `c` fails. -/
def Label.failsRequest (c : κ) : Label σ ι κ → Bool
  | .cust d act => decide (d = c) && act.fails
  | _ => false

theorem failsRequest_cust (c : κ) (act : CustAct ι) : (Label.cust c act : Label σ ι κ).failsRequest c = act.fails := by
  rw [Label.failsRequest, decide_eq_true rfl, Bool.true_and]

theorem failsRequest_of_ne {c : κ} {l : Label σ ι κ} (h : ∀ act, l ≠ .cust c act) : l.failsRequest c = false := by
  cases l with
  | cust d act =>
    have hd : d ≠ c := fun heq => h act (heq ▸ rfl)
    rw [Label.failsRequest, decide_eq_false hd, Bool.false_and]
  | item | janitor | log | drop | fail | switch => rfl

/-- How many requests of customer `c` have failed in a run. -/
def failedRequests (c : κ) (tr : List (Cluster σ ι κ × Label σ ι κ × Cluster σ ι κ)) : ℕ :=
  tr.countP fun x => x.2.1.failsRequest c

theorem failedRequests_snoc (c : κ) (tr : List (Cluster σ ι κ × Label σ ι κ × Cluster σ ι κ)) (l : Label σ ι κ) :
    failedRequests c (tr ++ [(s, l, s')]) = failedRequests c tr + (l.failsRequest c).toNat := by
  rw [failedRequests, List.countP_append, List.countP_singleton, failedRequests]
  show _ + (if l.failsRequest c = true then 1 else 0) = _
  cases l.failsRequest c <;> rfl

namespace Cluster

/-- **Items tell what they were told.** -/
theorem item_tells (h : Reachable m s) (x : ι) : (s.item x).Tells m (m.itemID x) := by
  refine h.inv_of (J := Reachable m) (I := fun s => (s.item x).Tells m (m.itemID x)) (fun _ h => h)
    ItemTask.tells_initial ?_
  intro s l s' hr htells hs
  have hchange := item_change hs x
  generalize s'.item x = t at hchange ⊢
  cases hchange with
  | same => exact htells
  | own _ ht => exact htells.step (item_ok hr x) ht
  | request hr => exact htells.connect hr
  | unhandled => exact htells.answered _
  | handled r _ => exact htells.answered r

/-- One step: what a customer tells, with the requests that fail counted. -/
theorem cust_tells_step {l : Label σ ι κ} {c : κ} {failed : ℕ} (hok : (s.cust c).Ok (m.custArgs c))
    (h : (s.cust c).Tells (m.custArgs c) m.seller failed) (hs : step m s l = some s') :
    (s'.cust c).Tells (m.custArgs c) m.seller (failed + (l.failsRequest c).toNat) := by
  have hquiet (hl : ∀ act, l ≠ .cust c act) : failed + (l.failsRequest c).toNat = failed := by
    rw [failsRequest_of_ne hl]
    rfl
  have hchange := cust_change hs c
  generalize s'.cust c = t at hchange ⊢
  cases hchange with
  | same hl => exact (hquiet hl).symm ▸ h
  | own hl ht =>
    subst hl
    rw [failsRequest_cust]
    exact h.step hok ht
  | reply hl _ =>
    subst hl
    exact h.deliver _ _ _
  | unhandled hl => exact (hquiet hl).symm ▸ h.answered hok _
  | handled r hl =>
    subst hl
    exact h.answered hok r

/-- **Customers tell what they were told, and how often they have tried in vain.** -/
theorem cust_tells {tr : List (Cluster σ ι κ × Label σ ι κ × Cluster σ ι κ)} (h : Run (step m) initial tr s) (c : κ) :
    (s.cust c).Tells (m.custArgs c) m.seller (failedRequests c tr) := by
  induction h with
  | nil => exact CustTask.tells_initial
  | snoc hr hs ih =>
    rw [failedRequests_snoc]
    exact cust_tells_step (cust_ok hr.reach c) ih hs

end Cluster

/-! ## What the logging task reads -/

/-- A `SIM_CUST_IN` says which item the customer wants, and for how long it waits. -/
structure CustInRead (a : CustArgs) (printTrans : Bool) (st : Store) (msg : TransMsg) (r : Logged) : Prop where
  parsed : scanInts 2 msg.stringArea = [a.itemID, a.waitTime]
  shown : st.simState = .storeOpen →
    r.shown = ifPrint printTrans [.custWants (st.customerTotal + 1) a.itemID a.waitTime]

/-- The line of a customer that has got its item, with the node of the item, or has left without. -/
def CustTask.outcome (a : CustArgs) (seller : ι → UInt32) (t : CustTask ι) : Shown :=
  match t.reads with
  | [] => .custLeft t.customerID a.itemID (some a.waitTime)
  | x :: _ => .custGot t.customerID a.itemID (nodeText (seller x))

/-- A `SIM_CUST_OUT` says how many requests have failed, and counts as a sale if and only if the customer has read the
    reply of an item. -/
structure CustOutRead (a : CustArgs) (seller : ι → UInt32) (t : CustTask ι) (failed : ℕ) (printTrans : Bool) (st : Store)
    (msg : TransMsg) (r : Logged) : Prop where
  parsed : scanInts 4 msg.stringArea =
    t.customerID :: a.itemID :: (failed : ℤ) :: if t.reads.isEmpty then [a.waitTime] else []
  sales : r.store.customerSales = st.customerSales + if t.reads.isEmpty then 0 else 1
  exits : r.store.customerExits = st.customerExits + if t.reads.isEmpty then 1 else 0
  retries : r.store.customerRetries = st.customerRetries + if failed = 0 then 0 else 1
  shown : r.shown = ifPrint printTrans [t.outcome a seller]

/-- A `SIM_ITEM_OUT` says to which node the item has been sold. -/
structure ItemOutRead (itemID : ℤ) (location : Peer σ κ → Text) (t : ItemTask σ κ) (printTrans : Bool) (st : Store)
    (msg : TransMsg) (r : Logged) : Prop where
  parsed : scanInts 1 (msg.stringArea.takeWhile (· != ' ')) = [itemID]
  shown : ∃ p, t.soldTo = [p] ∧
    (st.simState ≠ .storeClosed → r.shown = ifPrint printTrans [.itemGiven (itemInText itemID) (location p)])

section
variable {pt : Bool} {st : Store} {r : Logged} {i : ItemIx}

theorem custInRead {a : CustArgs} (ha : a.itemID = itemIDOf i)
    (h : logTransaction pt st ⟨.simCustIn, custInText a.itemID a.waitTime⟩ = some r) :
    CustInRead a pt st ⟨.simCustIn, custInText a.itemID a.waitTime⟩ r := by
  refine ⟨scanInts_custInText _ _, fun hopen => ?_⟩
  simp only [logTransaction, scanInts_custInText, ha, itemIndex_itemIDOf, Option.map_some] at h
  rw [if_neg (not_not.mpr hopen)] at h
  rw [← Option.some.inj h, ha]

theorem custOutRead {a : CustArgs} {seller : ι → UInt32} {t : CustTask ι} {failed : ℕ} {text : Text}
    (ha : a.itemID = itemIDOf i) (htext : text = custOutText t.customerID a.itemID failed (t.lastField a seller))
    (h : logTransaction pt st ⟨.simCustOut, text⟩ = some r) :
    CustOutRead a seller t failed pt st ⟨.simCustOut, text⟩ r := by
  have hretries (n : ℤ) : (if (failed : ℤ) ≠ 0 then n + 1 else n) = n + if failed = 0 then 0 else 1 := by
    split <;> split <;> omega
  subst htext
  cases hreads : t.reads with
  | nil =>
    have hlast : t.lastField a seller = fmtD a.waitTime := by rw [CustTask.lastField, hreads]
    have hwait : scanInts 1 (fmtD a.waitTime) = [a.waitTime] := scanInts_itemInText a.waitTime
    rw [hlast] at h ⊢
    rw [ha, logTransaction_custOut_left] at h
    obtain rfl := Option.some.inj h
    refine ⟨?_, ?_, ?_, hretries _, ?_⟩
    · rw [scanInts_custOutText, hwait, hreads]
      rfl
    · rw [hreads]
      exact (add_zero _).symm
    · rw [hreads]
      rfl
    · rw [CustTask.outcome, hreads, ha]
  | cons x reads =>
    have hlast : t.lastField a seller = nodeText (seller x) := by rw [CustTask.lastField, hreads]
    rw [hlast] at h ⊢
    rw [ha, logTransaction_custOut_got] at h
    obtain rfl := Option.some.inj h
    refine ⟨?_, ?_, ?_, hretries _, ?_⟩
    · rw [scanInts_custOutText, scanInts_nodeText, hreads]
      rfl
    · rw [hreads]
      rfl
    · rw [hreads]
      exact (add_zero _).symm
    · rw [CustTask.outcome, hreads, ha]

theorem itemOutRead {location : Peer σ κ → Text} {t : ItemTask σ κ} {p : Peer σ κ} (hsold : t.soldTo = [p])
    (h : logTransaction pt st ⟨.simItemOut, itemOutText (itemIDOf i) (location p)⟩ = some r) :
    ItemOutRead (itemIDOf i) location t pt st ⟨.simItemOut, itemOutText (itemIDOf i) (location p)⟩ r := by
  refine ⟨by rw [takeWhile_itemOutText, scanInts_itemInText], p, hsold, fun hopen => ?_⟩
  simp only [logTransaction, strchr_itemOutText, takeWhile_itemOutText, scanInts_itemInText, itemIndex_itemIDOf,
    Option.map_some] at h
  rw [if_neg hopen] at h
  rw [← Option.some.inj h]

end

namespace Cluster

/-- What the logging task of `w` reads out of its transaction, by the kind of it. -/
def Read (m : Sim σ ι κ) (tr : List (Cluster σ ι κ × Label σ ι κ × Cluster σ ι κ)) (s : Cluster σ ι κ) (w : Sender σ ι κ)
    (msg : TransMsg) (r : Logged) : Prop :=
  match msg.code with
  | .simCustIn => ∃ c, w = .cust c ∧
    CustInRead (m.custArgs c) (m.printTrans (m.home w)) (s.log (m.home w)).store msg r
  | .simCustOut => ∃ c, w = .cust c ∧
    CustOutRead (m.custArgs c) m.seller (s.cust c) (failedRequests c tr) (m.printTrans (m.home w)) (s.log (m.home w)).store
      msg r
  | .simItemOut => ∃ x, w = .item x ∧
    ItemOutRead (m.itemID x) m.location (s.item x) (m.printTrans (m.home w)) (s.log (m.home w)).store msg r
  | _ => True

theorem item_read (h : Reachable m s) {x : ι} {msg : TransMsg} {r : Logged}
    {tr : List (Cluster σ ι κ × Label σ ι κ × Cluster σ ι κ)} (hp : s.pending (.item x) = some msg)
    (hlog : logTransaction (m.printTrans (m.itemHome x)) (s.log (m.itemHome x)).store msg = some r) :
    s.Read m tr (.item x) msg r := by
  obtain ⟨k, hpc⟩ := item_pc_of_pending hp
  have hok := item_ok h x
  simp only [ItemTask.Ok, hpc] at hok
  cases k with
  | admitted =>
    obtain ⟨rfl, -⟩ := hok
    trivial
  | fail =>
    rw [Read, hok.1]
    trivial
  | retry =>
    rw [Read, hok.1]
    trivial
  | sold =>
    obtain ⟨p, hsold, rfl⟩ := (item_tells h x).sold msg hpc
    exact ⟨x, rfl, itemOutRead hsold hlog⟩

theorem cust_read {tr : List (Cluster σ ι κ × Label σ ι κ × Cluster σ ι κ)} (h : Run (step m) initial tr s) {c : κ}
    {msg : TransMsg} {r : Logged} (hp : s.pending (.cust c) = some msg)
    (hlog : logTransaction (m.printTrans (m.custHome c)) (s.log (m.custHome c)).store msg = some r) :
    s.Read m tr (.cust c) msg r := by
  obtain ⟨k, hpc⟩ := cust_pc_of_pending hp
  have hok := (cust_ok h.reach c).pcOk
  simp only [CustTask.PcOk, hpc] at hok
  cases k with
  | admitted =>
    obtain ⟨rfl, -⟩ := hok
    exact ⟨c, rfl, custInRead rfl hlog⟩
  | fail =>
    rw [Read, hok.1]
    trivial
  | retry =>
    rw [Read]
    obtain hcode | hcode := hok.1 <;> rw [hcode] <;> trivial
  | left =>
    have hcounts := (cust_tells h c).counts
    simp only [CustTask.Counts, hpc] at hcounts
    subst hcounts
    exact ⟨c, rfl, custOutRead rfl rfl hlog⟩

/-- **The texts survive the trip.** In every run, what a logging task reads out of a transaction is what its sender meant:
    the numbers, the requests that have failed, and the node at the other end of the sale. -/
theorem texts_survive (m : Sim σ ι κ) (tr : List (Cluster σ ι κ × Label σ ι κ × Cluster σ ι κ)) (s s' : Cluster σ ι κ)
    (w : Sender σ ι κ) (received : Bool) (hrun : Run (step m) initial tr s) (hstep : step m s (.log w received) = some s') :
    ∃ msg r, s.pending w = some msg ∧
      logTransaction (m.printTrans (m.home w)) (s.log (m.home w)).store msg = some r ∧
      (s'.log (m.home w)).store = r.store ∧ s.Read m tr w msg r := by
  obtain ⟨msg, r, -, hp, hlog, rfl⟩ := step_log hstep
  have hstore : (update s.log (m.home w) ⟨r.store, .switch⟩ (m.home w)).store = r.store := by rw [update_self]
  refine ⟨msg, r, hp, hlog, by rw [answer_log]; exact hstore, ?_⟩
  cases w with
  | item x => exact item_read hrun.reach hp hlog
  | cust c => exact cust_read hrun hp hlog
  | janitor t j =>
    rw [Read]
    obtain hcode | hcode := janitor_pending_neutral hrun.reach hp <;> rw [hcode] <;> trivial
  | kill t =>
    obtain rfl := Option.some.inj hp
    trivial

end Cluster

/-- `twoStoresSale`, up to the customer's report. -/
def twoStoresBought : List (Label Bool Unit Unit) := twoStoresSale.take 16

theorem twoStoresBought_runs : (exec (Cluster.step twoStores) .initial twoStoresBought).isSome = true := by decide

theorem texts_survive_twoStores :
    ∃ tr s s' msg r, Run (Cluster.step twoStores) .initial tr s ∧
      Cluster.step twoStores s (.log (.cust ()) true) = some s' ∧ s.pending (.cust ()) = some msg ∧
      logTransaction false (s.log true).store msg = some r ∧ (s'.log true).store = r.store ∧
      s.Read twoStores tr (.cust ()) msg r := by
  have hnext : (Cluster.step twoStores (final (Cluster.step twoStores) .initial twoStoresBought twoStoresBought_runs)
      (.log (.cust ()) true)).isSome = true := by decide
  obtain ⟨s', hs'⟩ := Option.isSome_iff_exists.mp hnext
  have hrun := run_of_exec (Option.some_get twoStoresBought_runs).symm
  exact ⟨_, _, s', (Cluster.texts_survive twoStores _ _ s' (.cust ()) true hrun hs').imp fun msg ⟨r, h⟩ =>
    ⟨r, hrun, hs', h⟩⟩

end Inventory
end Tipcutils
