import Tipcutils.Inventory.Cluster

/-!
# `Inventory.TaskInv` — what every task's program counter says about its history

Two kinds of facts about reachable states:

* **`item_ok`**, **`cust_ok`** — local facts: where a task is tells what the logging task has recorded
  about it, and the text of the transaction it sends;
* **`linked`** — a reply that waits at or has been read by a customer was sent by that item on a connection of
  that customer.

They follow from what any move of the cluster can do to one task (`Moved`, from `Cluster.item_change` and
`Cluster.cust_change`). Every later invariant about the simulation is derived from these. With them
**`logTransaction_defined`**: no task sends a transaction on which `logTransaction` would be undefined.
-/

set_option linter.unusedSectionVars false

namespace Tipcutils
namespace Inventory

open Function Decimal

variable {σ ι κ : Type}

/-! ## Local facts -/

namespace ItemTask

/-- Not admitted, and nothing sent. -/
def Fresh (t : ItemTask σ κ) : Prop := t.admitted = false ∧ t.reported = none ∧ t.soldTo = []

/-- Admitted, and neither sold nor reported out. -/
def OnSale (t : ItemTask σ κ) : Prop := t.admitted = true ∧ t.reported = none ∧ t.soldTo = []

/-- Admitted, and sold on the connection to `p`. -/
def SoldTo (t : ItemTask σ κ) (p : Peer σ κ) : Prop := t.admitted = true ∧ t.soldTo = [p]

/-- What the program counter of item `itemID` says about its history. -/
def Ok (itemID : ℤ) (t : ItemTask σ κ) : Prop :=
  match t.pc with
  | .enter => t.Fresh
  | .logging msg .admitted => msg = ⟨.simItemIn, itemInText itemID⟩ ∧ t.Fresh
  | .logging msg .fail => msg.code = .simError ∧ (t.Fresh ∨ t.OnSale)
  | .logging msg .retry => msg.code = .simWarn ∧ t.OnSale
  | .logging msg .sold =>
    (∃ buyer, msg = ⟨.simItemOut, itemOutText itemID buyer⟩) ∧ t.reported = none ∧ ∃ p, t.SoldTo p
  | .accepting | .receiving _ | .replying _ => t.OnSale
  | .done _ => t.Fresh ∨ t.OnSale ∨ ∃ p, t.SoldTo p

/-- What a move of the cluster can do to one item. -/
inductive Moved (itemID : ℤ) (t : ItemTask σ κ) : ItemTask σ κ → Prop where
  | same : Moved itemID t t
  | step {act : ItemAct} {t' : ItemTask σ κ} : t.step itemID act = some t' → Moved itemID t t'
  | connect (r : Request σ κ) : Moved itemID t (t.connect r)
  | answered (r : LogReply) : Moved itemID t (t.answered r)

variable {itemID : ℤ} {t t' : ItemTask σ κ}

theorem initial_ok : (initial : ItemTask σ κ).Ok itemID := ⟨rfl, rfl, rfl⟩

theorem Ok.step {act : ItemAct} (h : t.Ok itemID) (hs : t.step itemID act = some t') : t'.Ok itemID := by
  cases step_branch hs with
  | arrives hpc | notReceived hpc | notReplied hpc =>
      simp only [Ok, hpc] at h
      exact ⟨rfl, h⟩
  | notListening hpc | notPublished f hpc =>
      simp only [Ok, hpc] at h
      exact ⟨rfl, .inl h⟩
  | accepts hpc _ | receives hpc =>
      simp only [Ok, hpc] at h
      exact h
  | notAccepted hpc =>
      simp only [Ok, hpc] at h
      exact ⟨rfl, .inr h⟩
  | @sells r hpc =>
      simp only [Ok, hpc] at h
      obtain ⟨hadm, hrep, hsold⟩ := h
      exact ⟨⟨_, rfl⟩, hrep, r.peer, hadm, by simp [hsold]⟩

theorem Ok.connect (h : t.Ok itemID) (r : Request σ κ) : (t.connect r).Ok itemID := by
  unfold ItemTask.connect
  split
  · exact h
  · exact h

/-- Once the logging task has handled the arrival of an item, the item is on sale or as it was. -/
theorem Fresh.recorded (h : t.Fresh) (r : LogReply) :
    (t.record .admitted r).Fresh ∨ (t.record .admitted r).OnSale := by
  cases r with
  | unhandled => exact .inl h
  | handled st ack received =>
      obtain ⟨-, hrep, hsold⟩ := h
      by_cases hack : 0 ≤ ack
      · exact .inr ⟨by simp [ItemTask.record, hack], hrep, hsold⟩
      · exact .inl ⟨by simp [ItemTask.record, hack], hrep, hsold⟩

/-- An item that reads no error from `simLog` has been admitted by the logging task. -/
theorem Fresh.onSale (h : t.Fresh) {r : LogReply} (hres : 0 ≤ r.result) : (t.record .admitted r).OnSale := by
  obtain ⟨st, ack, received, rfl, hack⟩ := LogReply.exists_handled_of_result hres
  exact ⟨by simpa [ItemTask.record] using hack ▸ hres, h.2.1, h.2.2⟩

theorem Ok.answered (h : t.Ok itemID) (r : LogReply) : (t.answered r).Ok itemID := by
  unfold ItemTask.answered
  split
  · rename_i msg k hpc
    simp only [Ok, hpc] at h
    cases k with
    | admitted =>
        by_cases hres : r.result < 0
        · simp only [ItemTask.resume, if_pos hres]
          exact (h.2.recorded r).elim .inl fun h' => .inr (.inl h')
        · simp only [ItemTask.resume, if_neg hres]
          exact h.2.onSale (not_lt.mp hres)
    | fail =>
        rw [record_fail]
        exact h.2.elim .inl fun h' => .inr (.inl h')
    | retry =>
        rw [record_retry]
        exact h.2
    | sold =>
        obtain ⟨-, -, p, hp⟩ := h
        refine .inr (.inr ⟨p, ?_⟩)
        cases r <;> exact hp
  · exact h

theorem Ok.moved (h : t.Ok itemID) (hm : t.Moved itemID t') : t'.Ok itemID := by
  cases hm with
  | same => exact h
  | step hs => exact h.step hs
  | connect r => exact h.connect r
  | answered r => exact h.answered r

/-- A connection on which the reply has been sent stays one. -/
theorem Moved.soldTo_mono (hm : t.Moved itemID t') {p : Peer σ κ} (hp : p ∈ t.soldTo) : p ∈ t'.soldTo := by
  cases hm with
  | same => exact hp
  | step hs =>
      cases step_branch hs with
      | sells _ => exact List.mem_cons_of_mem _ hp
      | _ => exact hp
  | connect r =>
      unfold ItemTask.connect
      split <;> exact hp
  | answered r =>
      obtain heq | ⟨-, hsold, -⟩ := t.answered_spec r
      · exact heq.symm ▸ hp
      · exact hsold.symm ▸ hp

/-- The phases an item's history can be in, whatever its program counter. -/
theorem Ok.phase (h : t.Ok itemID) : t.Fresh ∨ t.OnSale ∨ ∃ p, t.SoldTo p := by
  unfold Ok at h
  split at h
  · exact .inl h
  · exact .inl h.2
  · exact h.2.elim .inl fun h' => .inr (.inl h')
  · exact .inr (.inl h.2)
  · exact .inr (.inr h.2.2)
  · exact .inr (.inl h)
  · exact .inr (.inl h)
  · exact .inr (.inl h)
  · exact h

/-- An item sends its reply successfully at most once. -/
theorem Ok.soldTo_eq (h : t.Ok itemID) {p : Peer σ κ} (hp : p ∈ t.soldTo) : t.soldTo = [p] := by
  rcases h.phase with ⟨-, -, h'⟩ | ⟨-, -, h'⟩ | ⟨q, -, h'⟩
  · rw [h'] at hp; cases hp
  · rw [h'] at hp; cases hp
  · rw [h', List.mem_singleton] at hp
    rw [h', hp]

/-- Only an admitted item sells itself. -/
theorem Ok.admitted_of_soldTo (h : t.Ok itemID) (hp : t.soldTo ≠ []) : t.admitted = true := by
  rcases h.phase with ⟨-, -, h'⟩ | ⟨-, -, h'⟩ | ⟨q, hadm, -⟩
  · exact absurd h' hp
  · exact absurd h' hp
  · exact hadm

/-- Only an admitted item reports out. -/
theorem Ok.admitted_of_reported (h : t.Ok itemID) (hrep : t.reported ≠ none) : t.admitted = true := by
  rcases h.phase with ⟨-, h', -⟩ | ⟨-, h', -⟩ | ⟨q, hadm, -⟩
  · exact absurd h' hrep
  · exact absurd h' hrep
  · exact hadm

end ItemTask

namespace CustTask

/-- Not admitted, and nothing read or reported. -/
def Fresh (t : CustTask ι) : Prop := t.admitted = false ∧ t.left = false ∧ t.reads = [] ∧ t.reports = []

/-- Admitted, and nothing read or reported yet. -/
def Shopping (t : CustTask ι) : Prop := t.admitted = true ∧ t.left = false ∧ t.reads = [] ∧ t.reports = []

/-- Admitted, and made its one report `text`; the report carries a marker exactly when a reply was read. -/
def Reported (itemID : ℤ) (t : CustTask ι) (text : Text) : Prop :=
  t.admitted = true ∧ t.reports = [text] ∧
    ∃ numRetries last, text = custOutText t.customerID itemID numRetries last ∧
      (t.reads = [] ∧ '<' ∉ last ∨ ∃ x, t.reads = [x] ∧ '<' ∈ last)

/-- What the program counter of a customer says about its history. -/
def PcOk (a : CustArgs) (t : CustTask ι) : Prop :=
  match t.pc with
  | .enter => t.Fresh
  | .logging msg .admitted => msg = ⟨.simCustIn, custInText a.itemID a.waitTime⟩ ∧ t.Fresh
  | .logging msg .fail => msg.code = .simError ∧ t.Shopping
  | .logging msg .retry => (msg.code = .simWarn ∨ msg.code = .simInfo) ∧ t.Shopping
  | .logging msg .left => t.left = false ∧ msg.code = .simCustOut ∧ t.Reported a.itemID msg.stringArea
  | .subscribing | .waiting | .requesting _ | .selecting _ | .reading _ => t.Shopping
  | .done _ => t.Fresh ∨ t.Shopping ∨ ∃ text, t.Reported a.itemID text

/-- The same with the reply that may be waiting: it arrives on an open connection, in the format of `simItem`. -/
structure Ok (a : CustArgs) (t : CustTask ι) : Prop where
  pcOk : t.PcOk a
  inbox : ∀ msg, t.inbox = some msg → t.connectedTo ≠ none ∧ ∃ addr inMsg, msg = replyText addr inMsg

/-- What a move of the cluster can do to one customer. -/
inductive Moved [DecidableEq ι] (a : CustArgs) (t : CustTask ι) : CustTask ι → Prop where
  | same : Moved a t t
  | step {act : CustAct ι} {t' : CustTask ι} : t.step a act = some t' → Moved a t t'
  | deliver (x : ι) (transactionID : ℤ) (addr : UInt32) (inMsg : Text) :
      Moved a t (t.deliver x transactionID (replyText addr inMsg))
  | answered (r : LogReply) : Moved a t (t.answered r)

variable {a : CustArgs} {t t' : CustTask ι}

theorem initial_ok : (initial : CustTask ι).Ok a :=
  ⟨⟨rfl, rfl, rfl, rfl⟩, fun _ h => nomatch h⟩

/-- Off a connection no reply is waiting. -/
theorem Ok.inbox_eq_none (h : t.Ok a) (hc : t.connectedTo = none) : t.inbox = none := by
  cases hi : t.inbox with
  | none => rfl
  | some msg => exact absurd hc (h.inbox msg hi).1

theorem Ok.step {act : CustAct ι} (h : t.Ok a) (hs : t.step a act = some t') : t'.Ok a := by
  have hin := h.inbox_eq_none
  have hpcOk := h.pcOk
  cases step_branch hs with
  | arrives hpc | notSubscribed f hpc | noEvent hpc | noSocket hpc | notSent hpc =>
      have hno := hin (by simp [connectedTo, hpc])
      simp only [PcOk, hpc] at hpcOk
      exact ⟨⟨rfl, hpcOk⟩, by simp [hno]⟩
  | subscribes hpc | sees x hpc =>
      have hno := hin (by simp [connectedTo, hpc])
      simp only [PcOk, hpc] at hpcOk
      exact ⟨hpcOk, by simp [hno]⟩
  | timesOut hpc =>
      have hno := hin (by simp [connectedTo, hpc])
      simp only [PcOk, hpc] at hpcOk
      obtain ⟨hadm, hleft, hreads, hreps⟩ := hpcOk
      refine ⟨⟨hleft, rfl, hadm, by simp [report, hreps], _, _, rfl, .inl ⟨hreads, ?_⟩⟩, by simp [report, hno]⟩
      exact lt_notMem_fmtD _
  | withdrawn hpc => exact h
  | requests hpc =>
      simp only [PcOk, hpc] at hpcOk
      exact ⟨hpcOk, by simp⟩
  | ready hpc =>
      simp only [PcOk, hpc] at hpcOk
      exact ⟨hpcOk, fun msg hi => ⟨by simp [connectedTo], (h.inbox msg hi).2⟩⟩
  | noReply hpc hno =>
      simp only [PcOk, hpc] at hpcOk
      exact ⟨⟨.inl rfl, hpcOk⟩, by simp [hno]⟩
  | @reads x msg hpc hi =>
      obtain ⟨-, addr, inMsg, rfl⟩ := h.inbox _ hi
      simp only [PcOk, hpc] at hpcOk
      obtain ⟨hadm, hleft, hreads, hreps⟩ := hpcOk
      refine ⟨⟨hleft, rfl, hadm, by simp [report, hreps], _, _, rfl, .inr ⟨x, by simp [report, hreads], ?_⟩⟩,
        by simp [report]⟩
      exact lt_mem_cutAfter_replyText addr inMsg
  | rejected hpc =>
      simp only [PcOk, hpc] at hpcOk
      exact ⟨⟨.inr rfl, hpcOk⟩, by simp⟩

theorem Ok.deliver [DecidableEq ι] (h : t.Ok a) (x : ι) (id : ℤ) (addr : UInt32) (inMsg : Text) :
    (t.deliver x id (replyText addr inMsg)).Ok a := by
  unfold CustTask.deliver
  split
  · rename_i hc
    refine ⟨h.pcOk, fun msg hi => ⟨?_, addr, inMsg, (Option.some.inj hi).symm⟩⟩
    show t.connectedTo ≠ none
    simp [hc.1]
  · exact h

/-- Once the logging task has handled the arrival of a customer, the customer shops or is as it was. -/
theorem Fresh.recorded (h : t.Fresh) (r : LogReply) :
    (t.record .admitted r).Fresh ∨ (t.record .admitted r).Shopping := by
  cases r with
  | unhandled => exact .inl h
  | handled st ack received =>
      obtain ⟨-, hrest⟩ := h
      by_cases hack : 0 ≤ ack
      · exact .inr ⟨by simp [CustTask.record, hack], hrest⟩
      · exact .inl ⟨by simp [CustTask.record, hack], hrest⟩

/-- A customer that reads no error from `simLog` has been admitted by the logging task. -/
theorem Fresh.shopping (h : t.Fresh) {r : LogReply} (hres : 0 ≤ r.result) : (t.record .admitted r).Shopping := by
  obtain ⟨st, ack, received, rfl, hack⟩ := LogReply.exists_handled_of_result hres
  exact ⟨by simpa [CustTask.record] using hack ▸ hres, h.2⟩

theorem PcOk.answered (h : t.PcOk a) (r : LogReply) : (t.answered r).PcOk a := by
  unfold CustTask.answered
  split
  · rename_i msg k hpc
    simp only [PcOk, hpc] at h
    cases k with
    | admitted =>
        by_cases hres : r.result < 0
        · simp only [CustTask.resume, if_pos hres]
          exact (h.2.recorded r).elim .inl fun h' => .inr (.inl h')
        · simp only [CustTask.resume, if_neg hres]
          exact h.2.shopping (not_lt.mp hres)
    | fail =>
        rw [record_fail]
        exact .inr (.inl h.2)
    | retry =>
        rw [record_retry]
        exact h.2
    | left =>
        obtain ⟨-, -, hrep⟩ := h
        refine .inr (.inr ⟨msg.stringArea, ?_⟩)
        cases r <;> exact hrep
  · exact h

/-- A customer in `simLog` has no open connection, so no reply can wait. -/
theorem Ok.answered (h : t.Ok a) (r : LogReply) : (t.answered r).Ok a := by
  refine ⟨h.pcOk.answered r, ?_⟩
  obtain heq | ⟨msg, k, hpc, hin, -⟩ := t.answered_spec r
  · rw [heq]
    exact h.inbox
  · have hno := h.inbox_eq_none (by simp [connectedTo, hpc])
    rw [hin, hno]
    intro msg hmsg
    cases hmsg

theorem Ok.moved [DecidableEq ι] (h : t.Ok a) (hm : t.Moved a t') : t'.Ok a := by
  cases hm with
  | same => exact h
  | step hs => exact h.step hs
  | deliver x id addr inMsg => exact h.deliver x id addr inMsg
  | answered r => exact h.answered r

/-- The phases a customer's history can be in, whatever its program counter. -/
theorem Ok.phase (h : t.Ok a) : t.Fresh ∨ t.Shopping ∨ ∃ text, t.Reported a.itemID text := by
  have hpcOk := h.pcOk
  unfold PcOk at hpcOk
  split at hpcOk
  · exact .inl hpcOk
  · exact .inl hpcOk.2
  · exact .inr (.inl hpcOk.2)
  · exact .inr (.inl hpcOk.2)
  · exact .inr (.inr ⟨_, hpcOk.2.2⟩)
  · exact .inr (.inl hpcOk)
  · exact .inr (.inl hpcOk)
  · exact .inr (.inl hpcOk)
  · exact .inr (.inl hpcOk)
  · exact .inr (.inl hpcOk)
  · exact hpcOk

end CustTask

namespace JanPc

/-- A janitor reports errors and, at its end, `SIM_DONE`. -/
def Ok : JanPc ι → Prop
  | .logging msg .cleanup => msg.code = .simError
  | .logging msg .finished => msg.code = .simDone
  | _ => True

theorem Ok.step {own : ι → Bool} {act : JanAct ι} {pc pc' : JanPc ι} (h : pc.step own act = some pc') :
    pc'.Ok := by
  unfold JanPc.step at h
  split at h <;> cases h
  case h_6 => split <;> trivial
  all_goals trivial

theorem answered_ok (pc : JanPc ι) : pc.answered.Ok := by
  cases pc with
  | logging msg k => cases k <;> trivial
  | _ => trivial

end JanPc

/-! ## Every reachable state -/

namespace Cluster

variable [DecidableEq σ] [DecidableEq ι] [DecidableEq κ] {m : Sim σ ι κ} {s s' : Cluster σ ι κ}

theorem item_moved {l : Label σ ι κ} (h : step m s l = some s') (x : ι) :
    (s.item x).Moved (m.itemID x) (s'.item x) := by
  have hchange := item_change h x
  generalize s'.item x = t at hchange ⊢
  cases hchange with
  | same => exact .same
  | own _ ht => exact .step ht
  | request _ => exact .connect _
  | unhandled => exact .answered _
  | handled r _ => exact .answered r

theorem cust_moved {l : Label σ ι κ} (h : step m s l = some s') (c : κ) :
    (s.cust c).Moved (m.custArgs c) (s'.cust c) := by
  have hchange := cust_change h c
  generalize s'.cust c = t at hchange ⊢
  cases hchange with
  | same _ => exact .same
  | own _ ht => exact .step ht
  | reply _ _ => exact .deliver _ _ _ _
  | unhandled _ => exact .answered _
  | handled r _ => exact .answered r

theorem item_ok (h : Reachable m s) (x : ι) : (s.item x).Ok (m.itemID x) :=
  h.inv (I := fun s => (s.item x).Ok (m.itemID x)) ItemTask.initial_ok
    fun _ _ _ hok hs => hok.moved (item_moved hs x)

theorem cust_ok (h : Reachable m s) (c : κ) : (s.cust c).Ok (m.custArgs c) :=
  h.inv (I := fun s => (s.cust c).Ok (m.custArgs c)) CustTask.initial_ok
    fun _ _ _ hok hs => hok.moved (cust_moved hs c)

theorem answer_jan_ok (s : Cluster σ ι κ) (hok : ∀ t, ∀ pc ∈ s.jan t, pc.Ok) (w : Sender σ ι κ) (r : LogReply) :
    ∀ t, ∀ pc ∈ (s.answer w r).jan t, pc.Ok := by
  cases w with
  | janitor t j =>
      refine (forall_update_iff s.jan fun _ pcs => ∀ pc ∈ pcs, pc.Ok).mpr ⟨fun pc hpc => ?_, fun t _ => hok t⟩
      obtain ⟨i, hi, rfl⟩ := List.mem_iff_getElem.mp hpc
      rw [List.getElem_modify]
      split
      · exact JanPc.answered_ok _
      · exact hok t _ (List.getElem_mem _)
  | item | cust | kill => exact hok

theorem jan_ok (h : Reachable m s) : ∀ t, ∀ pc ∈ s.jan t, pc.Ok := by
  refine h.inv (I := fun s => ∀ t, ∀ pc ∈ s.jan t, pc.Ok) (fun _ _ h => nomatch h) ?_
  intro s l s' hok hs
  cases l with
  | item y act =>
      obtain ⟨_, -, rfl⟩ := step_item hs
      exact hok
  | cust d act =>
      obtain ⟨_, -, -, rfl⟩ := step_cust hs
      exact hok
  | janitor t j act =>
      obtain ⟨pc, pc', -, hpc', rfl⟩ := step_janitor hs
      refine (forall_update_iff s.jan fun _ pcs => ∀ pc ∈ pcs, pc.Ok).mpr ⟨fun q hq => ?_, fun t _ => hok t⟩
      rcases List.mem_or_eq_of_mem_set hq with hq | rfl
      · exact hok t q hq
      · exact JanPc.Ok.step hpc'
  | log w received =>
      obtain ⟨_, r, -, -, -, rfl⟩ := step_log hs
      exact answer_jan_ok (s.setLog _ _) hok w _
  | drop w =>
      obtain ⟨-, -, rfl⟩ := step_drop hs
      exact answer_jan_ok (s.setLog _ _) hok w _
  | fail w =>
      obtain ⟨-, rfl⟩ := step_fail hs
      exact answer_jan_ok s hok w _
  | switch t =>
      intro u q hq
      rcases step_switch_jan hs u with heq | ⟨-, -, heq⟩
      · exact hok u q (heq ▸ hq)
      · rcases List.mem_append.mp (heq ▸ hq) with hq | hq
        · exact hok u q hq
        · rw [List.mem_singleton.mp hq]
          trivial

/-! ## The transactions that are sent -/

theorem item_pc_of_pending {x : ι} {msg : TransMsg} (h : s.pending (.item x) = some msg) :
    ∃ k, (s.item x).pc = .logging msg k := by
  simp only [pending, ItemTask.pending] at h
  split at h
  · obtain rfl := Option.some.inj h
    exact ⟨_, ‹_›⟩
  · cases h

theorem cust_pc_of_pending {c : κ} {msg : TransMsg} (h : s.pending (.cust c) = some msg) :
    ∃ k, (s.cust c).pc = .logging msg k := by
  simp only [pending, CustTask.pending] at h
  split at h
  · obtain rfl := Option.some.inj h
    exact ⟨_, ‹_›⟩
  · cases h

/-- A janitor sends nothing that touches the books. -/
theorem janitor_pending_neutral (h : Reachable m s) {t : σ} {j : ℕ} {msg : TransMsg}
    (hp : s.pending (.janitor t j) = some msg) : msg.code = .simError ∨ msg.code = .simDone := by
  obtain ⟨pc, hpc, hmsg⟩ := Option.bind_eq_some_iff.mp hp
  have hok := jan_ok h t pc (List.mem_of_getElem? hpc)
  unfold JanPc.pending at hmsg
  split at hmsg
  · rename_i msg' k
    obtain rfl := Option.some.inj hmsg
    cases k
    · exact .inl hok
    · exact .inr hok
  · cases hmsg

/-- Only `killSim` sends `SIM_KILL`, and only a janitor sends `SIM_DONE`. -/
theorem sender_of_pending (h : Reachable m s) {w : Sender σ ι κ} {msg : TransMsg} (hp : s.pending w = some msg) :
    (msg.code = .simKill → ∃ t, w = .kill t) ∧ (msg.code = .simDone → ∃ t j, w = .janitor t j) := by
  cases w with
  | item x =>
      obtain ⟨k, hpc⟩ := item_pc_of_pending hp
      have hok := item_ok h x
      simp only [ItemTask.Ok, hpc] at hok
      cases k with
      | admitted => simp [hok.1]
      | fail => simp [hok.1]
      | retry => simp [hok.1]
      | sold =>
          obtain ⟨⟨buyer, rfl⟩, -⟩ := hok
          simp
  | cust c =>
      obtain ⟨k, hpc⟩ := cust_pc_of_pending hp
      have hok := (cust_ok h c).pcOk
      simp only [CustTask.PcOk, hpc] at hok
      cases k with
      | admitted => simp [hok.1]
      | fail => simp [hok.1]
      | retry => rcases hok.1 with hcode | hcode <;> simp [hcode]
      | left => simp [hok.2.1]
  | janitor t j =>
      refine ⟨?_, fun _ => ⟨t, j, rfl⟩⟩
      intro hcode
      rcases janitor_pending_neutral h hp with hc | hc <;> rw [hc] at hcode <;> cases hcode
  | kill t =>
      obtain rfl := Option.some.inj hp
      exact ⟨fun _ => ⟨t, rfl⟩, fun hcode => nomatch hcode⟩

/-- **No task sends a transaction on which `logTransaction` would be undefined.** -/
theorem logTransaction_defined (h : Reachable m s) {w : Sender σ ι κ} {msg : TransMsg}
    (hp : s.pending w = some msg) (pt : Bool) (st : Store) : ∃ r, logTransaction pt st msg = some r := by
  have hneutral (hn : msg.code.neutral = true) : ∃ r, logTransaction pt st msg = some r :=
    have ⟨r, hr, _⟩ := logTransaction_neutral pt st hn
    ⟨r, hr⟩
  cases w with
  | item x =>
      obtain ⟨k, hpc⟩ := item_pc_of_pending hp
      have hok := item_ok h x
      simp only [ItemTask.Ok, hpc] at hok
      cases k with
      | admitted =>
          obtain ⟨rfl, -⟩ := hok
          by_cases hopen : st.simState = .storeOpen
          · exact ⟨_, (logTransaction_itemIn_open pt _ hopen).choose_spec⟩
          · exact ⟨_, logTransaction_itemIn_shut pt hopen _⟩
      | fail => exact hneutral (by simp [hok.1, Code.neutral])
      | retry => exact hneutral (by simp [hok.1, Code.neutral])
      | sold =>
          obtain ⟨⟨buyer, rfl⟩, -⟩ := hok
          by_cases hclosed : st.simState = .storeClosed
          · exact ⟨_, logTransaction_itemOut_closed pt hclosed _⟩
          · exact ⟨_, (logTransaction_itemOut_selling pt _ hclosed buyer).choose_spec⟩
  | cust c =>
      obtain ⟨k, hpc⟩ := cust_pc_of_pending hp
      have hok := (cust_ok h c).pcOk
      simp only [CustTask.PcOk, hpc] at hok
      cases k with
      | admitted =>
          obtain ⟨rfl, -⟩ := hok
          by_cases hopen : st.simState = .storeOpen
          · exact ⟨_, (logTransaction_custIn_open pt _ hopen _).choose_spec⟩
          · exact ⟨_, logTransaction_custIn_shut pt hopen _⟩
      | fail => exact hneutral (by simp [hok.1, Code.neutral])
      | retry => exact hneutral (by rcases hok.1 with hcode | hcode <;> simp [hcode, Code.neutral])
      | left =>
          obtain ⟨code, text⟩ := msg
          obtain ⟨-, rfl, -, -, numRetries, last, rfl, hlast⟩ := hok
          rcases hlast with ⟨-, hno⟩ | ⟨x, -, hmark⟩
          · exact ⟨_, (logTransaction_custOut_exit pt st _ _ numRetries hno).choose_spec⟩
          · exact ⟨_, (logTransaction_custOut_sale pt st _ _ numRetries hmark).choose_spec⟩
  | janitor t j =>
      exact hneutral (by rcases janitor_pending_neutral h hp with hcode | hcode <;> simp [hcode, Code.neutral])
  | kill t =>
      obtain rfl := Option.some.inj hp
      exact hneutral rfl

end Cluster

/-! ## Replies come from their item -/

/-- What customer `t` holds or has read came on a connection on which a reply was sent. -/
structure CustLinked (sent : ι → ℤ → Prop) (t : CustTask ι) : Prop where
  inbox : ∀ msg, t.inbox = some msg → ∃ x, t.connectedTo = some x ∧ sent x t.transactionID
  reads : ∀ x ∈ t.reads, ∃ id, sent x id

namespace CustLinked

variable {sent sent' : ι → ℤ → Prop} {a : CustArgs} {t t' : CustTask ι}

theorem mono (h : CustLinked sent t) (hsent : ∀ x id, sent x id → sent' x id) : CustLinked sent' t where
  inbox msg hi :=
    have ⟨x, hx, hs⟩ := h.inbox msg hi
    ⟨x, hx, hsent _ _ hs⟩
  reads x hx :=
    have ⟨id, hs⟩ := h.reads x hx
    ⟨id, hsent _ _ hs⟩

/-- A customer's own move: only a read takes a reply out of the inbox, and only `select` keeps one there. -/
theorem step (h : CustLinked sent t) (hok : t.Ok a) {act : CustAct ι} (hs : t.step a act = some t') :
    CustLinked sent t' := by
  have hin := hok.inbox_eq_none
  have hsame {x : ι} (hpc : t.pc = .selecting x ∨ t.pc = .reading x) (msg : Text) (hi : t.inbox = some msg) :
      sent x t.transactionID := by
    obtain ⟨y, hy, hsent⟩ := h.inbox msg hi
    obtain rfl : x = y := by rcases hpc with hpc | hpc <;> simpa [CustTask.connectedTo, hpc] using hy
    exact hsent
  cases CustTask.step_branch hs with
  | @ready x hpc => exact ⟨fun msg hi => ⟨x, rfl, hsame (.inl hpc) msg hi⟩, h.reads⟩
  | noReply hpc hno => exact ⟨by simp [hno], h.reads⟩
  | @reads x msg hpc hi =>
      refine ⟨by simp [CustTask.report], ?_⟩
      intro z hz
      rcases List.mem_cons.mp hz with rfl | hz
      · exact ⟨_, hsame (.inr hpc) msg hi⟩
      · exact h.reads z hz
  | requests | rejected => exact ⟨by simp, h.reads⟩
  | withdrawn => exact h
  -- elsewhere no reply is waiting
  | arrives hpc | subscribes hpc | notSubscribed f hpc | noEvent hpc | sees x hpc | noSocket hpc | notSent hpc =>
      exact ⟨by simp [hin (by simp [CustTask.connectedTo, hpc])], h.reads⟩
  | timesOut hpc => exact ⟨by simp [CustTask.report, hin (by simp [CustTask.connectedTo, hpc])], h.reads⟩

theorem answered (h : CustLinked sent t) (hok : t.Ok a) (r : LogReply) : CustLinked sent (t.answered r) := by
  obtain heq | ⟨msg, k, hpc, hinbox, hreads, -, -⟩ := t.answered_spec r
  · exact heq.symm ▸ h
  · have hno : t.inbox = none := hok.inbox_eq_none (by simp [CustTask.connectedTo, hpc])
    exact ⟨by simp [hinbox, hno], hreads ▸ h.reads⟩

theorem deliver [DecidableEq ι] (h : CustLinked sent t) {x : ι} {id : ℤ} (hx : sent x id) (msg : Text) :
    CustLinked sent (t.deliver x id msg) := by
  unfold CustTask.deliver
  split
  · rename_i hc
    obtain ⟨hto, rfl⟩ := hc
    exact ⟨fun _ _ => ⟨x, hto, hx⟩, h.reads⟩
  · exact h

end CustLinked

namespace Cluster

variable [DecidableEq σ] [DecidableEq ι] [DecidableEq κ] {m : Sim σ ι κ} {s s' : Cluster σ ι κ}

/-- Item `x` has sent its reply on request number `id` of customer `c`. -/
def SentTo (s : Cluster σ ι κ) (c : κ) (x : ι) (id : ℤ) : Prop := Peer.cust c id ∈ (s.item x).soldTo

theorem SentTo.step {l : Label σ ι κ} (h : step m s l = some s') {x : ι} {c : κ} {id : ℤ}
    (hx : s.SentTo c x id) : s'.SentTo c x id :=
  (item_moved h x).soldTo_mono hx

/-- An item that replies successfully has sold itself to the sender of the request. -/
theorem sentTo_of_send {x : ι} {c : κ} {id : ℤ} {msg : Text} (hpc : (s.item x).pc = .replying ⟨.cust c id, msg⟩)
    (h : step m s (.item x (.send true)) = some s') : s'.SentTo c x id := by
  obtain ⟨t, ht, rfl⟩ := step_item h
  simp only [ItemTask.step, hpc, Option.some.injEq] at ht
  subst ht
  simp [SentTo]

/-- **What a customer holds or has read came from an item that has sold itself to that customer.** -/
theorem linked (h : Reachable m s) (c : κ) : CustLinked (s.SentTo c) (s.cust c) := by
  refine h.inv_of (J := Reachable m) (I := fun s => CustLinked (s.SentTo c) (s.cust c)) (fun _ h => h)
    ⟨fun _ h => (nomatch h), fun _ h => (nomatch h)⟩ ?_
  intro s l s' hr hl hs
  have hok := cust_ok hr c
  have hl' : CustLinked (s'.SentTo c) (s.cust c) := hl.mono fun x id hx => hx.step hs
  have hchange := cust_change hs c
  generalize s'.cust c = t at hchange ⊢
  cases hchange with
  | same _ => exact hl'
  | own _ ht => exact hl'.step hok ht
  | reply heq hpc =>
      subst heq
      exact hl'.deliver (sentTo_of_send hpc hs) _
  | unhandled _ => exact hl'.answered hok _
  | handled r _ => exact hl'.answered hok r

end Cluster

end Inventory
end Tipcutils
