import Tipcutils.Inventory.Tasks
import Tipcutils.Lib.Lts

/-!
# `Inventory.Cluster` — a cluster of stores, one logging task each

The tasks of `Inventory.Tasks` over any families of stores `σ`, items `ι` and customers `κ`: an index is one call
of `simItem` or `simCust`, so a task that repeats is a sequence of indices. A store has its logging task and the
janitors that this has spawned; `killSim` may be called at any time on any store.

A label says who moves and how the environment answers. Between `logTransaction` (`log`, `drop`) and the
`switch` that follows it (`switch`) other tasks may move, so the state that `logTransaction` leaves is visible.
Names, connection requests and replies go through TIPC: a customer or a janitor learns of an item only after
the item has bound its name, requests queue up in order at a listening socket, and a reply reaches its customer while
the customer still has that connection open. What a move can do to one item or one customer is said once
(**`item_change`**, **`cust_change`**).
-/

set_option linter.unusedSectionVars false

namespace Tipcutils
namespace Inventory

open Function

/-! ## The fixed data of a simulation -/

/-- Which tasks there are, where they run and with what arguments (after the random choices). -/
structure Sim (σ ι κ : Type) where
  node : σ → UInt32
  printTrans : σ → Bool
  itemHome : ι → σ
  itemNo : ι → ItemIx
  custHome : κ → σ
  custNo : κ → ItemIx
  waitTime : κ → ℤ
  taskID : κ → ℤ

namespace Sim

variable {σ ι κ : Type} (m : Sim σ ι κ)

def itemID (x : ι) : ℤ := itemIDOf (m.itemNo x)

def custArgs (c : κ) : CustArgs := ⟨itemIDOf (m.custNo c), m.waitTime c, m.taskID c, m.node (m.custHome c)⟩

end Sim

/-! ## States -/

/-- Where `simLogTask` is: waiting in `select`, at the `switch` after `logTransaction`, or gone. -/
inductive LogPc where
  | select
  | switch
  | exited
deriving DecidableEq

/-- The logging task of one store. -/
structure LogTask where
  store : Store
  pc : LogPc

def LogTask.initial : LogTask := ⟨.initial, .select⟩

/-- The tasks of all stores. -/
structure Cluster (σ ι κ : Type) where
  log : σ → LogTask
  item : ι → ItemTask σ κ
  cust : κ → CustTask ι
  jan : σ → List (JanPc ι)

/-- Who calls `simLog`. -/
inductive Sender (σ ι κ : Type) where
  | item (x : ι)
  | cust (c : κ)
  | janitor (s : σ) (j : ℕ)
  | kill (s : σ)
deriving DecidableEq

/-- One move. -/
inductive Label (σ ι κ : Type) where
  | item (x : ι) (act : ItemAct)
  | cust (c : κ) (act : CustAct ι)
  | janitor (s : σ) (j : ℕ) (act : JanAct ι)
  /-- `logTransaction` handles the transaction of `w`, and the acknowledgement is received or not -/
  | log (w : Sender σ ι κ) (received : Bool)
  /-- `accept` or `recv` fails in `logTransaction` -/
  | drop (w : Sender σ ι κ)
  /-- a socket call of `simLog` fails -/
  | fail (w : Sender σ ι κ)
  /-- the `switch` of `simLogTask` -/
  | switch (s : σ)

/-- The store whose logging task `w` reports to: the one on its own node. -/
def Sim.home {σ ι κ : Type} (m : Sim σ ι κ) : Sender σ ι κ → σ
  | .item x => m.itemHome x
  | .cust c => m.custHome c
  | .janitor s _ => s
  | .kill s => s

/-! ## Steps -/

namespace Cluster

variable {σ ι κ : Type}

/-- Before any task starts. -/
def initial : Cluster σ ι κ where
  log := fun _ => .initial
  item := fun _ => .initial
  cust := fun _ => .initial
  jan := fun _ => []

variable [DecidableEq σ] [DecidableEq ι] [DecidableEq κ]

/-- The transaction that `w` has sent to its logging task. -/
def pending (s : Cluster σ ι κ) : Sender σ ι κ → Option TransMsg
  | .item x => (s.item x).pending
  | .cust c => (s.cust c).pending
  | .janitor t j => (s.jan t)[j]?.bind JanPc.pending
  | .kill _ => some ⟨.simKill, []⟩

/-- `simLog` returns to `w`. -/
def answer (s : Cluster σ ι κ) (w : Sender σ ι κ) (r : LogReply) : Cluster σ ι κ :=
  match w with
  | .item x => { s with item := update s.item x ((s.item x).answered r) }
  | .cust c => { s with cust := update s.cust c ((s.cust c).answered r) }
  | .janitor t j => { s with jan := update s.jan t ((s.jan t).modify j JanPc.answered) }
  | .kill _ => s

/-- What TIPC lets customer `c` observe: a published name is one that an item with its number has bound. -/
def custSees (m : Sim σ ι κ) (s : Cluster σ ι κ) (c : κ) : CustAct ι → Bool
  | .event (.published x) => (s.item x).published && decide (m.itemNo x = m.custNo c)
  | _ => true

/-- What TIPC lets a janitor observe; it subscribes to all item numbers. -/
def janSees (s : Cluster σ ι κ) : JanAct ι → Bool
  | .event (.published x) => (s.item x).published
  | _ => true

/-- The items after customer `c` makes the move `act`: a purchase request reaches its item. -/
def requested (m : Sim σ ι κ) (s : Cluster σ ι κ) (c : κ) (act : CustAct ι) : ι → ItemTask σ κ :=
  match act, (s.cust c).pc with
  | .request none, .requesting x =>
    let id := (s.cust c).transactionID + 1
    update s.item x ((s.item x).connect
      ⟨.cust c id, requestText (m.custArgs c).node (s.cust c).customerID id⟩)
  | _, _ => s.item

/-- The items after a janitor at `pc` makes the move `act`: a faked request is the empty text. -/
def faked (s : Cluster σ ι κ) (t : σ) (j : ℕ) (pc : JanPc ι) (act : JanAct ι) : ι → ItemTask σ κ :=
  match act, pc with
  | .send true, .sending x => update s.item x ((s.item x).connect ⟨.janitor t j, []⟩)
  | _, _ => s.item

/-- The customers after item `x` makes the move `act`: a reply reaches its customer. -/
def replied (m : Sim σ ι κ) (s : Cluster σ ι κ) (x : ι) (act : ItemAct) : κ → CustTask ι :=
  match act, (s.item x).pc with
  | .send true, .replying ⟨.cust c id, msg⟩ =>
    update s.cust c ((s.cust c).deliver x id (replyText (m.node (m.itemHome x)) msg))
  | _, _ => s.cust

/-- The logging task of `t` becomes `l`. -/
def setLog (s : Cluster σ ι κ) (t : σ) (l : LogTask) : Cluster σ ι κ := { s with log := update s.log t l }

/-- One move of the cluster. -/
def step (m : Sim σ ι κ) (s : Cluster σ ι κ) : Label σ ι κ → Option (Cluster σ ι κ)
  | .item x act =>
    ((s.item x).step (m.itemID x) act).map fun t =>
      { s with item := update s.item x t, cust := s.replied m x act }
  | .cust c act =>
    if s.custSees m c act then
      ((s.cust c).step (m.custArgs c) act).map fun t =>
        { s with cust := update s.cust c t, item := s.requested m c act }
    else none
  | .janitor t j act =>
    if s.janSees act then
      (s.jan t)[j]?.bind fun pc =>
        (pc.step (fun x => decide (m.node (m.itemHome x) = m.node t)) act).map fun pc' =>
          { s with jan := update s.jan t ((s.jan t).set j pc'), item := s.faked t j pc act }
    else none
  | .log w received =>
    let t := m.home w
    match (s.log t).pc, s.pending w with
    | .select, some msg =>
      (logTransaction (m.printTrans t) (s.log t).store msg).map fun r =>
        (s.setLog t ⟨r.store, .switch⟩).answer w (.handled (s.log t).store.simState r.ackCode received)
    | _, _ => none
  | .drop w =>
    let t := m.home w
    match (s.log t).pc, s.pending w with
    | .select, some _ => some ((s.setLog t ⟨(s.log t).store, .switch⟩).answer w .unhandled)
    | _, _ => none
  | .fail w =>
    match s.pending w with
    | some _ => some (s.answer w .unhandled)
    | none => none
  | .switch t =>
    match (s.log t).pc with
    | .switch =>
      let r := afterTransaction (s.log t).store
      some { s.setLog t ⟨r.store, if r.exit then .exited else .select⟩ with
        jan := if r.spawnJanitor then update s.jan t (s.jan t ++ [.enter]) else s.jan }
    | _ => none

/-- A request has the text that its sender formats. -/
def Formatted (m : Sim σ ι κ) (r : Request σ κ) : Prop :=
  match r.peer with
  | .cust c transactionID => ∃ customerID, r.msg = requestText (m.node (m.custHome c)) customerID transactionID
  | .janitor _ _ => r.msg = []

/-- What a move may do to item `x`. -/
inductive ItemChange (m : Sim σ ι κ) (s : Cluster σ ι κ) (l : Label σ ι κ) (x : ι) : ItemTask σ κ → Prop where
  | same : ItemChange m s l x (s.item x)
  | own {act : ItemAct} {t : ItemTask σ κ} :
      l = .item x act → (s.item x).step (m.itemID x) act = some t → ItemChange m s l x t
  | request {r : Request σ κ} : Formatted m r → ItemChange m s l x ((s.item x).connect r)
  | unhandled : ItemChange m s l x ((s.item x).answered .unhandled)
  | handled {received : Bool} (r : LogReply) :
      l = .log (.item x) received → ItemChange m s l x ((s.item x).answered r)

/-- What a move may do to customer `c`. -/
inductive CustChange (m : Sim σ ι κ) (s : Cluster σ ι κ) (l : Label σ ι κ) (c : κ) : CustTask ι → Prop where
  | same : (∀ act, l ≠ .cust c act) → CustChange m s l c (s.cust c)
  | own {act : CustAct ι} {t : CustTask ι} :
      l = .cust c act → (s.cust c).step (m.custArgs c) act = some t → CustChange m s l c t
  | reply {x : ι} {transactionID : ℤ} {inMsg : Text} :
      l = .item x (.send true) → (s.item x).pc = .replying ⟨.cust c transactionID, inMsg⟩ →
        CustChange m s l c ((s.cust c).deliver x transactionID (replyText (m.node (m.itemHome x)) inMsg))
  | unhandled : (∀ act, l ≠ .cust c act) → CustChange m s l c ((s.cust c).answered .unhandled)
  | handled {received : Bool} (r : LogReply) :
      l = .log (.cust c) received → CustChange m s l c ((s.cust c).answered r)

/-- The states of the cluster that can arise. -/
abbrev Reachable (m : Sim σ ι κ) : Cluster σ ι κ → Prop := Lts.Reach (step m) initial

/-! ## What each move does -/

section Inversion

variable {m : Sim σ ι κ} {s s' : Cluster σ ι κ} {x : ι} {c : κ} {t : σ} {j : ℕ} {w : Sender σ ι κ}

theorem step_item {act : ItemAct} (h : step m s (.item x act) = some s') :
    ∃ t, (s.item x).step (m.itemID x) act = some t ∧
      s' = { s with item := update s.item x t, cust := s.replied m x act } := by
  obtain ⟨t, ht, rfl⟩ := Option.map_eq_some_iff.mp h
  exact ⟨t, ht, rfl⟩

theorem step_cust {act : CustAct ι} (h : step m s (.cust c act) = some s') :
    ∃ t, s.custSees m c act = true ∧ (s.cust c).step (m.custArgs c) act = some t ∧
      s' = { s with cust := update s.cust c t, item := s.requested m c act } := by
  simp only [step] at h
  split at h
  · obtain ⟨t, ht, rfl⟩ := Option.map_eq_some_iff.mp h
    exact ⟨t, ‹_›, ht, rfl⟩
  · cases h

theorem step_janitor {act : JanAct ι} (h : step m s (.janitor t j act) = some s') :
    ∃ pc pc', (s.jan t)[j]? = some pc ∧
      pc.step (fun x => decide (m.node (m.itemHome x) = m.node t)) act = some pc' ∧
      s' = { s with jan := update s.jan t ((s.jan t).set j pc'), item := s.faked t j pc act } := by
  simp only [step] at h
  split at h
  · obtain ⟨pc, hpc, hrest⟩ := Option.bind_eq_some_iff.mp h
    obtain ⟨pc', hpc', rfl⟩ := Option.map_eq_some_iff.mp hrest
    exact ⟨pc, pc', hpc, hpc', rfl⟩
  · cases h

theorem step_log {received : Bool} (h : step m s (.log w received) = some s') :
    ∃ msg r, (s.log (m.home w)).pc = .select ∧ s.pending w = some msg ∧
      logTransaction (m.printTrans (m.home w)) (s.log (m.home w)).store msg = some r ∧
      s' = (s.setLog (m.home w) ⟨r.store, .switch⟩).answer w
        (.handled (s.log (m.home w)).store.simState r.ackCode received) := by
  simp only [step] at h
  split at h
  · rename_i msg hpc hmsg
    obtain ⟨r, hr, rfl⟩ := Option.map_eq_some_iff.mp h
    exact ⟨msg, r, hpc, hmsg, hr, rfl⟩
  · cases h

theorem step_drop (h : step m s (.drop w) = some s') :
    (s.log (m.home w)).pc = .select ∧ s.pending w ≠ none ∧
      s' = (s.setLog (m.home w) ⟨(s.log (m.home w)).store, .switch⟩).answer w .unhandled := by
  simp only [step] at h
  split at h
  · rename_i hpc hmsg
    cases h
    exact ⟨hpc, by simp [hmsg], rfl⟩
  · cases h

theorem step_fail (h : step m s (.fail w) = some s') :
    s.pending w ≠ none ∧ s' = s.answer w .unhandled := by
  simp only [step] at h
  split at h
  · rename_i hmsg
    cases h
    exact ⟨by simp [hmsg], rfl⟩
  · cases h

theorem step_switch (h : step m s (.switch t) = some s') :
    (s.log t).pc = .switch ∧
      s' = { s.setLog t ⟨(afterTransaction (s.log t).store).store,
              if (afterTransaction (s.log t).store).exit then .exited else .select⟩ with
        jan := if (afterTransaction (s.log t).store).spawnJanitor
          then update s.jan t (s.jan t ++ [.enter]) else s.jan } := by
  simp only [step] at h
  split at h
  · rename_i hpc
    cases h
    exact ⟨hpc, rfl⟩
  · cases h

/-- The `switch` spawns at most one janitor, for its own store. -/
theorem step_switch_jan (h : step m s (.switch t) = some s') (u : σ) :
    s'.jan u = s.jan u ∨
      u = t ∧ (afterTransaction (s.log t).store).spawnJanitor = true ∧ s'.jan u = s.jan u ++ [.enter] := by
  obtain ⟨-, rfl⟩ := step_switch h
  cases hspawn : (afterTransaction (s.log t).store).spawnJanitor with
  | false => exact .inl (by simp)
  | true =>
      by_cases hu : u = t
      · subst hu
        exact .inr ⟨rfl, rfl, by simp⟩
      · exact .inl (by simp [hu])

/-- A customer's move leaves the items alone but for a request that reaches one of them. -/
theorem requested_cases (m : Sim σ ι κ) (s : Cluster σ ι κ) (c : κ) (act : CustAct ι) :
    s.requested m c act = s.item ∨
      ∃ x r, Formatted m r ∧ s.requested m c act = update s.item x ((s.item x).connect r) := by
  unfold requested
  split
  · refine .inr ⟨_, _, ?_, rfl⟩
    exact ⟨_, rfl⟩
  · exact .inl rfl

/-- A janitor's move leaves the items alone but for a request that reaches one of them. -/
theorem faked_cases (m : Sim σ ι κ) (s : Cluster σ ι κ) (t : σ) (j : ℕ) (pc : JanPc ι) (act : JanAct ι) :
    s.faked t j pc act = s.item ∨
      ∃ x r, Formatted m r ∧ s.faked t j pc act = update s.item x ((s.item x).connect r) := by
  unfold faked
  split
  · refine .inr ⟨_, _, ?_, rfl⟩
    rfl
  · exact .inl rfl

/-- An item's move leaves the customers alone but for a reply that is sent successfully to one of them. -/
theorem replied_cases (m : Sim σ ι κ) (s : Cluster σ ι κ) (x : ι) (act : ItemAct) :
    s.replied m x act = s.cust ∨
      ∃ c id msg, act = .send true ∧ (s.item x).pc = .replying ⟨.cust c id, msg⟩ ∧
        s.replied m x act =
          update s.cust c ((s.cust c).deliver x id (replyText (m.node (m.itemHome x)) msg)) := by
  unfold replied
  split
  · rename_i c id msg hpc
    exact .inr ⟨c, id, msg, rfl, hpc, rfl⟩
  · exact .inl rfl

/-- `simLog`'s return touches no logging task. -/
@[simp] theorem answer_log (r : LogReply) : (s.answer w r).log = s.log := by
  cases w <;> rfl

/-! ### What it does to one task -/

theorem connected_change {l : Label σ ι κ} {items : ι → ItemTask σ κ}
    (h : items = s.item ∨ ∃ y r, Formatted m r ∧ items = update s.item y ((s.item y).connect r)) (x : ι) :
    ItemChange m s l x (items x) := by
  rcases h with rfl | ⟨y, r, hr, rfl⟩
  · exact .same
  · exact (forall_update_iff s.item fun x t => ItemChange m s l x t).mpr ⟨.request hr, fun _ _ => .same⟩ x

/-- `simLog`'s return reaches the task that has called it. -/
theorem answer_item_cases (s : Cluster σ ι κ) (w : Sender σ ι κ) (r : LogReply) (x : ι) :
    (s.answer w r).item x = s.item x ∨ w = .item x ∧ (s.answer w r).item x = (s.item x).answered r := by
  cases w with
  | item y =>
      by_cases hxy : x = y
      · subst hxy
        exact .inr ⟨rfl, update_self _ _ _⟩
      · exact .inl (update_of_ne hxy _ _)
  | cust | janitor | kill => exact .inl rfl

theorem answer_cust_cases (s : Cluster σ ι κ) (w : Sender σ ι κ) (r : LogReply) (c : κ) :
    (s.answer w r).cust c = s.cust c ∨ w = .cust c ∧ (s.answer w r).cust c = (s.cust c).answered r := by
  cases w with
  | cust d =>
      by_cases hcd : c = d
      · subst hcd
        exact .inr ⟨rfl, update_self _ _ _⟩
      · exact .inl (update_of_ne hcd _ _)
  | item | janitor | kill => exact .inl rfl

/-- **What a step does to an item.** -/
theorem item_change {l : Label σ ι κ} (h : step m s l = some s') (x : ι) : ItemChange m s l x (s'.item x) := by
  cases l with
  | item y act =>
      obtain ⟨t, ht, rfl⟩ := step_item h
      show ItemChange m s (.item y act) x (update s.item y t x)
      by_cases hxy : x = y
      · subst hxy
        rw [update_self]
        exact .own rfl ht
      · rw [update_of_ne hxy]
        exact .same
  | cust c act =>
      obtain ⟨t, -, -, rfl⟩ := step_cust h
      exact connected_change (requested_cases m s c act) x
  | janitor t j act =>
      obtain ⟨pc, pc', -, -, rfl⟩ := step_janitor h
      exact connected_change (faked_cases m s t j pc act) x
  | log w received =>
      obtain ⟨msg, r, -, -, -, rfl⟩ := step_log h
      obtain heq | ⟨rfl, heq⟩ := answer_item_cases (s.setLog (m.home w) ⟨r.store, .switch⟩) w
        (.handled (s.log (m.home w)).store.simState r.ackCode received) x
      · rw [heq]
        exact .same
      · rw [heq]
        exact .handled _ rfl
  | drop w =>
      obtain ⟨-, -, rfl⟩ := step_drop h
      obtain heq | ⟨rfl, heq⟩ := answer_item_cases (s.setLog (m.home w) ⟨(s.log (m.home w)).store, .switch⟩) w .unhandled x
      · rw [heq]
        exact .same
      · rw [heq]
        exact .unhandled
  | fail w =>
      obtain ⟨-, rfl⟩ := step_fail h
      obtain heq | ⟨-, heq⟩ := answer_item_cases s w .unhandled x
      · rw [heq]
        exact .same
      · rw [heq]
        exact .unhandled
  | switch t =>
      obtain ⟨-, rfl⟩ := step_switch h
      exact .same

/-- **What a step does to a customer.** -/
theorem cust_change {l : Label σ ι κ} (h : step m s l = some s') (c : κ) : CustChange m s l c (s'.cust c) := by
  cases l with
  | item y act =>
      obtain ⟨t, -, rfl⟩ := step_item h
      show CustChange m s (.item y act) c (s.replied m y act c)
      obtain heq | ⟨d, id, msg, rfl, hpc, heq⟩ := replied_cases m s y act
      · rw [heq]
        exact .same nofun
      · rw [heq]
        by_cases hcd : c = d
        · subst hcd
          rw [update_self]
          exact .reply rfl hpc
        · rw [update_of_ne hcd]
          exact .same nofun
  | cust d act =>
      obtain ⟨t, -, ht, rfl⟩ := step_cust h
      show CustChange m s (.cust d act) c (update s.cust d t c)
      by_cases hcd : c = d
      · subst hcd
        rw [update_self]
        exact .own rfl ht
      · rw [update_of_ne hcd]
        exact .same fun _ heq => hcd (Label.cust.inj heq).1.symm
  | janitor t j act =>
      obtain ⟨pc, pc', -, -, rfl⟩ := step_janitor h
      exact .same nofun
  | log w received =>
      obtain ⟨msg, r, -, -, -, rfl⟩ := step_log h
      obtain heq | ⟨rfl, heq⟩ := answer_cust_cases (s.setLog (m.home w) ⟨r.store, .switch⟩) w
        (.handled (s.log (m.home w)).store.simState r.ackCode received) c
      · rw [heq]
        exact .same nofun
      · rw [heq]
        exact .handled _ rfl
  | drop w =>
      obtain ⟨-, -, rfl⟩ := step_drop h
      obtain heq | ⟨rfl, heq⟩ := answer_cust_cases (s.setLog (m.home w) ⟨(s.log (m.home w)).store, .switch⟩) w .unhandled c
      · rw [heq]
        exact .same nofun
      · rw [heq]
        exact .unhandled nofun
  | fail w =>
      obtain ⟨-, rfl⟩ := step_fail h
      obtain heq | ⟨-, heq⟩ := answer_cust_cases s w .unhandled c
      · rw [heq]
        exact .same nofun
      · rw [heq]
        exact .unhandled nofun
  | switch t =>
      obtain ⟨-, rfl⟩ := step_switch h
      exact .same nofun

end Inversion

end Cluster
end Inventory
end Tipcutils
