import Tipcutils.Inventory.LogTask

/-!
# `Inventory.Tasks` — the item, customer and janitor tasks

Each task is the control flow of its C function cut at the socket calls: a program counter, the variables that
live across calls, and a `step` that takes the outcome of the next call (every call may fail). A call of `simLog`
is the program counter `logging msg k`: the transaction is sent and `k` says what the function does with the
acknowledgement; `resume` is its return. `Branch` lists what a step can do, under names, and the
invariants of the tasks go by its cases (**`step_branch`**); `answered_spec` says what a call of `simLog` leaves.

A task record also carries history variables, which no step reads: what the logging task has recorded
about the task (`admitted`, `reported`, `left`), which replies a customer has read, which reports it has made,
and to whom an item has sold itself.
-/

namespace Tipcutils
namespace Inventory

open Decimal

/-! ## `simLog` -/

/-- The value `simLog` returns when its own socket calls fail. -/
def simLogError : ℤ := Code.simError.val

/-- How a call of `simLog` ends: its transaction never reaches `logTransaction`, or it is handled in state
    `st` with acknowledgement `ack`, which is then received or not. -/
inductive LogReply where
  | unhandled
  | handled (st : StoreState) (ack : ℤ) (received : Bool)

/-- The value `simLog` returns. -/
def LogReply.result : LogReply → ℤ
  | .unhandled => simLogError
  | .handled _ ack received => if received then ack else simLogError

theorem LogReply.exists_handled_of_result {r : LogReply} (h : 0 ≤ r.result) :
    ∃ st ack received, r = .handled st ack received ∧ r.result = ack := by
  have herr : ¬ 0 ≤ simLogError := by decide
  cases r with
  | unhandled => exact absurd h herr
  | handled st ack received =>
      cases received with
      | false => exact absurd h herr
      | true => exact ⟨st, ack, true, rfl, rfl⟩

/-! ## `simItem` -/

/-- The calls of `simItem` before it reports its arrival. -/
inductive ItemFault where
  | socket
  | getsockname
  | bind
  | listen

/-- `sprintf(itemName, "Item %d", itemID)`. -/
def itemName (itemID : ℤ) : Text := "Item ".toList ++ fmtD itemID

/-- The error report for a call that fails before the item's arrival. -/
def ItemFault.text (itemID : ℤ) : ItemFault → Text
  | .socket => itemName itemID ++ " can't create socket\n".toList
  | .getsockname => itemName itemID ++ " can't determine own address\n".toList
  | .bind => itemName itemID ++ " can't publish its name\n".toList
  | .listen => itemName itemID ++ " can't listen for customers\n".toList

/-- What `simItem` does with an acknowledgement. -/
inductive ItemCont where
  | admitted
  | fail
  | retry
  | sold
deriving DecidableEq

/-- The other end of a connection to an item: request number `transactionID` of a customer, or a janitor. -/
inductive Peer (σ κ : Type) where
  | cust (c : κ) (transactionID : ℤ)
  | janitor (s : σ) (j : ℕ)
deriving DecidableEq

/-- A connection request with the message that came with it (an implicit connect carries its data). -/
structure Request (σ κ : Type) where
  peer : Peer σ κ
  msg : Text

/-- Where `simItem` is. -/
inductive ItemPc (σ κ : Type) where
  | enter
  | logging (msg : TransMsg) (k : ItemCont)
  | accepting
  | receiving (r : Request σ κ)
  | replying (r : Request σ κ)
  | done (simRes : ℤ)

/-- One call of `simItem`. -/
structure ItemTask (σ κ : Type) where
  pc : ItemPc σ κ
  /-- the name has been bound (it may meanwhile be withdrawn) -/
  published : Bool
  /-- connection requests reach the queue of `sockfd_l` -/
  listening : Bool
  queue : List (Request σ κ)
  /-- history: the logging task has admitted the item -/
  admitted : Bool
  /-- history: the state in which the logging task handled the item's `SIM_ITEM_OUT` -/
  reported : Option StoreState
  /-- history: the connections on which the reply has been sent -/
  soldTo : List (Peer σ κ)

/-- The outcome of the next socket call of `simItem`. -/
inductive ItemAct where
  | publish (fault : Option ItemFault)
  | accept (ok : Bool)
  | recv (ok : Bool)
  | send (ok : Bool)

namespace ItemTask

variable {σ κ : Type}

/-- Before the call. -/
def initial : ItemTask σ κ := ⟨.enter, false, false, [], false, none, []⟩

/-- The next socket call of `simItem` and what follows it, up to the next call. -/
def step (itemID : ℤ) (t : ItemTask σ κ) : ItemAct → Option (ItemTask σ κ)
  | .publish fault =>
    match t.pc, fault with
    | .enter, none =>
      some { t with
        pc := .logging ⟨.simItemIn, itemInText itemID⟩ .admitted, published := true, listening := true }
    | .enter, some .listen =>
      some { t with pc := .logging ⟨.simError, ItemFault.listen.text itemID⟩ .fail, published := true }
    | .enter, some f => some { t with pc := .logging ⟨.simError, f.text itemID⟩ .fail }
    | _, _ => none
  | .accept ok =>
    match t.pc, ok, t.queue with
    | .accepting, true, r :: rest => some { t with pc := .receiving r, queue := rest }
    | .accepting, false, _ =>
      some { t with pc := .logging ⟨.simError, itemName itemID ++ " connection failure\n".toList⟩ .fail }
    | _, _, _ => none
  | .recv ok =>
    match t.pc, ok with
    | .receiving r, true => some { t with pc := .replying r }
    | .receiving _, false =>
      some { t with
        pc := .logging ⟨.simWarn, itemName itemID ++ " didn't get customer request\n".toList⟩ .retry }
    | _, _ => none
  | .send ok =>
    match t.pc, ok with
    | .replying r, true =>
      some { t with
        pc := .logging ⟨.simItemOut, itemOutText itemID (cutAfter '>' r.msg)⟩ .sold
        soldTo := r.peer :: t.soldTo }
    | .replying _, false =>
      some { t with
        pc := .logging ⟨.simWarn, itemName itemID ++ " couldn't reply to customer\n".toList⟩ .retry }
    | _, _ => none

/-- The branches of `step`. -/
inductive Branch (itemID : ℤ) (t : ItemTask σ κ) : ItemAct → ItemTask σ κ → Prop where
  | arrives : t.pc = .enter → Branch itemID t (.publish none)
      { t with pc := .logging ⟨.simItemIn, itemInText itemID⟩ .admitted, published := true, listening := true }
  | notListening : t.pc = .enter → Branch itemID t (.publish (some .listen))
      { t with pc := .logging ⟨.simError, ItemFault.listen.text itemID⟩ .fail, published := true }
  | notPublished (f : ItemFault) : t.pc = .enter → Branch itemID t (.publish (some f))
      { t with pc := .logging ⟨.simError, f.text itemID⟩ .fail }
  | accepts {r : Request σ κ} {rest : List (Request σ κ)} : t.pc = .accepting → t.queue = r :: rest →
      Branch itemID t (.accept true) { t with pc := .receiving r, queue := rest }
  | notAccepted : t.pc = .accepting → Branch itemID t (.accept false)
      { t with pc := .logging ⟨.simError, itemName itemID ++ " connection failure\n".toList⟩ .fail }
  | receives {r : Request σ κ} : t.pc = .receiving r → Branch itemID t (.recv true) { t with pc := .replying r }
  | notReceived {r : Request σ κ} : t.pc = .receiving r → Branch itemID t (.recv false)
      { t with pc := .logging ⟨.simWarn, itemName itemID ++ " didn't get customer request\n".toList⟩ .retry }
  | sells {r : Request σ κ} : t.pc = .replying r → Branch itemID t (.send true)
      { t with
        pc := .logging ⟨.simItemOut, itemOutText itemID (cutAfter '>' r.msg)⟩ .sold
        soldTo := r.peer :: t.soldTo }
  | notReplied {r : Request σ κ} : t.pc = .replying r → Branch itemID t (.send false)
      { t with pc := .logging ⟨.simWarn, itemName itemID ++ " couldn't reply to customer\n".toList⟩ .retry }

theorem step_branch {itemID : ℤ} {t t' : ItemTask σ κ} {act : ItemAct} (h : t.step itemID act = some t') :
    Branch itemID t act t' := by
  cases act with
  | publish fault =>
    simp only [step] at h
    split at h <;> cases h
    · exact .arrives ‹_›
    · exact .notListening ‹_›
    · exact .notPublished _ ‹_›
  | accept ok =>
    simp only [step] at h
    split at h <;> cases h
    · exact .accepts ‹_› ‹_›
    · exact .notAccepted ‹_›
  | recv ok =>
    simp only [step] at h
    split at h <;> cases h
    · exact .receives ‹_›
    · exact .notReceived ‹_›
  | send ok =>
    simp only [step] at h
    split at h <;> cases h
    · exact .sells ‹_›
    · exact .notReplied ‹_›

/-- `simLog` returns `res`. -/
def resume (t : ItemTask σ κ) (k : ItemCont) (res : ℤ) : ItemTask σ κ :=
  match k with
  | .admitted =>
    if res < 0 then { t with pc := .done simLogError, listening := false } else { t with pc := .accepting }
  | .fail => { t with pc := .done simLogError, listening := false }
  | .retry => { t with pc := .accepting }
  | .sold => { t with pc := .done res, listening := false }

/-- What the logging task has recorded by handling the transaction. -/
def record (t : ItemTask σ κ) (k : ItemCont) : LogReply → ItemTask σ κ
  | .unhandled => t
  | .handled st ack _ =>
    match k with
    | .admitted => { t with admitted := decide (0 ≤ ack) }
    | .sold => { t with reported := some st }
    | .fail | .retry => t

theorem record_fail (t : ItemTask σ κ) (r : LogReply) : t.record .fail r = t := by
  cases r <;> rfl

theorem record_retry (t : ItemTask σ κ) (r : LogReply) : t.record .retry r = t := by
  cases r <;> rfl

/-- The transaction that `simLog` sends. -/
def pending (t : ItemTask σ κ) : Option TransMsg :=
  match t.pc with
  | .logging msg _ => some msg
  | _ => none

/-- The call of `simLog` ends with `r`. -/
def answered (t : ItemTask σ κ) (r : LogReply) : ItemTask σ κ :=
  match t.pc with
  | .logging _ k => (t.record k r).resume k r.result
  | _ => t

/-- What is left of a call of `simLog`: the item keeps its requests and its buyer, and waits again or is done. -/
theorem answered_spec (t : ItemTask σ κ) (r : LogReply) :
    t.answered r = t ∨ (t.answered r).queue = t.queue ∧ (t.answered r).soldTo = t.soldTo ∧
      ((t.answered r).pc = .accepting ∨ ∃ res, (t.answered r).pc = .done res) := by
  unfold answered
  split
  · rename_i msg k hpc
    have hrec : (t.record k r).queue = t.queue ∧ (t.record k r).soldTo = t.soldTo := by
      cases r <;> cases k <;> exact ⟨rfl, rfl⟩
    refine .inr ?_
    cases k with
    | admitted =>
      unfold resume
      dsimp only
      split
      · exact ⟨hrec.1, hrec.2, .inr ⟨_, rfl⟩⟩
      · exact ⟨hrec.1, hrec.2, .inl rfl⟩
    | retry => exact ⟨hrec.1, hrec.2, .inl rfl⟩
    | fail | sold => exact ⟨hrec.1, hrec.2, .inr ⟨_, rfl⟩⟩
  · exact .inl rfl

/-- A connection request with its message reaches the socket; a socket that is closed or not yet listening
    rejects it. -/
def connect (t : ItemTask σ κ) (r : Request σ κ) : ItemTask σ κ :=
  if t.listening then { t with queue := t.queue ++ [r] } else t

end ItemTask

/-! ## `simCust` -/

/-- The calls of `simCust` between its admission and the loop. -/
inductive SubscrFault where
  | socket
  | getsockname
  | sendto

/-- The calls that make a purchase request. -/
inductive ReqFault where
  | socket
  | sendto

/-- `sprintf(custName, "Customer task %d", taskID)`. -/
def custName (taskID : ℤ) : Text := "Customer task ".toList ++ fmtD taskID

def SubscrFault.text (taskID : ℤ) : SubscrFault → Text
  | .socket => custName taskID ++ " can't create subscr socket\n".toList
  | .getsockname => custName taskID ++ " can't determine own address\n".toList
  | .sendto => custName taskID ++ " can't connect to TOP server\n".toList

/-- The report of a missed item; `why` is the parenthesis at its end. -/
def missedText (customerID itemID : ℤ) (why : String) : Text :=
  "Customer ".toList ++ fmtD customerID ++ " missed item ".toList ++ fmtD itemID ++ " (".toList ++
    why.toList ++ ")\n".toList

/-- What the subscription connection yields. -/
inductive SubEvent (ι : Type) where
  | failed
  | timeout
  | withdrawn
  | published (x : ι)

/-- What `simCust` does with an acknowledgement. -/
inductive CustCont where
  | admitted
  | fail
  | retry
  | left
deriving DecidableEq

/-- Where `simCust` is. -/
inductive CustPc (ι : Type) where
  | enter
  | logging (msg : TransMsg) (k : CustCont)
  | subscribing
  | waiting
  | requesting (x : ι)
  | selecting (x : ι)
  | reading (x : ι)
  | done (simRes : ℤ)

/-- The arguments of `simCust`, after the random choices, and the node it runs on. -/
structure CustArgs where
  itemID : ℤ
  waitTime : ℤ
  taskID : ℤ
  node : UInt32

/-- One call of `simCust`. -/
structure CustTask (ι : Type) where
  pc : CustPc ι
  customerID : ℤ
  transactionID : ℤ
  /-- the reply that waits on `sockfd_c`, if one has been delivered -/
  inbox : Option Text
  /-- history: the logging task has admitted the customer -/
  admitted : Bool
  /-- history: the logging task has handled the customer's `SIM_CUST_OUT` -/
  left : Bool
  /-- history: the items whose reply the customer has read -/
  reads : List ι
  /-- history: the `SIM_CUST_OUT` reports the customer has made -/
  reports : List Text

/-- The outcome of the next socket call of `simCust`. -/
inductive CustAct (ι : Type) where
  | arrive
  | subscribe (fault : Option SubscrFault)
  | event (e : SubEvent ι)
  | request (fault : Option ReqFault)
  | select (ready : Bool)
  | recvReply (ok : Bool)

namespace CustTask

variable {ι : Type}

/-- Before the call. -/
def initial : CustTask ι := ⟨.enter, 0, 0, none, false, false, [], []⟩

/-- `simLog(SIM_CUST_OUT, ..)` with the given text. -/
def report (t : CustTask ι) (text : Text) : CustTask ι :=
  { t with pc := .logging ⟨.simCustOut, text⟩ .left, reports := text :: t.reports }

/-- The next socket call of `simCust` and what follows it, up to the next call. -/
def step (a : CustArgs) (t : CustTask ι) : CustAct ι → Option (CustTask ι)
  | .arrive =>
    match t.pc with
    | .enter => some { t with pc := .logging ⟨.simCustIn, custInText a.itemID a.waitTime⟩ .admitted }
    | _ => none
  | .subscribe fault =>
    match t.pc, fault with
    | .subscribing, none => some { t with pc := .waiting, transactionID := 0 }
    | .subscribing, some f => some { t with pc := .logging ⟨.simError, f.text a.taskID⟩ .fail }
    | _, _ => none
  | .event e =>
    match t.pc, e with
    | .waiting, .failed =>
      some { t with
        pc := .logging ⟨.simError, custName a.taskID ++ " subscription failure\n".toList⟩ .fail }
    | .waiting, .timeout =>
      some (t.report (custOutText t.customerID a.itemID t.transactionID (fmtD a.waitTime)))
    | .waiting, .withdrawn => some t
    | .waiting, .published x => some { t with pc := .requesting x }
    | _, _ => none
  | .request fault =>
    match t.pc, fault with
    | .requesting x, none => some { t with pc := .selecting x, transactionID := t.transactionID + 1, inbox := none }
    | .requesting _, some .socket =>
      some { t with
        pc := .logging ⟨.simError, custName a.taskID ++ " can't create socket\n".toList⟩ .fail }
    | .requesting _, some .sendto =>
      some { t with
        pc := .logging ⟨.simError, custName a.taskID ++ " unable to send request to item ".toList ++
          fmtD a.itemID ++ "\n".toList⟩ .fail
        transactionID := t.transactionID + 1 }
    | _, _ => none
  | .select ready =>
    match t.pc, ready, t.inbox with
    | .selecting x, true, _ => some { t with pc := .reading x }
    -- the time is up only if nothing has arrived
    | .selecting _, false, none =>
      some { t with pc := .logging ⟨.simWarn, missedText t.customerID a.itemID "no reply from item"⟩ .retry }
    | _, _, _ => none
  | .recvReply ok =>
    match t.pc, ok, t.inbox with
    | .reading x, true, some msg =>
      some (CustTask.report { t with inbox := none, reads := x :: t.reads }
        (custOutText t.customerID a.itemID (t.transactionID - 1) (cutAfter '>' msg)))
    | .reading _, false, _ =>
      some { t with
        pc := .logging ⟨.simInfo, missedText t.customerID a.itemID "item rejected request"⟩ .retry
        inbox := none }
    | _, _, _ => none

/-- The branches of `step`. -/
inductive Branch (a : CustArgs) (t : CustTask ι) : CustAct ι → CustTask ι → Prop where
  | arrives : t.pc = .enter → Branch a t .arrive
      { t with pc := .logging ⟨.simCustIn, custInText a.itemID a.waitTime⟩ .admitted }
  | subscribes : t.pc = .subscribing → Branch a t (.subscribe none) { t with pc := .waiting, transactionID := 0 }
  | notSubscribed (f : SubscrFault) : t.pc = .subscribing → Branch a t (.subscribe (some f))
      { t with pc := .logging ⟨.simError, f.text a.taskID⟩ .fail }
  | noEvent : t.pc = .waiting → Branch a t (.event .failed)
      { t with pc := .logging ⟨.simError, custName a.taskID ++ " subscription failure\n".toList⟩ .fail }
  | timesOut : t.pc = .waiting → Branch a t (.event .timeout)
      (t.report (custOutText t.customerID a.itemID t.transactionID (fmtD a.waitTime)))
  | withdrawn : t.pc = .waiting → Branch a t (.event .withdrawn) t
  | sees (x : ι) : t.pc = .waiting → Branch a t (.event (.published x)) { t with pc := .requesting x }
  | requests {x : ι} : t.pc = .requesting x → Branch a t (.request none)
      { t with pc := .selecting x, transactionID := t.transactionID + 1, inbox := none }
  | noSocket {x : ι} : t.pc = .requesting x → Branch a t (.request (some .socket))
      { t with pc := .logging ⟨.simError, custName a.taskID ++ " can't create socket\n".toList⟩ .fail }
  | notSent {x : ι} : t.pc = .requesting x → Branch a t (.request (some .sendto))
      { t with
        pc := .logging ⟨.simError, custName a.taskID ++ " unable to send request to item ".toList ++
          fmtD a.itemID ++ "\n".toList⟩ .fail
        transactionID := t.transactionID + 1 }
  | ready {x : ι} : t.pc = .selecting x → Branch a t (.select true) { t with pc := .reading x }
  | noReply {x : ι} : t.pc = .selecting x → t.inbox = none → Branch a t (.select false)
      { t with pc := .logging ⟨.simWarn, missedText t.customerID a.itemID "no reply from item"⟩ .retry }
  | reads {x : ι} {msg : Text} : t.pc = .reading x → t.inbox = some msg → Branch a t (.recvReply true)
      (CustTask.report { t with inbox := none, reads := x :: t.reads }
        (custOutText t.customerID a.itemID (t.transactionID - 1) (cutAfter '>' msg)))
  | rejected {x : ι} : t.pc = .reading x → Branch a t (.recvReply false)
      { t with
        pc := .logging ⟨.simInfo, missedText t.customerID a.itemID "item rejected request"⟩ .retry
        inbox := none }

theorem step_branch {a : CustArgs} {t t' : CustTask ι} {act : CustAct ι} (h : t.step a act = some t') :
    Branch a t act t' := by
  cases act with
  | arrive =>
    simp only [step] at h
    split at h <;> cases h
    exact .arrives ‹_›
  | subscribe fault =>
    simp only [step] at h
    split at h <;> cases h
    · exact .subscribes ‹_›
    · exact .notSubscribed _ ‹_›
  | event e =>
    simp only [step] at h
    split at h <;> cases h
    · exact .noEvent ‹_›
    · exact .timesOut ‹_›
    · exact .withdrawn ‹_›
    · exact .sees _ ‹_›
  | request fault =>
    simp only [step] at h
    split at h <;> cases h
    · exact .requests ‹_›
    · exact .noSocket ‹_›
    · exact .notSent ‹_›
  | select ready =>
    simp only [step] at h
    split at h <;> cases h
    · exact .ready ‹_›
    · exact .noReply ‹_› ‹_›
  | recvReply ok =>
    simp only [step] at h
    split at h <;> cases h
    · exact .reads ‹_› ‹_›
    · exact .rejected ‹_›

/-- `simLog` returns `res`. -/
def resume (t : CustTask ι) (k : CustCont) (res : ℤ) : CustTask ι :=
  match k with
  | .admitted =>
    if res < 0 then { t with pc := .done res } else { t with pc := .subscribing, customerID := res }
  | .fail => { t with pc := .done simLogError }
  | .retry => { t with pc := .waiting }
  | .left => { t with pc := .done res }

/-- What the logging task has recorded by handling the transaction. -/
def record (t : CustTask ι) (k : CustCont) : LogReply → CustTask ι
  | .unhandled => t
  | .handled _ ack _ =>
    match k with
    | .admitted => { t with admitted := decide (0 ≤ ack) }
    | .left => { t with left := true }
    | .fail | .retry => t

theorem record_fail (t : CustTask ι) (r : LogReply) : t.record .fail r = t := by
  cases r <;> rfl

theorem record_retry (t : CustTask ι) (r : LogReply) : t.record .retry r = t := by
  cases r <;> rfl

/-- The transaction that `simLog` sends. -/
def pending (t : CustTask ι) : Option TransMsg :=
  match t.pc with
  | .logging msg _ => some msg
  | _ => none

/-- The call of `simLog` ends with `r`. -/
def answered (t : CustTask ι) (r : LogReply) : CustTask ι :=
  match t.pc with
  | .logging _ k => (t.record k r).resume k r.result
  | _ => t

/-- What is left of a call of `simLog`: the customer keeps what it has, and goes on as the call says, or is done. -/
theorem answered_spec (t : CustTask ι) (r : LogReply) :
    t.answered r = t ∨ ∃ msg k, t.pc = .logging msg k ∧ (t.answered r).inbox = t.inbox ∧
      (t.answered r).reads = t.reads ∧ (t.answered r).transactionID = t.transactionID ∧
      (k = .admitted ∧ (t.answered r).pc = .subscribing ∨ k = .retry ∧ (t.answered r).pc = .waiting ∨
        ∃ res, (t.answered r).pc = .done res) := by
  unfold answered
  split
  · rename_i msg k hpc
    have hrec : (t.record k r).inbox = t.inbox ∧ (t.record k r).reads = t.reads ∧
        (t.record k r).transactionID = t.transactionID := by
      cases r <;> cases k <;> exact ⟨rfl, rfl, rfl⟩
    refine .inr ⟨msg, k, hpc, ?_⟩
    cases k with
    | admitted =>
      unfold resume
      dsimp only
      split
      · exact ⟨hrec.1, hrec.2.1, hrec.2.2, .inr (.inr ⟨_, rfl⟩)⟩
      · exact ⟨hrec.1, hrec.2.1, hrec.2.2, .inl ⟨rfl, rfl⟩⟩
    | retry => exact ⟨hrec.1, hrec.2.1, hrec.2.2, .inr (.inl ⟨rfl, rfl⟩)⟩
    | fail | left => exact ⟨hrec.1, hrec.2.1, hrec.2.2, .inr (.inr ⟨_, rfl⟩)⟩
  · exact .inl rfl

/-- The item to which `sockfd_c` is connected. -/
def connectedTo (t : CustTask ι) : Option ι :=
  match t.pc with
  | .selecting x | .reading x => some x
  | _ => none

/-- A reply arrives on the connection of request number `transactionID` to item `x`; it is lost when the customer
    has closed that socket. -/
def deliver [DecidableEq ι] (t : CustTask ι) (x : ι) (transactionID : ℤ) (msg : Text) : CustTask ι :=
  if t.connectedTo = some x ∧ t.transactionID = transactionID then { t with inbox := some msg } else t

end CustTask

/-! ## `simJanitorTask` -/

/-- The calls of `simJanitorTask` before its loop. -/
inductive JanFault where
  | socket
  | getsockname
  | sendto

def JanFault.text : JanFault → Text
  | .socket => "janitor can't create socket\n".toList
  | .getsockname => "janitor can't determine own address\n".toList
  | .sendto => "janitor subscription failure\n".toList

/-- What the janitor does with an acknowledgement. -/
inductive JanCont where
  | cleanup
  | finished
deriving DecidableEq

/-- Where the janitor is. -/
inductive JanPc (ι : Type) where
  | enter
  | waiting
  | sending (x : ι)
  | cleanup
  | logging (msg : TransMsg) (k : JanCont)
  | done

/-- The outcome of the next socket call of the janitor. -/
inductive JanAct (ι : Type) where
  | subscribe (fault : Option JanFault)
  | event (e : SubEvent ι)
  | send (ok : Bool)
  | finish

namespace JanPc

variable {ι : Type}

/-- The next socket call of `simJanitorTask`; `own x` says that item `x` is on the janitor's node. -/
def step (own : ι → Bool) : JanPc ι → JanAct ι → Option (JanPc ι)
  | .enter, .subscribe none => some .waiting
  | .enter, .subscribe (some f) => some (.logging ⟨.simError, f.text⟩ .cleanup)
  | .waiting, .event .failed =>
    some (.logging ⟨.simError, "janitor subscription event failure\n".toList⟩ .cleanup)
  | .waiting, .event .timeout => some .cleanup
  | .waiting, .event .withdrawn => some .waiting
  | .waiting, .event (.published x) => some (if own x then .sending x else .waiting)
  -- the janitor ignores whether its faked request is sent
  | .sending _, .send _ => some .waiting
  | .cleanup, .finish => some (.logging ⟨.simDone, "all done\n".toList⟩ .finished)
  | _, _ => none

/-- `simLog` returns. -/
def resume : JanCont → JanPc ι
  | .cleanup => .cleanup
  | .finished => .done

/-- The transaction that `simLog` sends. -/
def pending : JanPc ι → Option TransMsg
  | .logging msg _ => some msg
  | _ => none

/-- The call of `simLog` ends; the janitor does not look at how. -/
def answered : JanPc ι → JanPc ι
  | .logging _ k => resume k
  | pc => pc

end JanPc

end Inventory
end Tipcutils
