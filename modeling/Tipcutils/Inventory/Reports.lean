import Tipcutils.Inventory.Tasks
import Tipcutils.Lib.Lts

/-!
# `Inventory.Reports` — whether an admitted task reports out

The store closes when all customers have reported `SIM_CUST_OUT`. Here the calls of `simCust` and `simItem` are looked at
alone: any socket call may fail, and every transaction that `simLog` sends is handled and acknowledged.
**`reportsOut_iff`**: a task that was admitted reports out exactly once, unless it has been left by one of the exits
behind its admission.
-/

namespace Tipcutils
namespace Inventory

open Decimal

/-! ## One call -/

/-- A task with the transactions that it has sent, and how its arrival was acknowledged. -/
structure Visit (T : Type) where
  task : T
  sent : List TransMsg
  ack : Option ℤ

/-- What happens to a task: a socket call has an outcome; `simLog` returns, its transaction having been handled in state
    `st`; something arrives at one of its sockets. -/
inductive VisitLabel (A E : Type) where
  | act (a : A)
  | logged (st : StoreState) (ack : ℤ)
  | arrives (e : E)

/-- Before the call. -/
def Visit.start {T : Type} (t : T) : Visit T := ⟨t, [], none⟩

/-- The transactions of one kind that have been sent. -/
def Visit.outs {T : Type} (v : Visit T) (code : Code) : List TransMsg := v.sent.filter fun m => m.code = code

/-- The transaction `msg` is sent, handled and acknowledged. -/
def Visit.logged {T : Type} (v : Visit T) (arrival : Code) (msg : TransMsg) (ack : ℤ) (t : T) : Visit T :=
  ⟨t, v.sent ++ [msg], if msg.code = arrival then some ack else v.ack⟩

/-- One call of `simCust`; a reply is from an item, on the connection of one of the requests. -/
def CustTask.visit {ι : Type} [DecidableEq ι] (a : CustArgs) (v : Visit (CustTask ι)) :
    VisitLabel (CustAct ι) (ι × ℤ × Text) → Option (Visit (CustTask ι))
  | .act act => (v.task.step a act).map fun t => { v with task := t }
  | .logged st ack =>
    v.task.pending.map fun msg => v.logged .simCustIn msg ack (v.task.answered (.handled st ack true))
  | .arrives (x, transactionID, msg) => some { v with task := v.task.deliver x transactionID msg }

/-- One call of `simItem`. -/
def ItemTask.visit {σ κ : Type} (itemID : ℤ) (v : Visit (ItemTask σ κ)) :
    VisitLabel ItemAct (Request σ κ) → Option (Visit (ItemTask σ κ))
  | .act act => (v.task.step itemID act).map fun t => { v with task := t }
  | .logged st ack =>
    v.task.pending.map fun msg => v.logged .simItemIn msg ack (v.task.answered (.handled st ack true))
  | .arrives r => some { v with task := v.task.connect r }

/-! ## The exits -/

/-- A failure behind the admission after which `simCust` ends without a report. -/
def CustAct.exits {ι : Type} : CustAct ι → Bool
  | .subscribe fault => fault.isSome
  | .event .failed => true
  | .request fault => fault.isSome
  | _ => false

/-- The same for `simItem`. -/
def ItemAct.exits : ItemAct → Bool
  | .accept ok => !ok
  | _ => false

def VisitLabel.exits {A E : Type} (exits : A → Bool) : VisitLabel A E → Bool
  | .act a => exits a
  | _ => false

/-- Exactly one `SIM_CUST_OUT` has been sent, with the customer's ID and the item number. -/
def CustOutOnce {T : Type} (customerID itemID : ℤ) (v : Visit T) : Prop :=
  ∃ numRetries last, v.outs .simCustOut = [⟨.simCustOut, custOutText customerID itemID numRetries last⟩]

/-- Exactly one `SIM_ITEM_OUT` has been sent, with the item number. -/
def ItemOutOnce {T : Type} (itemID : ℤ) (v : Visit T) : Prop :=
  ∃ buyer, v.outs .simItemOut = [⟨.simItemOut, itemOutText itemID buyer⟩]

section
variable {T : Type} {v : Visit T} {arrival code : Code} {msg : TransMsg} {ack : ℤ} {t : T}

theorem outs_logged_of_ne (h : msg.code ≠ code) : (v.logged arrival msg ack t).outs code = v.outs code := by
  simp [Visit.outs, Visit.logged, h]

theorem outs_logged_of_eq (h : msg.code = code) : (v.logged arrival msg ack t).outs code = v.outs code ++ [msg] := by
  simp [Visit.outs, Visit.logged, h]

theorem ack_logged_of_ne (h : msg.code ≠ arrival) : (v.logged arrival msg ack t).ack = v.ack := if_neg h

theorem ack_logged_of_eq (h : msg.code = arrival) : (v.logged arrival msg ack t).ack = some ack := if_pos h

end

/-! ## Customers -/

namespace CustTask

variable {ι : Type} {a : CustArgs} {v v' : Visit (CustTask ι)}

/-- The customer is in the store, and has reported nothing. -/
def Inside (v : Visit (CustTask ι)) : Prop := v.outs .simCustOut = [] ∧ v.ack = some v.task.customerID

/-- What the program counter says about what has been sent; `exited` says whether one of the exits was taken. -/
def Sent (a : CustArgs) (exited : Bool) (v : Visit (CustTask ι)) : Prop :=
  match v.task.pc with
  | .enter => exited = false ∧ v.outs .simCustOut = [] ∧ v.ack = none
  | .logging msg .admitted => exited = false ∧ v.outs .simCustOut = [] ∧ msg.code = .simCustIn
  | .logging msg .fail => exited = true ∧ Inside v ∧ msg.code = .simError
  | .logging msg .retry => exited = false ∧ Inside v ∧ msg.code ≠ .simCustIn ∧ msg.code ≠ .simCustOut
  | .logging msg .left =>
    exited = false ∧ Inside v ∧ ∃ n last, msg = ⟨.simCustOut, custOutText v.task.customerID a.itemID n last⟩
  | .subscribing | .waiting | .requesting _ | .selecting _ | .reading _ => exited = false ∧ Inside v
  | .done _ =>
    ∀ c, v.ack = some c → 0 ≤ c →
      exited = true ∧ v.outs .simCustOut = [] ∨ exited = false ∧ CustOutOnce c a.itemID v

variable {exited : Bool}

theorem sent_start : Sent a false (.start (initial : CustTask ι)) := ⟨rfl, rfl, rfl⟩

theorem Sent.act (h : Sent a exited v) {act : CustAct ι} {t : CustTask ι} (hs : v.task.step a act = some t) :
    Sent a (exited || act.exits) { v with task := t } := by
  cases step_branch hs with
  | arrives hpc =>
    simp only [Sent, hpc] at h
    obtain ⟨rfl, houts, -⟩ := h
    exact ⟨rfl, houts, rfl⟩
  -- nothing is sent
  | subscribes hpc | sees x hpc | requests hpc | ready hpc =>
    simp only [Sent, hpc] at h
    obtain ⟨rfl, hin⟩ := h
    exact ⟨rfl, hin⟩
  | withdrawn hpc =>
    simp only [Sent, hpc] at h ⊢
    obtain ⟨rfl, hin⟩ := h
    exact ⟨rfl, hin⟩
  -- the exits
  | notSubscribed f hpc | noEvent hpc | noSocket hpc | notSent hpc =>
    simp only [Sent, hpc] at h
    obtain ⟨rfl, hin⟩ := h
    exact ⟨rfl, hin, rfl⟩
  -- the reports
  | timesOut hpc | reads hpc _ =>
    simp only [Sent, hpc] at h
    obtain ⟨rfl, hin⟩ := h
    exact ⟨rfl, hin, _, _, rfl⟩
  | noReply hpc _ | rejected hpc =>
    simp only [Sent, hpc] at h
    obtain ⟨rfl, hin⟩ := h
    exact ⟨rfl, hin, nofun, nofun⟩

/-- `simLog` returns. -/
theorem Sent.logged (h : Sent a exited v) {msg : TransMsg} (hmsg : v.task.pending = some msg) (st : StoreState)
    (ack : ℤ) : Sent a exited (v.logged .simCustIn msg ack (v.task.answered (.handled st ack true))) := by
  unfold pending at hmsg
  split at hmsg <;> cases hmsg
  next k hpc =>
    have hres : (LogReply.handled st ack true).result = ack := rfl
    simp only [answered, hpc, hres]
    cases k with
    | admitted =>
      simp only [Sent, hpc] at h
      obtain ⟨rfl, houts, hcode⟩ := h
      have hne : msg.code ≠ .simCustOut := by rw [hcode]; nofun
      -- the store is closed: not admitted, so nothing is to be reported
      by_cases hneg : ack < 0
      · simp only [resume, if_pos hneg]
        intro c hc h0
        rw [ack_logged_of_eq hcode, Option.some.injEq] at hc
        omega
      · simp only [resume, if_neg hneg]
        exact ⟨rfl, (outs_logged_of_ne hne).trans houts, ack_logged_of_eq hcode⟩
    | fail =>
      simp only [Sent, hpc] at h
      obtain ⟨rfl, hin, hcode⟩ := h
      have hne : msg.code ≠ .simCustOut := by rw [hcode]; nofun
      exact fun c _ _ => .inl ⟨rfl, (outs_logged_of_ne hne).trans hin.1⟩
    | retry =>
      simp only [Sent, hpc] at h
      obtain ⟨rfl, hin, harrival, hout⟩ := h
      exact ⟨rfl, (outs_logged_of_ne hout).trans hin.1, (ack_logged_of_ne harrival).trans hin.2⟩
    | left =>
      simp only [Sent, hpc] at h
      obtain ⟨rfl, ⟨houts, hack⟩, n, last, rfl⟩ := h
      intro c hc _
      have hcode : Code.simCustOut ≠ .simCustIn := nofun
      rw [ack_logged_of_ne hcode, hack, Option.some.injEq] at hc
      subst hc
      -- the only report so far
      refine .inr ⟨rfl, n, last, ?_⟩
      rw [outs_logged_of_eq rfl, houts]
      rfl

theorem Sent.arrives [DecidableEq ι] (h : Sent a exited v) (x : ι) (transactionID : ℤ) (msg : Text) :
    Sent a exited { v with task := v.task.deliver x transactionID msg } := by
  unfold deliver
  split
  · exact h
  · exact h

theorem Sent.visit [DecidableEq ι] (h : Sent a exited v) {l : VisitLabel (CustAct ι) (ι × ℤ × Text)}
    (hs : CustTask.visit a v l = some v') : Sent a (exited || l.exits CustAct.exits) v' := by
  cases l with
  | act act =>
    obtain ⟨t, ht, rfl⟩ := Option.map_eq_some_iff.mp hs
    exact h.act ht
  | logged st ack =>
    obtain ⟨msg, hmsg, rfl⟩ := Option.map_eq_some_iff.mp hs
    show Sent a (exited || false) _
    rw [Bool.or_false]
    exact h.logged hmsg st ack
  | arrives e =>
    obtain rfl := Option.some.inj hs
    show Sent a (exited || false) _
    rw [Bool.or_false]
    exact h.arrives e.1 e.2.1 e.2.2

end CustTask

/-! ## Items -/

namespace ItemTask

variable {σ κ : Type} {itemID : ℤ} {v v' : Visit (ItemTask σ κ)}

/-- The item is in the store, and has reported nothing. -/
def Inside (v : Visit (ItemTask σ κ)) : Prop := v.outs .simItemOut = [] ∧ ∃ ack, v.ack = some ack ∧ 0 ≤ ack

/-- What the program counter says about what has been sent; `exited` says whether the exit was taken. -/
def Sent (itemID : ℤ) (exited : Bool) (v : Visit (ItemTask σ κ)) : Prop :=
  match v.task.pc with
  | .enter => exited = false ∧ v.outs .simItemOut = [] ∧ v.ack = none
  | .logging msg .admitted => exited = false ∧ v.outs .simItemOut = [] ∧ msg.code = .simItemIn
  | .logging msg .fail => v.outs .simItemOut = [] ∧ (exited = true ∨ v.ack = none) ∧ msg.code = .simError
  | .logging msg .retry => exited = false ∧ Inside v ∧ msg.code = .simWarn
  | .logging msg .sold => exited = false ∧ Inside v ∧ ∃ buyer, msg = ⟨.simItemOut, itemOutText itemID buyer⟩
  | .accepting | .receiving _ | .replying _ => exited = false ∧ Inside v
  | .done _ =>
    ∀ ack, v.ack = some ack → 0 ≤ ack →
      exited = true ∧ v.outs .simItemOut = [] ∨ exited = false ∧ ItemOutOnce itemID v

variable {exited : Bool}

theorem sent_start : Sent itemID false (.start (initial : ItemTask σ κ)) := ⟨rfl, rfl, rfl⟩

theorem Sent.act (h : Sent itemID exited v) {act : ItemAct} {t : ItemTask σ κ} (hs : v.task.step itemID act = some t) :
    Sent itemID (exited || act.exits) { v with task := t } := by
  cases step_branch hs with
  | arrives hpc =>
    simp only [Sent, hpc] at h
    obtain ⟨rfl, houts, -⟩ := h
    exact ⟨rfl, houts, rfl⟩
  | notListening hpc | notPublished f hpc =>
    simp only [Sent, hpc] at h
    exact ⟨h.2.1, .inr h.2.2, rfl⟩
  | accepts hpc _ | receives hpc =>
    simp only [Sent, hpc] at h
    obtain ⟨rfl, hin⟩ := h
    exact ⟨rfl, hin⟩
  -- the exit
  | notAccepted hpc =>
    simp only [Sent, hpc] at h
    obtain ⟨rfl, hin⟩ := h
    exact ⟨hin.1, .inl rfl, rfl⟩
  | notReceived hpc | notReplied hpc =>
    simp only [Sent, hpc] at h
    obtain ⟨rfl, hin⟩ := h
    exact ⟨rfl, hin, rfl⟩
  -- the report
  | sells hpc =>
    simp only [Sent, hpc] at h
    obtain ⟨rfl, hin⟩ := h
    exact ⟨rfl, hin, _, rfl⟩

/-- `simLog` returns. -/
theorem Sent.logged (h : Sent itemID exited v) {msg : TransMsg} (hmsg : v.task.pending = some msg) (st : StoreState)
    (ack : ℤ) : Sent itemID exited (v.logged .simItemIn msg ack (v.task.answered (.handled st ack true))) := by
  unfold pending at hmsg
  split at hmsg <;> cases hmsg
  next k hpc =>
    have hres : (LogReply.handled st ack true).result = ack := rfl
    simp only [answered, hpc, hres]
    cases k with
    | admitted =>
      simp only [Sent, hpc] at h
      obtain ⟨rfl, houts, hcode⟩ := h
      have hne : msg.code ≠ .simItemOut := by rw [hcode]; nofun
      by_cases hneg : ack < 0
      · simp only [resume, if_pos hneg]
        intro c hc h0
        rw [ack_logged_of_eq hcode, Option.some.injEq] at hc
        omega
      · simp only [resume, if_neg hneg]
        exact ⟨rfl, (outs_logged_of_ne hne).trans houts, ack, ack_logged_of_eq hcode, by omega⟩
    | fail =>
      simp only [Sent, hpc] at h
      obtain ⟨houts, hexit, hcode⟩ := h
      have hne : msg.code ≠ .simItemOut := by rw [hcode]; nofun
      intro c hc _
      rw [ack_logged_of_ne (by rw [hcode]; nofun)] at hc
      rcases hexit with rfl | hnone
      · exact .inl ⟨rfl, (outs_logged_of_ne hne).trans houts⟩
      · rw [hnone] at hc
        nomatch hc
    | retry =>
      simp only [Sent, hpc] at h
      obtain ⟨rfl, ⟨houts, c, hack, h0⟩, hcode⟩ := h
      have hne : msg.code ≠ .simItemOut := by rw [hcode]; nofun
      have harrival : msg.code ≠ .simItemIn := by rw [hcode]; nofun
      exact ⟨rfl, (outs_logged_of_ne hne).trans houts, c, (ack_logged_of_ne harrival).trans hack, h0⟩
    | sold =>
      simp only [Sent, hpc] at h
      obtain ⟨rfl, ⟨houts, -⟩, buyer, rfl⟩ := h
      intro c hc _
      refine .inr ⟨rfl, buyer, ?_⟩
      rw [outs_logged_of_eq rfl, houts]
      rfl

theorem Sent.visit (h : Sent itemID exited v) {l : VisitLabel ItemAct (Request σ κ)}
    (hs : ItemTask.visit itemID v l = some v') : Sent itemID (exited || l.exits ItemAct.exits) v' := by
  cases l with
  | act act =>
    obtain ⟨t, ht, rfl⟩ := Option.map_eq_some_iff.mp hs
    exact h.act ht
  | logged st ack =>
    obtain ⟨msg, hmsg, rfl⟩ := Option.map_eq_some_iff.mp hs
    show Sent itemID (exited || false) _
    rw [Bool.or_false]
    exact h.logged hmsg st ack
  | arrives r =>
    obtain rfl := Option.some.inj hs
    show Sent itemID (exited || false) _
    rw [Bool.or_false]
    unfold ItemTask.connect
    split
    · exact h
    · exact h

end ItemTask

/-! ## Runs -/

/-- One of the exits has been taken in a run. -/
def exited {V A E : Type} (exits : A → Bool) (tr : List (V × VisitLabel A E × V)) : Bool :=
  tr.any fun t => t.2.1.exits exits

/-- What every step keeps, with the exits so far at hand, holds at the end of a run. -/
theorem exited_inv {V A E : Type} {step : V → VisitLabel A E → Option V} {exits : A → Bool} {I : Bool → V → Prop}
    {v₀ v : V} {tr : List (V × VisitLabel A E × V)} (h : Lts.Run step v₀ tr v) (h0 : I false v₀)
    (hstep : ∀ e v l v', I e v → step v l = some v' → I (e || l.exits exits) v') : I (exited exits tr) v := by
  induction h with
  | nil => exact h0
  | @snoc tr v v' l _ hs ih =>
    have hany : exited exits (tr ++ [(v, l, v')]) = (exited exits tr || l.exits exits) := by simp [exited]
    rw [hany]
    exact hstep _ _ _ _ ih hs

theorem out_iff {exited : Bool} {outs : List TransMsg} {out : Prop}
    (h : exited = true ∧ outs = [] ∨ exited = false ∧ out) (hout : out → outs ≠ []) : out ↔ exited = false := by
  rcases h with ⟨rfl, hnil⟩ | ⟨rfl, hyes⟩
  · exact ⟨fun hyes => absurd hnil (hout hyes), nofun⟩
  · exact ⟨fun _ => rfl, fun _ => hyes⟩

/-- **Which tasks report out.** A call of `simCust` whose arrival was acknowledged with a customer ID has, when it
    returns, sent exactly one `SIM_CUST_OUT` with this ID and its item number, if and only if none of the exits was taken;
    and the same holds for `simItem` and its `SIM_ITEM_OUT`. -/
theorem reportsOut_iff (ι σ κ : Type) [DecidableEq ι] (a : CustArgs) (itemID : ℤ) :
    (∀ (v : Visit (CustTask ι))
        (tr : List (Visit (CustTask ι) × VisitLabel (CustAct ι) (ι × ℤ × Text) × Visit (CustTask ι))) (c simRes : ℤ),
        Lts.Run (CustTask.visit a) (.start .initial) tr v → v.task.pc = .done simRes → v.ack = some c → 0 ≤ c →
          (CustOutOnce c a.itemID v ↔ exited CustAct.exits tr = false)) ∧
      ∀ (v : Visit (ItemTask σ κ))
        (tr : List (Visit (ItemTask σ κ) × VisitLabel ItemAct (Request σ κ) × Visit (ItemTask σ κ))) (ack simRes : ℤ),
        Lts.Run (ItemTask.visit itemID) (.start .initial) tr v → v.task.pc = .done simRes → v.ack = some ack → 0 ≤ ack →
          (ItemOutOnce itemID v ↔ exited ItemAct.exits tr = false) := by
  constructor
  · intro v tr c simRes hrun hdone hack h0
    have hsent := exited_inv hrun CustTask.sent_start fun _ _ _ _ h hs => h.visit hs
    simp only [CustTask.Sent, hdone] at hsent
    exact out_iff (hsent c hack h0) fun ⟨_, _, hone⟩ => hone ▸ List.cons_ne_nil _ _
  · intro v tr ack simRes hrun hdone hack h0
    have hsent := exited_inv hrun ItemTask.sent_start fun _ _ _ _ h hs => h.visit hs
    simp only [ItemTask.Sent, hdone] at hsent
    exact out_iff (hsent ack hack h0) fun ⟨_, hone⟩ => hone ▸ List.cons_ne_nil _ _

/-- Customer task 1 wants item 3 and waits for ten seconds. -/
def buyer : CustArgs := ⟨3, 10000, 1, 0x01001001⟩

/-- The customer gets the ID 7, and leaves when its time is up. -/
def waitsInVain : List (VisitLabel (CustAct ℕ) (ℕ × ℤ × Text)) :=
  [.act .arrive, .logged .storeOpen 7, .act (.subscribe none), .act (.event .timeout), .logged .storeOpen 0]

/-- Item 3 is sold to the customer. -/
def isSold : List (VisitLabel ItemAct (Request ℕ ℕ)) :=
  [.act (.publish none), .logged .storeOpen 0, .arrives ⟨.cust 7 1, "<1.1.1>[7:1]".toList⟩, .act (.accept true),
    .act (.recv true), .act (.send true), .logged .storeOpen 0]

theorem waitsInVain_exec :
    (Lts.exec (CustTask.visit buyer) (.start .initial) waitsInVain).isSome = true := by decide

theorem isSold_exec : (Lts.exec (ItemTask.visit 3) (.start .initial) isSold).isSome = true := by decide

theorem reportsOut_iff_two :
    CustOutOnce 7 3 (Lts.final _ _ waitsInVain waitsInVain_exec) ∧ ItemOutOnce 3 (Lts.final _ _ isSold isSold_exec) := by
  obtain ⟨hcust, hitem⟩ := reportsOut_iff ℕ ℕ ℕ buyer 3
  constructor
  · exact (hcust _ _ 7 0 (Lts.run_of_exec (Option.some_get waitsInVain_exec).symm) rfl rfl (by decide)).mpr (by decide)
  · exact (hitem _ _ 0 0 (Lts.run_of_exec (Option.some_get isSold_exec).symm) rfl rfl (by decide)).mpr (by decide)

/-- The customer cannot create its socket. -/
def noSocket : List (VisitLabel (CustAct ℕ) (ℕ × ℤ × Text)) :=
  [.act .arrive, .logged .storeOpen 7, .act (.subscribe (some .socket)), .logged .storeOpen 0]

theorem noSocket_exec : (Lts.exec (CustTask.visit buyer) (.start .initial) noSocket).isSome = true := by decide

/-- A customer that is in the store leaves without a report. -/
theorem reportsOut_broken :
    ¬ ∀ (a : CustArgs) (v : Visit (CustTask ℕ)) (c simRes : ℤ), Lts.Reach (CustTask.visit a) (.start .initial) v →
      v.task.pc = .done simRes → v.ack = some c → 0 ≤ c → CustOutOnce c a.itemID v := by
  intro h
  obtain ⟨n, last, hone⟩ := h buyer _ 7 simLogError (Lts.reach_final noSocket_exec) rfl rfl (by decide)
  have hnone : (Lts.final _ _ noSocket noSocket_exec).outs .simCustOut = [] := rfl
  rw [hnone] at hone
  nomatch hone

end Inventory
end Tipcutils
