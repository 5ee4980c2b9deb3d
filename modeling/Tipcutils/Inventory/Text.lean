import Mathlib.Data.List.TakeWhile
import Tipcutils.Tipc.Addr

/-!
# `Inventory.Text` — the texts that pass between the tasks of the inventory simulation

Four formats of `inventory_sim.c` and what their readers do with them: the purchase request of `simCust`,
the reply of `simItem`, and the two reports (`SIM_CUST_OUT`, `SIM_ITEM_OUT`) that `logTransaction` takes
apart again with `sscanf` and `strchr`. The reading lemmas (`scanInts_custOutText`, `strchr_itemOutText`, …)
are all the rest of the development uses: no later proof unfolds a format.
-/

namespace Tipcutils
namespace Inventory

open Decimal Tipc

/-! ## `strchr` and the cut at a marker -/

/-- `strchr(t, m)`: the text from the first `m` on; `[]` is the null pointer. -/
def strchr (t : Text) (m : Char) : Text := t.dropWhile (· != m)

/-- `if ((marker = strchr(t, m)) != NULL) *(marker + 1) = '\0'`: keep the text up to the first `m`. -/
def cutAfter (m : Char) : Text → Text
  | [] => []
  | c :: t => if c = m then [c] else c :: cutAfter m t

theorem strchr_append_cons {a t : Text} {m : Char} (h : m ∉ a) : strchr (a ++ m :: t) m = m :: t := by
  unfold strchr
  rw [List.dropWhile_append_of_pos fun c hc => by
    simp only [bne_iff_ne]
    rintro rfl
    exact h hc]
  simp

theorem strchr_eq_nil {t : Text} {m : Char} : strchr t m = [] ↔ m ∉ t := by
  unfold strchr
  rw [List.dropWhile_eq_nil_iff]
  constructor
  · intro h hm
    simpa using h m hm
  · intro h c hc
    simp only [bne_iff_ne]
    rintro rfl
    exact h hc

theorem head_cutAfter (m c : Char) (t : Text) : ∃ t', cutAfter m (c :: t) = c :: t' := by
  unfold cutAfter
  split
  · exact ⟨[], rfl⟩
  · exact ⟨_, rfl⟩

/-! ## The formats -/

/-- `"<%d.%d.%d>"` of a node address. -/
def nodeText (addr : UInt32) : Text :=
  '<' :: fmtU (tipcZone addr).toNat ++ '.' :: fmtU (tipcCluster addr).toNat ++
    '.' :: fmtU (tipcNode addr).toNat ++ ['>']

/-- The purchase request of `simCust`: `"<%d.%d.%d>[%d:%d]"`. -/
def requestText (addr : UInt32) (customerID transactionID : ℤ) : Text :=
  nodeText addr ++ '[' :: fmtD customerID ++ ':' :: fmtD transactionID ++ [']']

/-- The reply of `simItem`: `"<%d.%d.%d>%s"`. -/
def replyText (addr : UInt32) (inMsg : Text) : Text := nodeText addr ++ inMsg

/-- The `SIM_ITEM_IN` report: `"%d"`. -/
def itemInText (itemID : ℤ) : Text := fmtD itemID

/-- The `SIM_ITEM_OUT` report: `"%d %s"`. -/
def itemOutText (itemID : ℤ) (buyer : Text) : Text := fmtD itemID ++ ' ' :: buyer

/-- The `SIM_CUST_IN` report: `"%d %d"`. -/
def custInText (itemID waitTime : ℤ) : Text := fmtD itemID ++ ' ' :: fmtD waitTime

/-- The `SIM_CUST_OUT` report, `"%d %d %d %d"` or `"%d %d %d %s"`; `last` is the fourth field. -/
def custOutText (customerID itemID numRetries : ℤ) (last : Text) : Text :=
  fmtD customerID ++ ' ' :: (fmtD itemID ++ ' ' :: (fmtD numRetries ++ ' ' :: last))

/-! ## Reading them back -/

theorem nodigit_space {t : Text} : ∀ c ∈ (' ' :: t).head?, c.isDigit = false := by
  intro c hc
  obtain rfl : ' ' = c := by simpa using hc
  decide

theorem scanInts_itemInText (itemID : ℤ) : scanInts 1 (itemInText itemID) = [itemID] := by
  have : scanInts 1 (fmtD itemID ++ []) = itemID :: scanInts 0 [] := scanInts_fmtD 0 itemID (by simp)
  simpa [itemInText, scanInts] using this

theorem scanInts_custInText (itemID waitTime : ℤ) :
    scanInts 2 (custInText itemID waitTime) = [itemID, waitTime] := by
  have hlast : scanInts 1 (fmtD waitTime ++ []) = waitTime :: scanInts 0 [] := scanInts_fmtD 0 waitTime (by simp)
  rw [List.append_nil] at hlast
  rw [custInText, scanInts_fmtD 1 itemID nodigit_space, scanInts_space, hlast]
  rfl

/-- The first three fields of a customer's report survive, whatever the fourth one is. -/
theorem scanInts_custOutText (customerID itemID numRetries : ℤ) (last : Text) :
    scanInts 4 (custOutText customerID itemID numRetries last)
      = customerID :: itemID :: numRetries :: scanInts 1 last := by
  rw [custOutText, scanInts_fmtD 3 customerID nodigit_space, scanInts_space,
    scanInts_fmtD 2 itemID nodigit_space, scanInts_space, scanInts_fmtD 1 numRetries nodigit_space,
    scanInts_space]

/-- The blank that `logTransaction` looks for in an item's report is the one after the item number. -/
theorem strchr_itemOutText (itemID : ℤ) (buyer : Text) :
    strchr (itemOutText itemID buyer) ' ' = ' ' :: buyer :=
  strchr_append_cons (notMem_fmtD (by decide) (by decide) itemID)

/-- What stands before that blank is the item number. -/
theorem takeWhile_itemOutText (itemID : ℤ) (buyer : Text) :
    (itemOutText itemID buyer).takeWhile (· != ' ') = itemInText itemID := by
  have hns : ∀ c ∈ fmtD itemID, (c != ' ') = true := by
    intro c hc
    simp only [bne_iff_ne]
    rintro rfl
    exact notMem_fmtD (by decide) (by decide) itemID hc
  rw [itemOutText, List.takeWhile_append_of_pos hns]
  simp [itemInText]

/-- `strchr(.., '<')` finds a marker in a customer's report exactly when there is one in the fourth field. -/
theorem lt_mem_custOutText {customerID itemID numRetries : ℤ} {last : Text} :
    '<' ∈ custOutText customerID itemID numRetries last ↔ '<' ∈ last := by
  have hfmt : ∀ n : ℤ, '<' ∉ fmtD n := notMem_fmtD (by decide) (by decide)
  simp [custOutText, hfmt]

/-- A reply starts with the marker `'<'`, and keeps it when it is cut after the first `'>'`. -/
theorem lt_mem_cutAfter_replyText (addr : UInt32) (inMsg : Text) : '<' ∈ cutAfter '>' (replyText addr inMsg) := by
  obtain ⟨t, ht⟩ := head_cutAfter '>' '<'
    (fmtU (tipcZone addr).toNat ++ '.' :: fmtU (tipcCluster addr).toNat ++
      '.' :: fmtU (tipcNode addr).toNat ++ ['>'] ++ inMsg)
  have hreply : cutAfter '>' (replyText addr inMsg) = '<' :: t := by
    simpa [replyText, nodeText] using ht
  simp [hreply]

/-- Up to its last character, a node's text has no `'>'`. -/
theorem nodeText_eq (addr : UInt32) : ∃ front : Text, nodeText addr = front ++ ['>'] ∧ '>' ∉ front := by
  have hdigits (n : ℕ) : '>' ∉ fmtU n := fun h => absurd (isDigit_of_mem_fmtU h) (by decide)
  refine ⟨'<' :: fmtU (tipcZone addr).toNat ++ '.' :: fmtU (tipcCluster addr).toNat ++
    '.' :: fmtU (tipcNode addr).toNat, rfl, ?_⟩
  simp [hdigits]

/-- What is kept up to the first `'>'` of a request or a reply is the text of its first node. -/
theorem cutAfter_nodeText (addr : UInt32) (rest : Text) : cutAfter '>' (nodeText addr ++ rest) = nodeText addr := by
  obtain ⟨front, hfront, hno⟩ := nodeText_eq addr
  have hcut (a : Text) (ha : '>' ∉ a) : cutAfter '>' (a ++ '>' :: rest) = a ++ ['>'] := by
    induction a with
    | nil => rfl
    | cons c a ih =>
        obtain ⟨hc, ha'⟩ := not_or.mp fun h => ha (List.mem_cons.mpr h)
        rw [List.cons_append, cutAfter, if_neg (Ne.symm hc), ih ha']
        rfl
  rw [hfront, List.append_assoc, List.singleton_append, hcut front hno]

theorem cutAfter_requestText (addr : UInt32) (customerID transactionID : ℤ) :
    cutAfter '>' (requestText addr customerID transactionID) = nodeText addr := by
  rw [requestText, List.append_assoc, List.append_assoc, cutAfter_nodeText]

/-- A node's text is no number. -/
theorem scanInts_nodeText (k : ℕ) (addr : UInt32) : scanInts k (nodeText addr) = [] := by
  cases k with
  | zero => rfl
  | succ k =>
      have hscan (t : Text) : scanD ('<' :: t) = none := by
        have hspace : Char.isWhitespace '<' = false := by decide
        have hdigit : Char.isDigit '<' = false := by decide
        simp [scanD, hspace, scanSigned, scanU, List.span_eq_takeWhile_dropWhile, hdigit]
      simp only [nodeText, List.cons_append, scanInts, hscan]

/-- The marker that `logTransaction` finds in a customer's report is the one of the node's text. -/
theorem strchr_custOutText (customerID itemID numRetries : ℤ) (addr : UInt32) :
    strchr (custOutText customerID itemID numRetries (nodeText addr)) '<' = nodeText addr := by
  have hfmt (n : ℤ) : '<' ∉ fmtD n := notMem_fmtD (by decide) (by decide) n
  have hfront : '<' ∉ fmtD customerID ++ ' ' :: (fmtD itemID ++ ' ' :: (fmtD numRetries ++ [' '])) := by
    simp [hfmt]
  have htext : custOutText customerID itemID numRetries (nodeText addr) =
      (fmtD customerID ++ ' ' :: (fmtD itemID ++ ' ' :: (fmtD numRetries ++ [' ']))) ++ nodeText addr := by
    simp [custOutText]
  rw [htext]
  exact strchr_append_cons hfront

/-- The waiting time of a walk-out has no marker. -/
theorem lt_notMem_fmtD (n : ℤ) : '<' ∉ fmtD n := notMem_fmtD (by decide) (by decide) n

end Inventory
end Tipcutils
