import Mathlib.Logic.Function.Basic
import Tipcutils.Lib.Decimal
import Tipcutils.Lib.Gaps
import Tipcutils.Lib.Slots

/-!
# `Pipe.DataCheck` — generated data and its check in `tipc-pipe`

`generate_data` sends numbered messages, and `check_generated_data` looks for one number in every block that it reads and
compares it with the number that it expects from the block's sender.

A block is written over the beginning of the buffer, and `sscanf` reads the buffer up to the first NUL, wherever that is.
An `int` wraps around. Undefined is what accesses the table of expected numbers outside its bounds (`none`), and, for a
sender and its receiver (`DataRun`), where `sprintf` or `sscanf` leaves a buffer. `recvfrom` cuts a message at `--buf_size`.

**`data_check_iff`** says when a receiver reports exactly the losses. Over a stream this hangs on the reads: each counts as
one message, and a number is found only in one that begins where a message begins.

Not modelled: the copy on `stdout`, whose failure ends the program like an end of the blocks, delays, and the traces on
stderr.
-/

namespace Tipcutils
namespace Pipe

open Decimal

/-! ## `generate_data` -/

/-- What a sender puts into its messages, besides their numbers: `name.addr.id` and `getpid()`. -/
structure Generator where
  node : UInt32
  pid : Int32
  ref : UInt32

/-- `%x` -/
def fmtX (x : UInt32) : Text := Nat.toDigits 16 x.toNat

/-- `%0*d` of 0: a negative width is one to be filled from the right, with blanks. -/
def fmtZero (width : ℤ) : Text :=
  if 0 ≤ width then List.replicate (width.toNat - 1) '0' ++ ['0'] else '0' :: List.replicate (width.natAbs - 1) ' '

/-- What `sprintf` puts into the buffer. -/
def Generator.text (g : Generator) (dataSize : Int32) (i tries : ℕ) : Text :=
  if dataSize ≠ 0 then fmtZero (dataSize - 2).toInt ++ ['\n']
  else "message ".toList ++ fmtD i ++ " try ".toList ++ fmtD tries ++ ' ' :: fmtX g.node ++ ' ' :: fmtD g.pid.toInt ++
    ' ' :: fmtX g.ref ++ ['\n']

/-- How a message is sent: how often the socket answers `EAGAIN`, and whether it takes the message then. -/
structure Sending where
  again : ℕ
  taken : Bool

/-- The messages that `generate_data` sends, from the number `i` on: texts with the NUL behind them. -/
def Generator.generateData (g : Generator) (dataSize dataNum : Int32) : ℕ → List Sending → List Text
  | _, [] => []
  | i, w :: ws =>
    if (i : ℤ) < dataNum.toInt then
      if w.taken then (g.text dataSize i (w.again + 1) ++ ['\x00']) :: g.generateData dataSize dataNum (i + 1) ws else []
    else []

/-! ## `check_generated_data` -/

/-- What `recvfrom` delivers: the reference of the sender's port, and at least one octet. -/
structure Block where
  ref : UInt32
  data : Text
  nonempty : data ≠ []

/-- `isspace` -/
def isSpace (c : Char) : Bool := c.isWhitespace || c == '\x0b' || c == '\x0c'

/-- What a conversion makes of a number: a `long`, of which an `int` keeps the low half. -/
def intOf (v : ℤ) : Int32 := Int32.ofInt (max (-2 ^ 63) (min (2 ^ 63 - 1) v))

/-- `sscanf(buf, "message %d", &seq)` -/
def sscanfMessage (t : Text) : Option Int32 :=
  if "message".toList.isPrefixOf t then (scanSigned ((t.drop 7).dropWhile isSpace)).map fun r => intOf r.1 else none

/-- The text spells `seq` behind the word, as `sscanf` is to find it: white space, a numeral, and no further digit. -/
def Spells (t : Text) (seq : Int32) : Prop :=
  ∃ blanks num v rest, t = "message".toList ++ (blanks ++ (num ++ rest)) ∧ (∀ c ∈ blanks, isSpace c = true) ∧
    Numeral num v ∧ (∀ c ∈ rest.head?, c.isDigit = false) ∧ seq = intOf v

/-- The C string at the beginning of the memory. -/
def cString (mem : Text) : Text := mem.takeWhile (· ≠ '\x00')

/-- The memory from the buffer on, after a block is read into it. -/
def Block.readInto (b : Block) (mem : Text) : Text := b.data ++ mem.drop b.data.length

/-- `MAP_EXPECTED_SEQUENCE_NUMBERS` -/
def mapExpectedSequenceNumbers : ℕ := 255

/-- `peer.addr.id.ref % 256` -/
def slot (ref : UInt32) : ℕ := ref.toNat % 256

/-- A line about lost messages. -/
structure Report where
  expected : Int32
  lost : Int32
  ref : UInt32
deriving DecidableEq

/-- What is made of a block: of the number that is found in it, if there is one, and the number that is expected. -/
def checkBlock (expected : Int32) (found : UInt32 × Option Int32) : Int32 × List Report :=
  match found with
  | (ref, some seq) => (seq + 1, if seq - expected ≠ 0 then [⟨expected, seq - expected, ref⟩] else [])
  | (_, none) => (expected + 1, [])

/-- The loop, with the blocks that it reads; it ends with an empty one or an error. -/
def checkLoop (table : ℕ → Int32) (mem : Text) : List Block → Option (List Report)
  | [] => some []
  | b :: rest =>
    if slot b.ref < mapExpectedSequenceNumbers then
      let mem := b.readInto mem
      let (next, reports) := checkBlock (table (slot b.ref)) (b.ref, sscanfMessage (cString mem))
      (checkLoop (Function.update table (slot b.ref) next) mem rest).map (reports ++ ·)
    else none

/-- The lines that `check_generated_data` prints. -/
def checkGeneratedData (mem : Text) (blocks : List Block) : Option (List Report) := checkLoop (fun _ => 0) mem blocks

/-! ## The messages -/

/-- A text without the first letter of a message and without NUL. -/
def Plain (t : Text) : Prop := ∀ c ∈ t, c ≠ 'm' ∧ c ≠ '\x00'

instance (t : Text) : Decidable (Plain t) := List.decidableBAll _ t

theorem Plain.append {t u : Text} (ht : Plain t) (hu : Plain u) : Plain (t ++ u) := by
  intro c hc
  rcases List.mem_append.mp hc with h | h
  · exact ht c h
  · exact hu c h

theorem plain_fmtD (n : ℤ) : Plain (fmtD n) := by
  intro c hc
  constructor
  · rintro rfl
    exact notMem_fmtD (by decide) (by decide) n hc
  · rintro rfl
    exact notMem_fmtD (by decide) (by decide) n hc

theorem plain_fmtX (x : UInt32) : Plain (fmtX x) := by
  intro c hc
  obtain ⟨d, hd, rfl⟩ := mem_toDigits (by decide) hc
  have hall : ∀ d < 16, Nat.digitChar d ≠ 'm' ∧ Nat.digitChar d ≠ '\x00' := by decide
  exact hall d hd

section
variable {g : Generator} {dataNum : Int32}

/-- What follows the number in a message. -/
def Generator.rest (g : Generator) (tries : ℕ) : Text :=
  ' ' :: ("try ".toList ++ fmtD tries ++ ' ' :: fmtX g.node ++ ' ' :: fmtD g.pid.toInt ++ ' ' :: fmtX g.ref ++ ['\n'])

theorem Generator.text_eq (g : Generator) (i tries : ℕ) :
    g.text 0 i tries = 'm' :: ("essage ".toList ++ fmtD i ++ g.rest tries) := by
  have hmessage : "message ".toList = 'm' :: "essage ".toList := rfl
  have htry : " try ".toList = ' ' :: "try ".toList := rfl
  have h0 : ¬ (0 : Int32) ≠ 0 := fun h => h rfl
  rw [Generator.text, if_neg h0, hmessage, htry, Generator.rest]
  simp only [List.append_assoc, List.cons_append]

theorem Generator.plain (g : Generator) (i tries : ℕ) : Plain ("essage ".toList ++ fmtD i ++ g.rest tries) := by
  have hspace : ∀ t, Plain t → Plain (' ' :: t) := fun t ht => Plain.append (t := [' ']) (by decide) ht
  refine Plain.append (Plain.append (by decide) (plain_fmtD _)) (hspace _ ?_)
  refine Plain.append (Plain.append (Plain.append (Plain.append (Plain.append ?_ (plain_fmtD _)) ?_) ?_) ?_) ?_
  · decide
  · exact hspace _ (plain_fmtX _)
  · exact hspace _ (plain_fmtD _)
  · exact hspace _ (plain_fmtX _)
  · decide

theorem isSpace_of_isDigit {c : Char} (hc : c.isDigit = true) : isSpace c = false := by
  rw [Bool.eq_false_iff]
  intro hsp
  simp only [isSpace, Char.isWhitespace, Bool.or_eq_true, decide_eq_true_eq, beq_iff_eq] at hsp
  rcases hsp with ((((rfl | rfl) | rfl) | rfl) | rfl) | rfl <;> exact absurd hc (by decide)

/-- White space is skipped in front of a number. -/
theorem dropWhile_isSpace_fmtD (n : ℕ) (t : Text) : (' ' :: (fmtD n ++ t)).dropWhile isSpace = fmtD n ++ t := by
  have hblank : isSpace ' ' = true := by decide
  rw [List.dropWhile_cons_of_pos hblank]
  show (fmtU n ++ t).dropWhile isSpace = fmtU n ++ t
  cases hf : fmtU n with
  | nil => exact absurd hf (fmtU_ne_nil n)
  | cons c ds =>
    have hc : c.isDigit = true := isDigit_of_mem_fmtU (n := n) (by simp [hf])
    rw [List.cons_append, List.dropWhile_cons_of_neg (by simp [isSpace_of_isDigit hc])]

/-- **The number of a message is found**, if something follows it that is no digit. -/
theorem sscanf_message (n : ℕ) {t : Text} (ht : ∀ c ∈ t.head?, c.isDigit = false) :
    sscanfMessage ('m' :: ("essage ".toList ++ fmtD n ++ t)) = some (intOf n) := by
  have hprefix : "message".toList.isPrefixOf ('m' :: ("essage ".toList ++ fmtD n ++ t)) = true := by
    simp [List.isPrefixOf]
  have hdrop : ('m' :: ("essage ".toList ++ fmtD n ++ t)).drop 7 = ' ' :: (fmtD n ++ t) := by
    simp
  rw [sscanfMessage, if_pos hprefix, hdrop, dropWhile_isSpace_fmtD, scanSigned_fmtD n ht]
  rfl

/-- **What `sscanf` finds** is the number that the text spells. -/
theorem sscanfMessage_eq_some_iff {t : Text} {seq : Int32} : sscanfMessage t = some seq ↔ Spells t seq := by
  constructor
  · intro h
    unfold sscanfMessage at h
    split at h
    · rename_i hword
      obtain ⟨u, rfl⟩ := List.isPrefixOf_iff_prefix.mp hword
      obtain ⟨⟨v, rest⟩, hv, rfl⟩ := Option.map_eq_some_iff.mp h
      obtain ⟨num, hnum, hval, hrest⟩ := scanSigned_eq_some_iff.mp hv
      refine ⟨u.takeWhile isSpace, num, v, rest, ?_, List.all_eq_true.mp List.all_takeWhile, hval, hrest, rfl⟩
      have hdrop : ("message".toList ++ u).drop 7 = u := rfl
      rw [hdrop] at hnum
      rw [← hnum, List.takeWhile_append_dropWhile]
    · cases h
  · rintro ⟨blanks, num, v, rest, rfl, hblanks, hnum, hrest, rfl⟩
    have hword : "message".toList.isPrefixOf ("message".toList ++ (blanks ++ (num ++ rest))) = true :=
      List.isPrefixOf_iff_prefix.mpr (List.prefix_append _ _)
    have hdrop : ("message".toList ++ (blanks ++ (num ++ rest))).drop 7 = blanks ++ (num ++ rest) := rfl
    -- a numeral begins with a sign or a digit
    have hskip : (num ++ rest).dropWhile isSpace = num ++ rest := by
      cases hnum with
      | plain hne hds =>
        obtain ⟨c, ds, rfl⟩ := List.exists_cons_of_ne_nil hne
        rw [List.cons_append, List.dropWhile_cons_of_neg]
        simp [isSpace_of_isDigit (hds c List.mem_cons_self)]
      | plus | minus => rfl
    rw [sscanfMessage, if_pos hword, hdrop, List.dropWhile_append_of_pos hblanks, hskip,
      scanSigned_eq_some_iff.mpr ⟨num, rfl, hnum, hrest⟩]
    rfl

theorem intOf_natCast {n : ℕ} (h : n < 2 ^ 31) : intOf n = .ofNat n := by
  rw [intOf, ← Int32.ofInt_eq_ofNat]
  congr 1
  omega

/-- A text that does not begin like a message has no number. -/
theorem sscanf_of_head {t : Text} (h : t.head? ≠ some 'm') : sscanfMessage t = none := by
  rw [sscanfMessage, if_neg]
  cases t with
  | nil => decide
  | cons c t =>
    have hc : 'm' ≠ c := fun heq => h (by rw [heq]; rfl)
    simp [List.isPrefixOf, hc]

/-- A message is a C string of its own, whatever is behind it. -/
theorem cString_append {t : Text} (ht : ∀ c ∈ t, c ≠ '\x00') (mem : Text) : cString (t ++ '\x00' :: mem) = t := by
  rw [cString, List.takeWhile_append_of_pos (by simpa using ht), List.takeWhile_cons_of_neg (by decide), List.append_nil]

/-- A text whose number does not depend on what is behind it in the memory. -/
def SelfContained (t : Text) : Prop := ∀ mem, sscanfMessage (cString (t ++ mem)) = sscanfMessage (cString t)

theorem selfContained_of_nul {t : Text} (ht : ∀ c ∈ t, c ≠ '\x00') : SelfContained (t ++ ['\x00']) := by
  intro mem
  rw [List.append_assoc, List.singleton_append, cString_append ht, cString_append ht]

/-- What `generate_data` sends are its texts, numbered in order. -/
theorem mem_generateData {dataSize : Int32} {i : ℕ} {ws : List Sending} {m : Text × ℕ}
    (hm : m ∈ (g.generateData dataSize dataNum i ws).zipIdx i) :
    (m.2 : ℤ) < dataNum.toInt ∧ ∃ tries, m.1 = g.text dataSize m.2 tries ++ ['\x00'] := by
  induction ws generalizing i with
  | nil => nomatch hm
  | cons w ws ih =>
    rw [Generator.generateData] at hm
    split at hm
    next hlt =>
      split at hm
      · rcases List.mem_cons.mp hm with rfl | hm
        · exact ⟨hlt, _, rfl⟩
        · exact ih hm
      · nomatch hm
    · nomatch hm

/-- The number of a message that is generated. -/
theorem sscanf_generated {m : Text × ℕ} {ws : List Sending} (hm : m ∈ (g.generateData 0 dataNum 0 ws).zipIdx) :
    SelfContained m.1 ∧ sscanfMessage (cString m.1) = some (.ofNat m.2) ∧ m.2 < 2 ^ 31 := by
  obtain ⟨hlt, tries, htext⟩ := mem_generateData hm
  have hnum := dataNum.toInt_lt
  have hsmall : m.2 < 2 ^ 31 := by omega
  have hplain : ∀ c ∈ g.text 0 m.2 tries, c ≠ '\x00' := by
    rw [Generator.text_eq]
    intro c hc
    rcases List.mem_cons.mp hc with rfl | hc
    · decide
    · exact (g.plain _ _ c hc).2
  rw [htext]
  refine ⟨selfContained_of_nul hplain, ?_, hsmall⟩
  rw [cString_append hplain, Generator.text_eq, ← intOf_natCast hsmall]
  apply sscanf_message
  intro c hc
  obtain rfl : ' ' = c := Option.some.inj hc
  decide

end

/-! ## The loop as a table of records -/

/-- The numbers that are found in the buffer, with the ports of the blocks. -/
def found (mem : Text) : List Block → List (UInt32 × Option Int32)
  | [] => []
  | b :: rest => (b.ref, sscanfMessage (cString (b.readInto mem))) :: found (b.readInto mem) rest

/-- The number that is found in a block alone. -/
def Block.found (b : Block) : UInt32 × Option Int32 := (b.ref, sscanfMessage (cString b.data))

theorem found_of_selfContained {mem : Text} {blocks : List Block} (h : ∀ b ∈ blocks, SelfContained b.data) :
    found mem blocks = blocks.map Block.found := by
  induction blocks generalizing mem with
  | nil => rfl
  | cons b blocks ih =>
    rw [found, ih fun b' hb' => h b' (List.mem_cons_of_mem _ hb'), List.map_cons, Block.found, Block.readInto,
      h b List.mem_cons_self]

/-- The loop keeps to the table if and only if all blocks do. -/
theorem checkLoop_eq {table : ℕ → Int32} {mem : Text} {blocks : List Block}
    (h : ∀ b ∈ blocks, slot b.ref < mapExpectedSequenceNumbers) :
    checkLoop table mem blocks =
      some ((Slots.run (fun f => slot f.1) checkBlock table (found mem blocks)).flatMap Prod.snd) := by
  induction blocks generalizing table mem with
  | nil => rfl
  | cons b blocks ih =>
    rw [checkLoop, if_pos (h b List.mem_cons_self)]
    simp only [ih fun b' hb' => h b' (List.mem_cons_of_mem _ hb'), Option.map_some]
    rfl

theorem checkLoop_eq_none {table : ℕ → Int32} {mem : Text} {blocks : List Block} {b : Block} (hb : b ∈ blocks)
    (h : ¬ slot b.ref < mapExpectedSequenceNumbers) : checkLoop table mem blocks = none := by
  induction blocks generalizing table mem with
  | nil => nomatch hb
  | cons b' blocks ih =>
    rw [checkLoop]
    split
    next hslot =>
      rcases List.mem_cons.mp hb with rfl | hb
      · exact absurd hslot h
      · simp only [ih hb, Option.map_none]
    · rfl

/-- What is printed about the blocks of one sender. -/
def reportsFrom (expected : Int32) (fs : List (UInt32 × Option Int32)) : List Report :=
  (Slots.single checkBlock expected fs).flatMap Prod.snd

section
variable {ref : UInt32} {mem : Text} {blocks : List Block}

theorem ref_of_mem_found {f : UInt32 × Option Int32} (hf : f ∈ found mem blocks) : ∃ b ∈ blocks, b.ref = f.1 := by
  induction blocks generalizing mem with
  | nil => nomatch hf
  | cons b blocks ih =>
    rcases List.mem_cons.mp hf with rfl | hf
    · exact ⟨b, List.mem_cons_self, rfl⟩
    · obtain ⟨b', hb', href⟩ := ih hf
      exact ⟨b', List.mem_cons_of_mem _ hb', href⟩

/-- Of one sender's blocks, one record is in use. -/
theorem checkGeneratedData_single (href : ∀ b ∈ blocks, b.ref = ref) (hslot : slot ref < mapExpectedSequenceNumbers) :
    checkGeneratedData mem blocks = some (reportsFrom 0 (found mem blocks)) := by
  rw [checkGeneratedData, checkLoop_eq fun b hb => by rw [href b hb]; exact hslot,
    Slots.run_eq_single (k := slot ref)]
  · rfl
  · intro f hf
    obtain ⟨b, hb, hbf⟩ := ref_of_mem_found hf
    rw [← hbf, href b hb]

theorem checkGeneratedData_eq_none (href : ∀ b ∈ blocks, b.ref = ref) (hne : blocks ≠ [])
    (hslot : ¬ slot ref < mapExpectedSequenceNumbers) : checkGeneratedData mem blocks = none := by
  obtain ⟨b, hb⟩ := List.exists_mem_of_ne_nil _ hne
  exact checkLoop_eq_none hb (by rw [href b hb]; exact hslot)

end

/-! ## One message in every read -/

/-- **The losses of rising numbers** are the gaps between them. -/
theorem lost_sum {ref : UInt32} {e : ℕ} {ns : List ℕ} (h : Rising e ns) (hns : ∀ n ∈ ns, n < 2 ^ 31) :
    ((reportsFrom (.ofNat e) (ns.map fun n => (ref, some (.ofNat n)))).map fun r => r.lost.toInt).sum =
      (gaps e ns).sum := by
  induction ns generalizing e with
  | nil => rfl
  | cons n ns ih =>
    have hle := h.1
    have hlt := hns n List.mem_cons_self
    have hdiff : Int32.ofNat n - .ofNat e = .ofNat (n - e) := (Int32.ofNat_sub n e hle).symm
    have hlost : (Int32.ofNat (n - e)).toInt = (n - e : ℕ) := Int32.toInt_ofNat_of_lt (by omega)
    have hrest := ih h.2 fun n' hn' => hns n' (List.mem_cons_of_mem _ hn')
    rw [Int32.ofNat_add] at hrest
    rw [gaps, List.sum_cons, Int.natCast_add, ← hrest, ← hlost, ← hdiff]
    show ((_ ++ reportsFrom _ _).map _).sum = _
    rw [List.map_append, List.sum_append]
    congr 1
    by_cases h0 : Int32.ofNat n - .ofNat e = 0
    · simp [checkBlock, h0]
    · simp [checkBlock, h0]

section
variable {g : Generator} {dataNum : Int32} {ws : List Sending} {ref : UInt32} {mem : Text} {received : List (Text × ℕ)}
  {blocks : List Block}

/-- In blocks that each hold one of the messages that are sent, their numbers are found. -/
theorem found_messages (hsub : received.Sublist (g.generateData 0 dataNum 0 ws).zipIdx)
    (hdata : blocks.map Block.data = received.map Prod.fst) (href : ∀ b ∈ blocks, b.ref = ref) :
    found mem blocks = (received.map Prod.snd).map fun n => (ref, some (.ofNat n)) := by
  have hself : ∀ b ∈ blocks, SelfContained b.data := by
    intro b hb
    have hb' : b.data ∈ received.map Prod.fst := hdata ▸ List.mem_map_of_mem hb
    obtain ⟨m, hm, hmb⟩ := List.mem_map.mp hb'
    rw [← hmb]
    exact (sscanf_generated (hsub.subset hm)).1
  calc found mem blocks
    _ = blocks.map Block.found := found_of_selfContained hself
    _ = (blocks.map Block.data).map fun t => (ref, sscanfMessage (cString t)) := by
      rw [List.map_map]
      apply List.map_congr_left
      intro b hb
      rw [Block.found, href b hb]
      rfl
    _ = (received.map Prod.snd).map fun n => (ref, some (.ofNat n)) := by
      rw [hdata, List.map_map, List.map_map]
      apply List.map_congr_left
      intro m hm
      show (ref, sscanfMessage (cString m.1)) = _
      rw [(sscanf_generated (hsub.subset hm)).2.1]
      rfl

/-- Over a message socket, the losses that are reported are those of the messages before the last one. -/
theorem check_messages_iff (hsub : received.Sublist (g.generateData 0 dataNum 0 ws).zipIdx)
    (hdata : blocks.map Block.data = received.map Prod.fst) (href : ∀ b ∈ blocks, b.ref = ref) :
    (∃ reports, checkGeneratedData mem blocks = some reports ∧
        (reports.map fun r => r.lost.toInt).sum = missing (received.map Prod.snd)) ↔
      received = [] ∨ slot ref < mapExpectedSequenceNumbers := by
  have hempty : blocks = [] ↔ received = [] := by rw [← List.map_eq_nil_iff, hdata, List.map_eq_nil_iff]
  by_cases hslot : slot ref < mapExpectedSequenceNumbers
  · refine iff_of_true ⟨_, checkGeneratedData_single href hslot, ?_⟩ (.inr hslot)
    have hrange : (received.map Prod.snd).Sublist (List.range (g.generateData 0 dataNum 0 ws).length) := by
      have h := hsub.map Prod.snd
      rwa [List.zipIdx_map_snd, ← List.range_eq_range'] at h
    have hsmall : ∀ n ∈ received.map Prod.snd, n < 2 ^ 31 := by
      intro n hn
      obtain ⟨m, hm, rfl⟩ := List.mem_map.mp hn
      exact (sscanf_generated (hsub.subset hm)).2.2
    rw [found_messages hsub hdata href, ← gaps_sum_eq_missing hrange]
    exact @lost_sum ref 0 _ (Rising.of_sublist (List.range_eq_range' ▸ hrange)) hsmall
  · rw [or_iff_left hslot, ← hempty]
    constructor
    · rintro ⟨reports, hsome, -⟩
      by_contra hne
      rw [checkGeneratedData_eq_none href hne hslot] at hsome
      nomatch hsome
    · intro h0
      refine ⟨[], by rw [h0]; rfl, ?_⟩
      rw [hempty.mp h0]
      rfl

end

/-! ## A stream in any pieces -/

/-- The memory after some blocks are read. -/
def memAfter (mem : Text) (blocks : List Block) : Text := blocks.foldl (fun mem b => b.readInto mem) mem

/-- Nothing is printed about a block with the number that is expected, or with none. -/
theorem checkBlock_quiet_iff {e : Int32} {f : UInt32 × Option Int32} :
    (checkBlock e f).2 = [] ↔ ∀ seq, f.2 = some seq → seq = e := by
  obtain ⟨ref, n⟩ := f
  cases n with
  | none => exact iff_of_true rfl nofun
  | some seq =>
    by_cases heq : seq = e
    · simp [checkBlock, heq]
    · have hne : seq - e ≠ 0 := by
        rw [ne_eq, Int32.sub_eq_iff_eq_add, Int32.zero_add]
        exact heq
      simp [checkBlock, heq, hne]

/-- Such a block counts, whether or not a number is found in it. -/
theorem checkBlock_next {e : Int32} {f : UInt32 × Option Int32} (h : (checkBlock e f).2 = []) :
    (checkBlock e f).1 = e + 1 := by
  have hfirst := checkBlock_quiet_iff.mp h
  obtain ⟨ref, n⟩ := f
  cases n with
  | none => rfl
  | some seq => exact congrArg (· + 1) (hfirst seq rfl)

/-- Nothing is reported if and only if every number that is found is the number of the blocks before. -/
theorem reportsFrom_eq_nil_iff {e : Int32} {mem : Text} {blocks : List Block} :
    reportsFrom e (found mem blocks) = [] ↔ ∀ before b after, blocks = before ++ b :: after →
      ∀ seq, sscanfMessage (cString (b.readInto (memAfter mem before))) = some seq → seq = e + .ofNat before.length := by
  induction blocks generalizing e mem with
  | nil =>
    refine iff_of_true rfl ?_
    intro before b after h
    exact absurd h (by simp)
  | cons b blocks ih =>
    have hlength (before : List Block) : e + .ofNat (before.length + 1) = e + 1 + .ofNat before.length := by
      rw [Int32.ofNat_add, Int32.add_comm (.ofNat before.length), ← Int32.add_assoc]
      rfl
    show (checkBlock e _).2 ++ reportsFrom (checkBlock e _).1 (found (b.readInto mem) blocks) = [] ↔ _
    rw [List.append_eq_nil_iff]
    constructor
    · rintro ⟨hquiet, hrest⟩ before b' after hsplit seq hseq
      cases before with
      | nil =>
        obtain ⟨rfl, -⟩ := List.cons.inj hsplit
        rw [checkBlock_quiet_iff.mp hquiet seq hseq]
        exact (Int32.add_zero e).symm
      | cons b₀ before =>
        obtain ⟨rfl, hsplit'⟩ := List.cons.inj hsplit
        rw [checkBlock_next hquiet, ih] at hrest
        rw [List.length_cons, hlength]
        exact hrest before b' after hsplit' seq hseq
    · intro hall
      have hquiet : (checkBlock e (b.ref, sscanfMessage (cString (b.readInto mem)))).2 = [] := by
        rw [checkBlock_quiet_iff]
        intro seq hseq
        rw [hall [] b blocks rfl seq hseq]
        exact Int32.add_zero e
      refine ⟨hquiet, ?_⟩
      rw [checkBlock_next hquiet, ih]
      intro before b' after hsplit seq hseq
      rw [← hlength]
      exact hall (b :: before) b' after (by rw [hsplit]; rfl) seq hseq

/-- Where the letter that only begins messages is in a stream of them, a message begins. -/
theorem take_of_first {α : Type*} {first : α} {sent : List (List α)} {before after : List α}
    (hsent : ∀ m ∈ sent, ∃ rest, m = first :: rest ∧ first ∉ rest) (h : sent.flatten = before ++ first :: after) :
    ∃ q, before = (sent.take q).flatten := by
  induction sent generalizing before with
  | nil => exact absurd h (by simp)
  | cons m sent ih =>
    cases before with
    | nil => exact ⟨0, rfl⟩
    | cons x before =>
      obtain ⟨rest, rfl, hrest⟩ := hsent m List.mem_cons_self
      have hsplit := List.cons.inj h
      obtain rfl : first = x := hsplit.1
      -- the letter is not in the rest of this message
      rcases List.append_eq_append_iff.mp hsplit.2 with ⟨more, rfl, hmore⟩ | ⟨more, hmore, hafter⟩
      · obtain ⟨q, rfl⟩ := ih (fun m' hm' => hsent m' (List.mem_cons_of_mem _ hm')) hmore
        exact ⟨q + 1, rfl⟩
      · cases more with
        | nil =>
          refine ⟨1, ?_⟩
          rw [hmore, List.append_nil]
          exact (List.append_nil _).symm
        | cons y more =>
          obtain ⟨rfl, -⟩ := List.cons.inj hafter
          exact absurd (hmore ▸ List.mem_append_right before List.mem_cons_self) hrest

theorem generated_first {g : Generator} {dataNum : Int32} {ws : List Sending} {m : Text}
    (hm : m ∈ g.generateData 0 dataNum 0 ws) : ∃ rest, m = 'm' :: rest ∧ 'm' ∉ rest := by
  rw [← List.zipIdx_map_fst 0 (g.generateData 0 dataNum 0 ws)] at hm
  obtain ⟨p, hp, rfl⟩ := List.mem_map.mp hm
  obtain ⟨-, tries, htext⟩ := mem_generateData hp
  rw [htext, Generator.text_eq]
  refine ⟨_, rfl, ?_⟩
  intro hmem
  rcases List.mem_append.mp hmem with h | h
  · exact (g.plain _ _ _ h).1 rfl
  · exact absurd h (by decide)

/-- A number is only found in a block that begins with a message. -/
theorem begins_of_sscanf {g : Generator} {dataNum : Int32} {ws : List Sending} {mem : Text} {seq : Int32}
    {before after : List Block} {b : Block}
    (hflat : ((before ++ b :: after).map Block.data).flatten <+: (g.generateData 0 dataNum 0 ws).flatten)
    (hseq : sscanfMessage (cString (b.readInto mem)) = some seq) :
    ∃ q, (before.map Block.data).flatten = ((g.generateData 0 dataNum 0 ws).take q).flatten := by
  obtain ⟨c, data, hdata⟩ := List.exists_cons_of_ne_nil b.nonempty
  have hfirst : c = 'm' := by
    by_contra hne
    rw [sscanf_of_head] at hseq
    · nomatch hseq
    · rw [Block.readInto, hdata, cString, List.cons_append, List.takeWhile_cons]
      split
      · simpa using hne
      · simp
  obtain ⟨more, hmore⟩ := hflat
  rw [List.map_append, List.flatten_append, List.map_cons, List.flatten_cons, hdata, hfirst] at hmore
  exact take_of_first (fun m hm => generated_first hm) (by simpa using hmore.symm)

/-- A read that begins with message `q` and goes beyond its number shows this number. -/
theorem sscanf_of_long {g : Generator} {dataNum : Int32} {ws : List Sending} {mem data more : Text} {q : ℕ}
    (hdata : data ++ more = ((g.generateData 0 dataNum 0 ws).drop q).flatten) (hlong : 8 + (fmtD q).length < data.length) :
    sscanfMessage (cString (data ++ mem)) = some (.ofNat q) := by
  cases hdrop : (g.generateData 0 dataNum 0 ws).drop q with
  | nil =>
    rw [hdrop, List.flatten_nil] at hdata
    rw [(List.append_eq_nil_iff.mp hdata).1] at hlong
    exact absurd hlong (Nat.not_lt_zero _)
  | cons m rest =>
    have hm : (g.generateData 0 dataNum 0 ws)[q]? = some m := by
      rw [← List.head?_drop, hdrop]
      rfl
    have hmem : (m, q) ∈ (g.generateData 0 dataNum 0 ws).zipIdx := List.mem_zipIdx_iff_getElem?.mpr hm
    obtain ⟨hnum, tries, hmtext⟩ := mem_generateData hmem
    have hsmall : q < 2 ^ 31 := by
      have hnum : (q : ℤ) < dataNum.toInt := hnum
      have := dataNum.toInt_lt
      omega
    -- the message up to the blank behind its number
    set front : Text := 'm' :: ("essage ".toList ++ fmtD q ++ [' ']) with hfront
    have hlength : front.length = 9 + (fmtD q).length := by
      simp [front]
      omega
    have htext : ∃ u, g.text 0 q tries = front ++ u := by
      refine ⟨(g.rest tries).tail, ?_⟩
      rw [Generator.text_eq, Generator.rest, hfront]
      simp
    obtain ⟨u, htext⟩ := htext
    have hstart : front <+: data := by
      refine List.prefix_of_prefix_length_le ?_ (List.prefix_append data more) (by omega)
      have hm' : m = front ++ u ++ ['\x00'] := htext ▸ hmtext
      rw [hdata, hdrop, List.flatten_cons, hm', List.append_assoc, List.append_assoc]
      exact List.prefix_append _ _
    obtain ⟨v, rfl⟩ := hstart
    have hplain : ∀ c ∈ front, c ≠ '\x00' := by
      intro c hc
      rcases List.mem_cons.mp hc with rfl | hc
      · decide
      · rcases List.mem_append.mp hc with hc | hc
        · exact (Plain.append (by decide) (plain_fmtD q) c hc).2
        · rw [List.mem_singleton.mp hc]
          decide
    have hstring : cString (front ++ v ++ mem) = 'm' :: ("essage ".toList ++ fmtD q ++ (' ' :: cString (v ++ mem))) := by
      rw [cString, List.append_assoc, List.takeWhile_append_of_pos (by simpa using hplain), hfront]
      simp [cString]
    rw [hstring, ← intOf_natCast hsmall]
    apply sscanf_message
    intro c hc
    obtain rfl : ' ' = c := Option.some.inj hc
    decide

/-- Reads and numbers keep step: a read that begins with message `q` has `q` reads before it if it goes beyond the number,
    and else the number that it spells with the older octets behind it, if any. -/
def InStep (sent : List Text) (mem : Text) (blocks : List Block) : Prop :=
  ∀ before b after q, blocks = before ++ b :: after → (before.map Block.data).flatten = (sent.take q).flatten →
    (8 + (fmtD q).length < b.data.length → Int32.ofNat q = .ofNat before.length) ∧
    (b.data.length ≤ 8 + (fmtD q).length →
      ∀ seq, Spells (cString (b.readInto (memAfter mem before))) seq → seq = .ofNat before.length)

/-- A stream in pieces, with nothing lost. -/
theorem check_stream_iff {g : Generator} {dataNum : Int32} {ws : List Sending} {ref : UInt32} {mem : Text}
    {blocks : List Block} (hflat : (blocks.map Block.data).flatten <+: (g.generateData 0 dataNum 0 ws).flatten)
    (href : ∀ b ∈ blocks, b.ref = ref) :
    checkGeneratedData mem blocks = some [] ↔
      blocks = [] ∨ slot ref < mapExpectedSequenceNumbers ∧ InStep (g.generateData 0 dataNum 0 ws) mem blocks := by
  by_cases hslot : slot ref < mapExpectedSequenceNumbers
  · rw [checkGeneratedData_single href hslot, Option.some.injEq, reportsFrom_eq_nil_iff]
    have hlong {before after : List Block} {b : Block} {q : ℕ} (hsplit : blocks = before ++ b :: after)
        (hq : (before.map Block.data).flatten = ((g.generateData 0 dataNum 0 ws).take q).flatten)
        (hlen : 8 + (fmtD q).length < b.data.length) :
        sscanfMessage (cString (b.readInto (memAfter mem before))) = some (.ofNat q) := by
      obtain ⟨more, hmore⟩ := hflat
      have hsent : (g.generateData 0 dataNum 0 ws).flatten = ((g.generateData 0 dataNum 0 ws).take q).flatten ++
          ((g.generateData 0 dataNum 0 ws).drop q).flatten := by
        rw [← List.flatten_append, List.take_append_drop]
      rw [hsent, hsplit, List.map_append, List.flatten_append, List.map_cons, List.flatten_cons, hq, List.append_assoc,
        List.append_assoc] at hmore
      exact sscanf_of_long (List.append_cancel_left hmore) hlen
    constructor
    · intro hall
      refine .inr ⟨hslot, ?_⟩
      intro before b after q hsplit hq
      constructor
      · intro hlen
        rw [hall before b after hsplit _ (hlong hsplit hq hlen)]
        exact Int32.zero_add _
      · intro _ seq hseq
        rw [hall before b after hsplit seq (sscanfMessage_eq_some_iff.mpr hseq)]
        exact Int32.zero_add _
    · rintro (rfl | ⟨-, hstep⟩) before b after hsplit seq hseq
      · exact absurd hsplit (by simp)
      · obtain ⟨q, hq⟩ := begins_of_sscanf (hsplit ▸ hflat) hseq
        obtain ⟨hnumber, hcut⟩ := hstep before b after q hsplit hq
        rw [Int32.zero_add]
        by_cases hlen : 8 + (fmtD q).length < b.data.length
        · rw [hlong hsplit hq hlen] at hseq
          rw [← Option.some.inj hseq, hnumber hlen]
        · exact hcut (Nat.le_of_not_lt hlen) seq (sscanfMessage_eq_some_iff.mp hseq)
  · rw [and_comm, or_iff_left fun h => hslot h.2]
    constructor
    · intro hsome
      by_contra hne
      rw [checkGeneratedData_eq_none href hne hslot] at hsome
      nomatch hsome
    · rintro rfl
      rfl

/-! ## The losses that are reported -/

/-- The texts that `sprintf` puts into the sender's buffer, one for each try. -/
def Generator.formatted (g : Generator) (dataSize dataNum : Int32) : ℕ → List Sending → List Text
  | _, [] => []
  | i, w :: ws =>
    if (i : ℤ) < dataNum.toInt then
      (List.range (w.again + 1)).map (fun n => g.text dataSize i (n + 1)) ++
        if w.taken then g.formatted dataSize dataNum (i + 1) ws else []
    else []

/-- Every string that `sscanf` reads ends within the buffer. -/
def terminated (bufSize : ℕ) : Text → List Block → Bool
  | _, [] => true
  | mem, b :: rest =>
    let mem := b.readInto mem
    (mem.take bufSize).contains '\x00' && terminated bufSize mem rest

/-- A sender of numbered messages, and the buffer of its receiver. -/
structure DataRun where
  gen : Generator
  dataNum : Int32
  sendings : List Sending
  /-- the sender's `--buf_size` -/
  sendBuf : ℕ
  /-- the receiver's `--buf_size` -/
  bufSize : ℕ
  /-- the receiver's memory from its buffer on -/
  mem : Text

namespace DataRun

variable (r : DataRun)

/-- What `generate_data` sends with `data_size` 0. -/
def sent : List Text := r.gen.generateData 0 r.dataNum 0 r.sendings

/-- What the sender formats fits into its buffer, with the NUL. -/
def Fits : Prop := ∀ t ∈ r.gen.formatted 0 r.dataNum 0 r.sendings, t.length + 1 ≤ r.sendBuf

instance : Decidable r.Fits := List.decidableBAll _ _

/-- What `check_generated_data` prints about these reads; undefined where a buffer is left. -/
def reports (blocks : List Block) : Option (List Report) :=
  if r.Fits ∧ terminated r.bufSize r.mem blocks = true then checkGeneratedData r.mem blocks else none

/-- The reads from a message socket: of each message that is received, what the buffer holds. -/
structure MessageReads (ref : UInt32) (received : List (Text × ℕ)) (blocks : List Block) : Prop where
  inOrder : received.Sublist r.sent.zipIdx
  data : blocks.map Block.data = received.map fun m => m.1.take r.bufSize
  sender : ∀ b ∈ blocks, b.ref = ref

/-- The reads from a stream that loses nothing: pieces of at most the size of the buffer. -/
structure StreamReads (ref : UInt32) (blocks : List Block) : Prop where
  pieces : (blocks.map Block.data).flatten <+: r.sent.flatten
  size : ∀ b ∈ blocks, b.data.length ≤ r.bufSize
  sender : ∀ b ∈ blocks, b.ref = ref

/-- What the check is to report of `generate_data`'s messages: over a message socket, where some are lost, the number of
    those that are missing before the last one that is received; over a stream that loses nothing, nothing. -/
structure ReportsLosses (ref : UInt32) : Prop where
  messages : ∀ received blocks, r.MessageReads ref received blocks →
    ∃ reports, r.reports blocks = some reports ∧ (reports.map fun l => l.lost.toInt).sum = missing (received.map Prod.snd)
  stream : ∀ blocks, r.StreamReads ref blocks → r.reports blocks = some []

end DataRun

/-! ### Within the buffer -/

theorem terminated_of_forall {bufSize : ℕ} {mem : Text} {blocks : List Block}
    (h : ∀ b ∈ blocks, ∀ mem, '\x00' ∈ (b.readInto mem).take bufSize) : terminated bufSize mem blocks = true := by
  induction blocks generalizing mem with
  | nil => rfl
  | cons b blocks ih =>
    rw [terminated, Bool.and_eq_true]
    exact ⟨by simpa using h b List.mem_cons_self mem, ih fun b' hb' => h b' (List.mem_cons_of_mem _ hb')⟩

theorem not_terminated_of_mem {bufSize : ℕ} {mem : Text} {blocks : List Block} {b : Block} (hb : b ∈ blocks)
    (h : ∀ mem, '\x00' ∉ (b.readInto mem).take bufSize) : terminated bufSize mem blocks = false := by
  induction blocks generalizing mem with
  | nil => nomatch hb
  | cons b' blocks ih =>
    rw [terminated, Bool.and_eq_false_iff]
    rcases List.mem_cons.mp hb with rfl | hb
    · exact .inl (by simpa using h mem)
    · exact .inr (ih hb)

namespace DataRun

variable {r : DataRun} {ref : UInt32} {received : List (Text × ℕ)} {blocks : List Block}

/-- The text of a message that is sent has its only NUL at the end. -/
theorem exists_text_of_received (h : r.MessageReads ref received blocks) {m : Text × ℕ} (hm : m ∈ received) :
    ∃ t : Text, m.1 = t ++ ['\x00'] ∧ ∀ c ∈ t, c ≠ '\x00' := by
  obtain ⟨-, tries, htext⟩ := mem_generateData (h.inOrder.subset hm)
  refine ⟨_, htext, ?_⟩
  rw [Generator.text_eq]
  intro c hc
  rcases List.mem_cons.mp hc with rfl | hc
  · decide
  · exact (r.gen.plain _ _ c hc).2

/-- The strings end in the buffer if and only if the messages do. -/
theorem terminated_iff (h : r.MessageReads ref received blocks) :
    terminated r.bufSize r.mem blocks = true ↔ ∀ m ∈ received, m.1.length ≤ r.bufSize := by
  constructor
  · intro hterm m hm
    by_contra hlong
    have hblock : m.1.take r.bufSize ∈ blocks.map Block.data := h.data ▸ List.mem_map_of_mem hm
    obtain ⟨b, hb, hdata⟩ := List.mem_map.mp hblock
    obtain ⟨t, htext, hplain⟩ := exists_text_of_received h hm
    rw [not_terminated_of_mem hb] at hterm
    · cases hterm
    · intro mem hmem
      have hle : r.bufSize ≤ t.length := by
        rw [htext, List.length_append, List.length_singleton] at hlong
        omega
      rw [Block.readInto, hdata, htext, List.take_append_of_le_length hle,
        List.take_append_of_le_length (by rw [List.length_take]; omega), List.take_take, Nat.min_self] at hmem
      exact hplain _ (List.mem_of_mem_take hmem) rfl
  · intro hfit
    apply terminated_of_forall
    intro b hb mem
    have hdata : b.data ∈ received.map fun m => m.1.take r.bufSize := h.data ▸ List.mem_map_of_mem hb
    obtain ⟨m, hm, hmb⟩ := List.mem_map.mp hdata
    obtain ⟨t, htext, -⟩ := exists_text_of_received h hm
    rw [List.take_of_length_le (hfit m hm)] at hmb
    rw [Block.readInto, List.take_append, ← hmb, List.take_of_length_le (hfit m hm), htext]
    simp

/-- **When the data check reports exactly the losses** of one sender's messages. The texts fit into the sender's buffer,
    and over a message socket nothing is received, or the remainder of the sender's port is not 255 and the messages that
    are received fit into the receiver's buffer; over a stream nothing is read, or the remainder is not 255, every string
    ends in the buffer, and reads and numbers keep step. -/
theorem data_check_iff (r : DataRun) (ref : UInt32) :
    (∀ received blocks, r.MessageReads ref received blocks →
      ((∃ reports, r.reports blocks = some reports ∧
        (reports.map fun l => l.lost.toInt).sum = missing (received.map Prod.snd)) ↔
      r.Fits ∧ (received = [] ∨ slot ref < mapExpectedSequenceNumbers ∧ ∀ m ∈ received, m.1.length ≤ r.bufSize))) ∧
    (∀ blocks, r.StreamReads ref blocks →
      (r.reports blocks = some [] ↔ r.Fits ∧ (blocks = [] ∨ slot ref < mapExpectedSequenceNumbers ∧
        terminated r.bufSize r.mem blocks = true ∧ InStep r.sent r.mem blocks))) := by
  constructor
  · intro received blocks h
    by_cases hfits : r.Fits
    · by_cases hshort : ∀ m ∈ received, m.1.length ≤ r.bufSize
      · have hwhole : blocks.map Block.data = received.map Prod.fst := by
          rw [h.data]
          exact List.map_congr_left fun m hm => List.take_of_length_le (hshort m hm)
        rw [reports, if_pos ⟨hfits, (terminated_iff h).mpr hshort⟩, check_messages_iff h.inOrder hwhole h.sender]
        simp only [hfits, true_and]
        exact or_congr_right ⟨fun hslot => ⟨hslot, hshort⟩, And.left⟩
      · have hterm : ¬ terminated r.bufSize r.mem blocks = true := mt (terminated_iff h).mp hshort
        rw [reports, if_neg fun hboth => hterm hboth.2]
        refine iff_of_false nofun ?_
        rintro ⟨-, rfl | ⟨-, hall⟩⟩
        · exact hshort nofun
        · exact hshort hall
    · rw [reports, if_neg fun hboth => hfits hboth.1]
      exact iff_of_false nofun fun h => hfits h.1
  · intro blocks h
    by_cases hboth : r.Fits ∧ terminated r.bufSize r.mem blocks = true
    · rw [reports, if_pos hboth]
      simp only [hboth.1, hboth.2, true_and]
      exact check_stream_iff h.pieces h.sender
    · rw [reports, if_neg hboth]
      refine iff_of_false nofun ?_
      rintro ⟨hfits, rfl | ⟨-, hterm, -⟩⟩
      · exact hboth ⟨hfits, rfl⟩
      · exact hboth ⟨hfits, hterm⟩

end DataRun

/-- Three messages, and buffers of the default size. -/
def threeMessages : DataRun where
  gen := ⟨0x1001001, 77, 0xabc⟩
  dataNum := 3
  sendings := [⟨0, true⟩, ⟨0, true⟩, ⟨0, true⟩]
  sendBuf := 66000
  bufSize := 66000
  mem := []

/-- The second of three messages is lost. -/
theorem data_check_iff_three :
    ∃ reports, threeMessages.reports [⟨7, "message 0 try 1 1001001 77 abc\n\x00".toList, by decide⟩,
        ⟨7, "message 2 try 1 1001001 77 abc\n\x00".toList, by decide⟩] = some reports ∧
      (reports.map fun l => l.lost.toInt).sum = 1 := by
  have hreads : threeMessages.MessageReads 7 [("message 0 try 1 1001001 77 abc\n\x00".toList, 0),
      ("message 2 try 1 1001001 77 abc\n\x00".toList, 2)] [⟨7, "message 0 try 1 1001001 77 abc\n\x00".toList, by decide⟩,
        ⟨7, "message 2 try 1 1001001 77 abc\n\x00".toList, by decide⟩] := ⟨by decide, by decide, by decide⟩
  exact ((DataRun.data_check_iff threeMessages 7).1 _ _ hreads).mpr ⟨by decide, .inr ⟨by decide, by decide⟩⟩

/-- **Losses that are none:** a block of a stream that holds two messages counts as one. -/
theorem data_check_reports_no_loss : ¬ ∀ (r : DataRun) (ref : UInt32), r.ReportsLosses ref := by
  intro h
  have hstream := (h threeMessages 7).stream
    [⟨7, "message 0 try 1 1001001 77 abc\n\x00message 1 try 1 1001001 77 abc\n\x00".toList, by decide⟩,
      ⟨7, "message 2 try 1 1001001 77 abc\n\x00".toList, by decide⟩] ⟨by decide, by decide, by decide⟩
  exact absurd hstream (by decide)

end Pipe
end Tipcutils
