import Mathlib.Data.Set.Function
import Tipcutils.Pipe.DataCheck

/-!
# `Pipe.Senders` — the data check with several senders

The table of expected numbers has 255 entries, and a port's entry is the remainder of its reference by 256.
**`keepsApart_iff`** says for which senders the check stays inside the table and reports about each of them without regard
to the others: no port has the remainder 255, no two ports have the same one, and no message leaves its number to what the
buffer has held before. What `generate_data` sends is of this kind.
-/

namespace Tipcutils
namespace Pipe

open Decimal

/-! ## Senders and their messages -/

/-- What a sender sends: messages of `generate_data`, whatever its options, or some others. -/
def Sent (others : Set Text) (t : Text) : Prop :=
  (∃ (g : Generator) (dataSize dataNum : Int32) (ws : List Sending), t ∈ g.generateData dataSize dataNum 0 ws) ∨
    t ∈ others

/-- All blocks are messages of these senders. -/
def FromSenders (senders : Set UInt32) (others : Set Text) (blocks : List Block) : Prop :=
  ∀ b ∈ blocks, b.ref ∈ senders ∧ Sent others b.data

/-- The blocks of one sender, and the reports about it. -/
def blocksOf (ref : UInt32) (blocks : List Block) : List Block := blocks.filter (·.ref = ref)

def reportsOn (ref : UInt32) (reports : List Report) : List Report := reports.filter (·.ref = ref)

/-- The check keeps the senders apart: it stays inside its table, and what it reports about a sender is the same in any
    two runs in which this sender's messages arrive in the same order. -/
structure KeepsApart (senders : Set UInt32) (others : Set Text) : Prop where
  inside : ∀ mem blocks, FromSenders senders others blocks → (checkGeneratedData mem blocks).isSome
  apart : ∀ mem mem' blocks blocks' ref reports reports',
    FromSenders senders others blocks → FromSenders senders others blocks' → blocksOf ref blocks = blocksOf ref blocks' →
    checkGeneratedData mem blocks = some reports → checkGeneratedData mem' blocks' = some reports' →
    reportsOn ref reports = reportsOn ref reports'

/-! ## Messages without a rest of others -/

theorem fmtZero_ne_nul {width : ℤ} {c : Char} (hc : c ∈ fmtZero width) : c ≠ '\x00' := by
  rintro rfl
  unfold fmtZero at hc
  split at hc
  · rcases List.mem_append.mp hc with h | h
    · exact absurd (List.eq_of_mem_replicate h) (by decide)
    · exact absurd h (by decide)
  · rcases List.mem_cons.mp hc with h | h
    · exact absurd h (by decide)
    · exact absurd (List.eq_of_mem_replicate h) (by decide)

theorem Generator.text_ne_nul {g : Generator} {dataSize : Int32} {i tries : ℕ} {c : Char}
    (hc : c ∈ g.text dataSize i tries) : c ≠ '\x00' := by
  by_cases h0 : dataSize = 0
  · rw [h0, Generator.text_eq] at hc
    rcases List.mem_cons.mp hc with rfl | hc
    · decide
    · exact (g.plain _ _ c hc).2
  · rw [Generator.text, if_pos h0] at hc
    rcases List.mem_append.mp hc with h | h
    · exact fmtZero_ne_nul h
    · rw [List.mem_singleton.mp h]
      decide

/-- **What `generate_data` sends does not depend on the buffer.** -/
theorem selfContained_generated {g : Generator} {dataSize dataNum : Int32} {ws : List Sending} {t : Text}
    (ht : t ∈ g.generateData dataSize dataNum 0 ws) : SelfContained t := by
  rw [← List.zipIdx_map_fst 0 (g.generateData dataSize dataNum 0 ws)] at ht
  obtain ⟨m, hm, rfl⟩ := List.mem_map.mp ht
  obtain ⟨-, tries, htext⟩ := mem_generateData hm
  rw [htext]
  exact selfContained_of_nul fun c hc => Generator.text_ne_nul hc

theorem Sent.selfContained {others : Set Text} {b : Block} (h : Sent others b.data)
    (hothers : ∀ t ∈ others, t ≠ [] → SelfContained t) : SelfContained b.data := by
  rcases h with ⟨g, dataSize, dataNum, ws, ht⟩ | ht
  · exact selfContained_generated ht
  · exact hothers _ ht b.nonempty

/-! ## Where the senders are kept apart -/

section
variable {senders : Set UInt32} {others : Set Text} {ref : UInt32}

/-- What is printed about a block names its port. -/
theorem ref_of_mem_checkBlock {e : Int32} {f : UInt32 × Option Int32} {r : Report} (hr : r ∈ (checkBlock e f).2) :
    r.ref = f.1 := by
  obtain ⟨ref, n⟩ := f
  cases n with
  | none => exact absurd hr List.not_mem_nil
  | some seq =>
    rw [checkBlock] at hr
    split at hr
    · rw [List.mem_singleton.mp hr]
    · exact absurd hr List.not_mem_nil

theorem ref_of_mem_run {table : ℕ → Int32} {fs : List (UInt32 × Option Int32)} {p : (UInt32 × Option Int32) × List Report}
    (hp : p ∈ Slots.run (fun f => slot f.1) checkBlock table fs) : p.1 ∈ fs ∧ ∀ r ∈ p.2, r.ref = p.1.1 := by
  induction fs generalizing table with
  | nil => nomatch hp
  | cons f fs ih =>
    rcases List.mem_cons.mp hp with rfl | hp
    · exact ⟨List.mem_cons_self, fun r hr => ref_of_mem_checkBlock hr⟩
    · obtain ⟨hmem, href⟩ := ih hp
      exact ⟨List.mem_cons_of_mem _ hmem, href⟩

/-- The reports about a sender are those of its blocks. -/
theorem reportsOn_flatMap {ps : List ((UInt32 × Option Int32) × List Report)} (h : ∀ p ∈ ps, ∀ r ∈ p.2, r.ref = p.1.1) :
    reportsOn ref (ps.flatMap Prod.snd) = (ps.filter fun p => p.1.1 = ref).flatMap Prod.snd := by
  induction ps with
  | nil => rfl
  | cons p ps ih =>
    have hrest := ih fun p' hp' => h p' (List.mem_cons_of_mem _ hp')
    have hhead := h p List.mem_cons_self
    rw [reportsOn] at hrest
    rw [reportsOn, List.flatMap_cons, List.filter_append, hrest]
    by_cases hp : p.1.1 = ref
    · have hall : p.2.filter (·.ref = ref) = p.2 := List.filter_eq_self.mpr fun r hr => by simp [hhead r hr, hp]
      rw [hall, List.filter_cons_of_pos (by simp [hp]), List.flatMap_cons]
    · have hnone : p.2.filter (·.ref = ref) = [] := List.filter_eq_nil_iff.mpr fun r hr => by simp [hhead r hr, hp]
      rw [hnone, List.filter_cons_of_neg (by simp [hp]), List.nil_append]

/-- The blocks of a port have a record of their own where its remainder stands for it. -/
theorem run_filter_ref {blocks : List Block} (hkey : ∀ b ∈ blocks, slot b.ref = slot ref ↔ b.ref = ref) :
    (Slots.run (fun f => slot f.1) checkBlock (fun _ => 0) (blocks.map Block.found)).filter (fun p => p.1.1 = ref) =
      Slots.single checkBlock 0 ((blocksOf ref blocks).map Block.found) := by
  have hport : ∀ p ∈ Slots.run (fun f => slot f.1) checkBlock (fun _ => 0) (blocks.map Block.found),
      slot p.1.1 = slot ref ↔ p.1.1 = ref := by
    intro p hp
    obtain ⟨b, hb, hbp⟩ := List.mem_map.mp (ref_of_mem_run hp).1
    rw [← hbp]
    exact hkey b hb
  calc (Slots.run (fun f => slot f.1) checkBlock (fun _ => 0) (blocks.map Block.found)).filter (fun p => p.1.1 = ref)
    _ = (Slots.run (fun f => slot f.1) checkBlock (fun _ => 0) (blocks.map Block.found)).filter
        (fun p => slot p.1.1 = slot ref) := by
      apply List.filter_congr
      intro p hp
      exact decide_eq_decide.mpr (hport p hp).symm
    _ = Slots.single checkBlock 0 ((blocks.map Block.found).filter fun f => slot f.1 = slot ref) :=
      Slots.run_filter (fun f : UInt32 × Option Int32 => slot f.1) checkBlock (fun _ => 0) _ (slot ref)
    _ = Slots.single checkBlock 0 ((blocksOf ref blocks).map Block.found) := by
      rw [List.filter_map, blocksOf]
      congr 2
      apply List.filter_congr
      intro b hb
      exact decide_eq_decide.mpr (hkey b hb)

/-- **Each sender has a record of its own**, where no two ports have the same remainder. -/
theorem reportsOn_eq {mem : Text} {blocks : List Block} {reports : List Report}
    (hslot : ∀ r ∈ senders, slot r < mapExpectedSequenceNumbers) (hinj : Set.InjOn slot senders)
    (hothers : ∀ r ∈ senders, ∀ t ∈ others, t ≠ [] → SelfContained t) (hblocks : FromSenders senders others blocks)
    (href : ref ∈ senders) (hsome : checkGeneratedData mem blocks = some reports) :
    reportsOn ref reports = reportsFrom 0 ((blocksOf ref blocks).map Block.found) := by
  rw [checkGeneratedData, checkLoop_eq fun b hb => hslot _ (hblocks b hb).1, Option.some.injEq] at hsome
  rw [← hsome, reportsOn_flatMap fun p hp => (ref_of_mem_run hp).2, reportsFrom,
    found_of_selfContained fun b hb => (hblocks b hb).2.selfContained (hothers _ (hblocks b hb).1),
    run_filter_ref fun b hb => hinj.eq_iff (hblocks b hb).1 href]

/-- Nothing is reported about others. -/
theorem reportsOn_eq_nil {mem : Text} {blocks : List Block} {reports : List Report}
    (hslot : ∀ r ∈ senders, slot r < mapExpectedSequenceNumbers) (hblocks : FromSenders senders others blocks)
    (href : ref ∉ senders) (hsome : checkGeneratedData mem blocks = some reports) : reportsOn ref reports = [] := by
  rw [checkGeneratedData, checkLoop_eq fun b hb => hslot _ (hblocks b hb).1, Option.some.injEq] at hsome
  rw [← hsome, reportsOn, List.filter_eq_nil_iff]
  intro r hr heq
  obtain ⟨p, hp, hrp⟩ := List.mem_flatMap.mp hr
  obtain ⟨hmem, hrefs⟩ := ref_of_mem_run hp
  obtain ⟨b, hb, hbp⟩ := ref_of_mem_found hmem
  rw [decide_eq_true_eq, hrefs r hrp, ← hbp] at heq
  exact href (heq ▸ (hblocks b hb).1)

theorem keepsApart_of_injOn (hslot : ∀ r ∈ senders, slot r < mapExpectedSequenceNumbers) (hinj : Set.InjOn slot senders)
    (hothers : ∀ r ∈ senders, ∀ t ∈ others, t ≠ [] → SelfContained t) : KeepsApart senders others := by
  constructor
  · intro mem blocks hblocks
    rw [checkGeneratedData, checkLoop_eq fun b hb => hslot _ (hblocks b hb).1]
    rfl
  · intro mem mem' blocks blocks' ref reports reports' hblocks hblocks' hsame hsome hsome'
    by_cases href : ref ∈ senders
    · rw [reportsOn_eq hslot hinj hothers hblocks href hsome, reportsOn_eq hslot hinj hothers hblocks' href hsome', hsame]
    · rw [reportsOn_eq_nil hslot hblocks href hsome, reportsOn_eq_nil hslot hblocks' href hsome']

/-! ## Where they are not -/

/-- The first message of a generator. -/
def firstMessage : Text := (Generator.mk 0 0 0).text 0 0 1 ++ ['\x00']

theorem firstMessage_generated : (Generator.mk 0 0 0).generateData 0 1 0 [⟨0, true⟩] = [firstMessage] := rfl

theorem sent_firstMessage : Sent others firstMessage :=
  .inl ⟨⟨0, 0, 0⟩, 0, 1, [⟨0, true⟩], by rw [firstMessage_generated]; exact List.mem_singleton_self _⟩

/-- The block of the first message from a port. -/
def firstFrom (ref : UInt32) : Block := ⟨ref, firstMessage, nofun⟩

theorem found_firstFrom (mem : Text) (refs : List UInt32) :
    found mem (refs.map firstFrom) = refs.map fun ref => (ref, some 0) := by
  have hmem : (firstMessage, 0) ∈ ((Generator.mk 0 0 0).generateData 0 1 0 [⟨0, true⟩]).zipIdx := by
    rw [firstMessage_generated]
    exact List.mem_singleton_self _
  obtain ⟨hself, hnum, -⟩ := sscanf_generated hmem
  have hall : ∀ b ∈ refs.map firstFrom, SelfContained b.data := by
    intro b hb
    obtain ⟨ref, -, rfl⟩ := List.mem_map.mp hb
    exact hself
  rw [found_of_selfContained hall, List.map_map]
  apply List.map_congr_left
  intro ref _
  show (ref, sscanfMessage (cString firstMessage)) = _
  rw [hnum]
  rfl

theorem fromSenders_firstFrom {refs : List UInt32} (h : ∀ ref ∈ refs, ref ∈ senders) :
    FromSenders senders others (refs.map firstFrom) := by
  intro b hb
  obtain ⟨ref, href, rfl⟩ := List.mem_map.mp hb
  exact ⟨h ref href, sent_firstMessage⟩

/-- A port whose remainder is 255 has no entry. -/
theorem KeepsApart.slot_lt (h : KeepsApart senders others) (href : ref ∈ senders) :
    slot ref < mapExpectedSequenceNumbers := by
  by_contra hslot
  have hsome := h.inside [] ([ref].map firstFrom) (fromSenders_firstFrom (by simpa using href))
  rw [checkGeneratedData, checkLoop_eq_none (List.mem_map_of_mem (List.mem_singleton_self ref)) hslot] at hsome
  cases hsome

/-- Two ports with the same remainder share an entry. -/
theorem KeepsApart.injOn (h : KeepsApart senders others) : Set.InjOn slot senders := by
  intro ref href ref' href' heq
  by_contra hne
  have hslot := h.slot_lt href
  have hone : checkGeneratedData [] ([ref].map firstFrom) = some [] := by
    rw [checkGeneratedData, checkLoop_eq (by simpa [firstFrom] using hslot), found_firstFrom]
    simp [Slots.run, checkBlock]
  have htwo : checkGeneratedData [] ([ref', ref].map firstFrom) = some [⟨1, -1, ref⟩] := by
    rw [checkGeneratedData, checkLoop_eq (by simpa [firstFrom] using ⟨heq ▸ hslot, hslot⟩), found_firstFrom]
    simp [Slots.run, checkBlock, heq]
  have hsame : blocksOf ref ([ref].map firstFrom) = blocksOf ref ([ref', ref].map firstFrom) := by
    simp [blocksOf, firstFrom, Ne.symm hne]
  have heqs := h.apart [] [] _ _ ref _ _ (fromSenders_firstFrom (by simpa using href))
    (fromSenders_firstFrom (by simpa using ⟨href', href⟩)) hsame hone htwo
  simp [reportsOn] at heqs

theorem reportsOn_reportsFrom {e : Int32} {fs : List (UInt32 × Option Int32)} (h : ∀ f ∈ fs, f.1 = ref) :
    reportsOn ref (reportsFrom e fs) = reportsFrom e fs := by
  rw [reportsOn, List.filter_eq_self]
  intro r hr
  rw [decide_eq_true_eq]
  induction fs generalizing e with
  | nil => nomatch hr
  | cons f fs ih =>
    rcases List.mem_append.mp hr with hr | hr
    · rw [ref_of_mem_checkBlock hr, h f List.mem_cons_self]
    · exact ih (fun f' hf' => h f' (List.mem_cons_of_mem _ hf')) hr

/-- The last line about a message that is received twice names its number. -/
theorem getLast?_reportsFrom (f : Option Int32) :
    ((reportsFrom 0 [(ref, f), (ref, f)]).getLast?.map Report.expected) = f.map (· + 1) := by
  cases f with
  | none => rfl
  | some seq =>
    have hlast : seq - (seq + 1) ≠ 0 := by
      rw [ne_eq, Int32.sub_eq_iff_eq_add, Int32.zero_add]
      intro heq
      exact absurd (Int32.add_eq_left.mp heq.symm) (by decide)
    simp [reportsFrom, Slots.single, checkBlock, hlast]

/-- A message that leaves its number to the rest of another is reported about by what the buffer has held. -/
theorem KeepsApart.selfContained (h : KeepsApart senders others) (href : ref ∈ senders) {t : Text} (ht : t ∈ others)
    (hne : t ≠ []) : SelfContained t := by
  intro mem
  have hslot := h.slot_lt href
  have hblocks : FromSenders senders others [⟨ref, t, hne⟩, ⟨ref, t, hne⟩] := by
    intro b hb
    rcases List.mem_pair.mp hb with rfl | rfl <;> exact ⟨href, .inr ht⟩
  have hrefs : ∀ b ∈ [Block.mk ref t hne, ⟨ref, t, hne⟩], b.ref = ref := by
    intro b hb
    rcases List.mem_pair.mp hb with rfl | rfl <;> rfl
  -- the message, twice, with this rest behind it
  have hread (rest : Text) : found (List.replicate t.length ' ' ++ rest) [⟨ref, t, hne⟩, ⟨ref, t, hne⟩] =
      [(ref, sscanfMessage (cString (t ++ rest))), (ref, sscanfMessage (cString (t ++ rest)))] := by
    have hfirst : (Block.mk ref t hne).readInto (List.replicate t.length ' ' ++ rest) = t ++ rest := by
      rw [Block.readInto, List.drop_left' List.length_replicate]
    have hagain : (Block.mk ref t hne).readInto (t ++ rest) = t ++ rest := by
      rw [Block.readInto, List.drop_left]
    rw [found, found, found, hfirst, hagain]
  have hreports (rest : Text) : checkGeneratedData (List.replicate t.length ' ' ++ rest) [⟨ref, t, hne⟩, ⟨ref, t, hne⟩] =
      some (reportsFrom 0 [(ref, sscanfMessage (cString (t ++ rest))), (ref, sscanfMessage (cString (t ++ rest)))]) := by
    rw [checkGeneratedData_single hrefs hslot, hread]
  have hsame := h.apart _ _ _ _ ref _ _ hblocks hblocks rfl (hreports mem) (hreports [])
  have hrefs' (f : Option Int32) : ∀ g ∈ [(ref, f), (ref, f)], g.1 = ref := by simp
  rw [reportsOn_reportsFrom (hrefs' _), reportsOn_reportsFrom (hrefs' _)] at hsame
  have hlast := congrArg (fun l => l.getLast?.map Report.expected) hsame
  simp only [getLast?_reportsFrom, List.append_nil] at hlast
  exact Option.map_injective (fun a b hab => (Int32.add_left_inj 1).mp hab) hlast

end

/-- **When the data check keeps senders apart**, which send messages of `generate_data` and perhaps others: where no port
    has the remainder 255, no two ports have the same one, and the number that is found in a message does not depend on
    what the buffer has held. -/
theorem keepsApart_iff (senders : Set UInt32) (others : Set Text) :
    KeepsApart senders others ↔ (∀ ref ∈ senders, slot ref < mapExpectedSequenceNumbers) ∧ Set.InjOn slot senders ∧
      (∀ ref ∈ senders, ∀ t ∈ others, t ≠ [] → SelfContained t) := by
  constructor
  · intro h
    exact ⟨fun ref href => h.slot_lt href, h.injOn, fun ref href t ht hne => h.selfContained href ht hne⟩
  · rintro ⟨hslot, hinj, hothers⟩
    exact keepsApart_of_injOn hslot hinj hothers

/-- **Senders that are not kept apart:** the port 255 has no entry in the table, and the ports 1 and 257 share one. -/
theorem not_keepsApart : ¬ KeepsApart {255} ∅ ∧ ¬ KeepsApart {1, 257} ∅ := by
  constructor
  · intro h
    exact absurd (h.slot_lt rfl) (by decide)
  · intro h
    exact absurd (h.injOn (.inl rfl) (.inr rfl) rfl) (by decide)

end Pipe
end Tipcutils
