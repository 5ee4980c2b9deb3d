import Tipcutils.Stream.Server

/-!
# `Stream.Language` — which streams the server accepts

The server should accept the concatenations of whole records and nothing else, and never ask `recv` for more than
`inbuf` can hold. **`acceptsRecords_iff`** says for which streams it does: behind the whole records, the rest must not
have a length above `MAX_REC_SIZE`, and a header that is cut short must not be completed to the length 0 by what the
last record left in `inbuf`.
-/

namespace Tipcutils
namespace Stream

/-! ## The language -/

theorem ofBe32_record (r : UInt8) (rest : Octets) : ofBe32 (record r ++ rest) = r.toUInt32 := by
  rw [record, List.append_assoc, ofBe32_be32]

theorem four_le_length_record (r : UInt8) (rest : Octets) : 4 ≤ (record r ++ rest).length := by
  rw [record, List.append_assoc, List.length_append, length_be32]
  exact Nat.le_add_right _ _

/-- A record shows where it ends. -/
theorem record_append_inj {r r' : UInt8} {x y : Octets} (h : record r ++ x = record r' ++ y) : r = r' ∧ x = y := by
  have hword : r.toUInt32 = r'.toUInt32 := by rw [← ofBe32_record r x, ← ofBe32_record r' y, h]
  have hr : r = r' := by
    apply UInt8.toNat_inj.mp
    rw [← UInt8.toNat_toUInt32 r, ← UInt8.toNat_toUInt32 r', hword]
  subst hr
  exact ⟨rfl, List.append_cancel_left h⟩

theorem records_append (rs rs' : List UInt8) : records (rs ++ rs') = records rs ++ records rs' := by
  rw [records, List.flatMap_append]
  rfl

/-- The shorter of two sequences of records is the start of the longer one. -/
theorem records_append_eq {rs rs' : List UInt8} {x y : Octets} (h : records rs ++ x = records rs' ++ y)
    (hle : rs.length ≤ rs'.length) : ∃ rs'', rs' = rs ++ rs'' ∧ x = records rs'' ++ y := by
  induction rs generalizing rs' with
  | nil => exact ⟨rs', rfl, h⟩
  | cons r rs ih =>
    cases rs' with
    | nil => exact absurd hle (Nat.not_succ_le_zero _)
    | cons r' rs' =>
      have hcons : record r ++ (records rs ++ x) = record r' ++ (records rs' ++ y) := by
        rw [← List.append_assoc, ← List.append_assoc]
        exact h
      obtain ⟨rfl, hrest⟩ := record_append_inj hcons
      obtain ⟨rs'', rfl, hx⟩ := ih hrest (Nat.le_of_succ_le_succ hle)
      exact ⟨rs'', rfl, hx⟩

theorem records_eq_nil {rs : List UInt8} {x : Octets} (h : records rs ++ x = []) : rs = [] := by
  have hle := four_mul_length_le rs
  rw [(List.append_eq_nil_iff.mp h).1, List.length_nil] at hle
  exact List.length_eq_zero_iff.mp (by omega)

/-- The calls of the first `k` rounds succeed, and the one that finds the next header. -/
def NoneFails (calls : ℕ → Calls) (k : ℕ) : Prop := (∀ i < k, calls i = allSucceed) ∧ (calls k).header = true

/-- The server ends normally after `k` acknowledgements exactly where no call fails and the stream is `k` records; what
    it acknowledges are whole records of the stream; and it never asks for too much. -/
structure AcceptsRecords (calls : ℕ → Calls) (stream : Octets) (s : Server) : Prop where
  language : ∀ k, s.ending = some .normal ∧ s.acks = k ↔
    NoneFails calls k ∧ ∃ rs : List UInt8, rs.length = k ∧ stream = records rs
  acked : ∃ (rs : List UInt8) (rest : Octets), rs.length = s.acks ∧ stream = records rs ++ rest
  asked : ∀ n ∈ s.asked, n ≤ maxRecSize

/-- The length in the header that follows the records `rs`, completed by what is left in `inbuf`. -/
def headerAt (inbuf : Octets) (rs : List UInt8) (tail : Octets) : ℕ :=
  (ofBe32 (overlay maxRecSize (afterRecords inbuf rs) (tail.take 4))).toNat

/-- Wherever the server gets to a header, the length is not too large; and it is not 0 where the header is cut short,
    unless a call fails. -/
def HoldsWhen (calls : ℕ → Calls) (inbuf stream : Octets) : Prop :=
  ∀ (rs : List UInt8) (tail : Octets), stream = records rs ++ tail → tail ≠ [] → NoneFails calls rs.length →
    headerAt inbuf rs tail ≤ maxRecSize ∧
      (tail.length < 4 → headerAt inbuf rs tail = 0 → (calls rs.length).data = true → (calls rs.length).ack = false)

/-! ## While the server goes on -/

variable {host : Endian} {calls : ℕ → Calls} {inbuf stream : Octets} {s s' : Server} {rs : List UInt8}

/-- The records `rs` have been received and acknowledged. -/
structure Received (calls : ℕ → Calls) (inbuf stream : Octets) (s : Server) (rs : List UInt8) : Prop where
  ending : s.ending = none
  stream : stream = records rs ++ s.stream
  inbuf : s.inbuf = afterRecords inbuf rs
  recNum : s.recNum = rs.length
  acks : s.acks = rs.length
  calls : ∀ i < rs.length, calls i = allSucceed
  asked : ∀ n ∈ s.asked, n ≤ maxRecSize

theorem received_start : Received calls inbuf stream (.start inbuf stream) [] :=
  ⟨rfl, rfl, rfl, rfl, rfl, fun _ h => absurd h (Nat.not_lt_zero _), nofun⟩

/-- The server has ended, as it should. -/
def EndsRight (calls : ℕ → Calls) (stream : Octets) (s : Server) : Prop :=
  s.goesOn = false ∧ AcceptsRecords calls stream s

/-- What has been received is the start of any reading of the stream. -/
theorem Received.extends (h : Received calls inbuf stream s rs) {rs' : List UInt8} (heq : stream = records rs') :
    ∃ rs'', rs' = rs ++ rs'' ∧ s.stream = records rs'' := by
  have hstream : records rs ++ s.stream = records rs' ++ [] := by rw [← h.stream, heq, List.append_nil]
  -- a record is no proper start of another, so one reading continues the other
  rcases Nat.le_total rs.length rs'.length with hle | hle
  · obtain ⟨rs'', hrs, hrest⟩ := records_append_eq hstream hle
    exact ⟨rs'', hrs, by rw [hrest, List.append_nil]⟩
  · obtain ⟨rs'', rfl, hnil⟩ := records_append_eq hstream.symm hle
    obtain rfl := records_eq_nil hnil.symm
    refine ⟨[], by simp, ?_⟩
    have hrest : [] = s.stream := hnil
    exact hrest.symm

/-- An error is right where a call fails, and where what follows is not a record. -/
theorem Received.refuse (h : Received calls inbuf stream s rs) {e : Ending} (he : s'.ending = some e) (hne : e ≠ .normal)
    (hacks : s'.acks = s.acks) (hasked : ∀ n ∈ s'.asked, n ≤ maxRecSize)
    (hstop : (calls rs.length).header = true →
      s.stream ≠ [] ∧ (calls rs.length = allSucceed → ∀ r rest, s.stream ≠ record r ++ rest)) :
    EndsRight calls stream s' := by
  refine ⟨by rw [Server.goesOn, he]; rfl, fun k => ⟨?_, ?_⟩, ⟨rs, s.stream, by rw [hacks, h.acks], h.stream⟩, hasked⟩
  · rintro ⟨hnormal, -⟩
    rw [he] at hnormal
    exact absurd (Option.some.inj hnormal) hne
  · rintro ⟨⟨hcalls, hhead⟩, rs', rfl, hrs'⟩
    obtain ⟨rs'', rfl, hrest⟩ := h.extends hrs'
    cases rs'' with
    | nil =>
      rw [List.append_nil] at hhead
      exact absurd hrest (hstop hhead).1
    | cons r rs'' =>
      have hall : calls rs.length = allSucceed := hcalls _ (by rw [List.length_append, List.length_cons]; omega)
      exact absurd hrest ((hstop (by rw [hall]; rfl)).2 hall r (records rs''))

/-- The round that receives a record. -/
theorem Received.record (h : Received calls inbuf stream s rs) {r : UInt8} {rest : Octets}
    (hs : s.stream = record r ++ rest) (hcalls : calls rs.length = allSucceed) :
    Received calls inbuf stream (s.round host (calls s.recNum)) (rs ++ [r]) := by
  have hlen : (rs ++ [r]).length = rs.length + 1 := by rw [List.length_append]; rfl
  have hbyte := r.toNat_lt
  rw [h.recNum, hcalls, round_record h.ending hs]
  refine ⟨h.ending, ?_, ?_, ?_, ?_, ?_, ?_⟩
  · rw [records_append, List.append_assoc]
    show stream = records rs ++ (records [r] ++ rest)
    rw [h.stream, hs]
    simp [records]
  · show afterRecord s.inbuf r = _
    rw [h.inbuf, afterRecords, afterRecords, List.foldl_append]
    rfl
  · rw [hlen, ← h.recNum]
    rfl
  · rw [hlen, ← h.acks]
    rfl
  · intro i hi
    rw [hlen] at hi
    rcases Nat.lt_succ_iff_lt_or_eq.mp hi with hlt | rfl
    · exact h.calls i hlt
    · exact hcalls
  · intro n hn
    rcases List.mem_append.mp hn with hn | hn
    · rcases List.mem_append.mp hn with hn | hn
      · exact h.asked n hn
      · rw [List.mem_singleton.mp hn]
        decide
    · rw [List.mem_singleton.mp hn]
      show _ ≤ 256
      omega

/-- What `recv` is asked for in a round. -/
theorem Received.asked_append (h : Received calls inbuf stream s rs) {l : List ℕ} (hl : ∀ n ∈ l, n ≤ maxRecSize) :
    ∀ n ∈ s.asked ++ l, n ≤ maxRecSize := by
  intro n hn
  rcases List.mem_append.mp hn with hn | hn
  · exact h.asked n hn
  · exact hl n hn

/-- The round that finds the end of the stream. -/
theorem Received.finish (h : Received calls inbuf stream s rs) (hs : s.stream = [])
    (hh : (calls rs.length).header = true) (hnormal : s'.ending = some .normal) (hacks : s'.acks = s.acks)
    (hasked : ∀ n ∈ s'.asked, n ≤ maxRecSize) : EndsRight calls stream s' := by
  have hall : stream = records rs := by rw [h.stream, hs, List.append_nil]
  have hacked : stream = records rs ++ [] := by rw [hall, List.append_nil]
  refine ⟨by rw [Server.goesOn, hnormal]; rfl, fun k => ⟨?_, ?_⟩, ⟨rs, [], by rw [hacks, h.acks], hacked⟩, hasked⟩
  · rintro ⟨-, rfl⟩
    rw [hacks, h.acks]
    exact ⟨⟨h.calls, hh⟩, rs, rfl, hall⟩
  · rintro ⟨-, rs', rfl, hrs'⟩
    obtain ⟨rs'', rfl, hrest⟩ := h.extends hrs'
    have hnil : rs'' = [] := records_eq_nil (x := []) (by rw [List.append_nil, ← hrest, hs])
    refine ⟨hnormal, ?_⟩
    rw [hacks, h.acks, hnil, List.append_nil]

/-- Data that agrees with its length makes a record. -/
theorem exists_record (hlong : 4 ≤ s.stream.length)
    (hfull : (s.gotHeader.stream.take s.gotHeader.recSize).length = s.gotHeader.recSize)
    (hall : ∀ b ∈ s.gotHeader.stream.take s.gotHeader.recSize, b.toNat = s.gotHeader.recSize) :
    ∃ r rest, s.stream = record r ++ rest := by
  obtain ⟨x, hx⟩ := exists_be32 hlong
  have hsize : s.gotHeader.recSize = x.toNat := recSize_gotHeader hx
  have hstream : s.gotHeader.stream = s.stream.drop 4 := rfl
  rw [hsize, hstream] at hfull hall
  -- all its data octets are equal to the length, and an octet is at most 255
  have hle : x.toNat ≤ 255 := by
    by_contra hgt
    have hpos : 0 < ((s.stream.drop 4).take x.toNat).length := by omega
    have hfirst := hall _ (List.getElem_mem hpos)
    have hbyte := ((s.stream.drop 4).take x.toNat)[0].toNat_lt
    omega
  refine ⟨.ofNat x.toNat, (s.stream.drop 4).drop x.toNat, ?_⟩
  have hr : (UInt8.ofNat x.toNat).toNat = x.toNat := UInt8.toNat_ofNat_of_lt' (Nat.lt_succ_of_le hle)
  have hword : (UInt8.ofNat x.toNat).toUInt32 = x := by
    apply UInt32.toNat_inj.mp
    rw [UInt8.toNat_toUInt32, hr]
  have hdata : (s.stream.drop 4).take x.toNat = List.replicate x.toNat (.ofNat x.toNat) := by
    rw [List.eq_replicate_iff]
    refine ⟨hfull, ?_⟩
    intro b hb
    apply UInt8.toNat_inj.mp
    rw [hall b hb, hr]
  calc s.stream = be32 x ++ ((s.stream.drop 4).take x.toNat ++ (s.stream.drop 4).drop x.toNat) := by
        rw [List.take_append_drop]
        exact hx
    _ = record (.ofNat x.toNat) ++ (s.stream.drop 4).drop x.toNat := by
        rw [record, hword, hr, hdata, List.append_assoc]

theorem Received.recSize (h : Received calls inbuf stream s rs) : s.gotHeader.recSize = headerAt inbuf rs s.stream := by
  rw [headerAt, ← h.inbuf]
  rfl

/-- A round that gets to a header, where this is not a record that is acknowledged. -/
theorem Received.onHeader (h : Received calls inbuf stream s rs) (hw : HoldsWhen calls inbuf stream)
    (hh : (calls rs.length).header = true) (hs : s.stream ≠ [])
    (hno : calls rs.length = allSucceed → ∀ r rest, s.stream ≠ Stream.record r ++ rest) :
    EndsRight calls stream (s.gotHeader.onData host (calls rs.length)) := by
  obtain ⟨hle, hcut⟩ := hw rs s.stream h.stream hs ⟨h.calls, hh⟩
  rw [← h.recSize] at hle hcut
  have hend : s.gotHeader.ending = none := h.ending
  have hasked : ∀ n ∈ s.gotHeader.asked ++ [s.gotHeader.recSize], n ≤ maxRecSize := by
    rw [show s.gotHeader.asked = s.asked ++ [4] from rfl, List.append_assoc]
    apply h.asked_append
    intro n hn
    rcases List.mem_append.mp hn with hn | hn
    · rw [List.mem_singleton.mp hn]
      decide
    · rw [List.mem_singleton.mp hn]
      exact hle
  have hstop : (calls rs.length).header = true →
      s.stream ≠ [] ∧ (calls rs.length = allSucceed → ∀ r rest, s.stream ≠ Stream.record r ++ rest) :=
    fun _ => ⟨hs, hno⟩
  cases hd : (calls rs.length).data with
  | false =>
    rw [onData_of_fails hend hle hd]
    exact h.refuse rfl (by simp) rfl hasked hstop
  | true =>
    by_cases hfull : (s.gotHeader.stream.take s.gotHeader.recSize).length = s.gotHeader.recSize
    · rw [onData_of_full hend hle hd hfull]
      split
      next hall =>
        split
        next hack =>
          -- a header that is complete makes a record, and one that is cut short is not completed to 0
          exfalso
          have hgood : calls rs.length = allSucceed := by
            rw [show calls rs.length = ⟨(calls rs.length).header, (calls rs.length).data, (calls rs.length).ack⟩ from rfl,
              hh, hd, hack]
            rfl
          by_cases hlong : 4 ≤ s.stream.length
          · obtain ⟨r, rest, hr⟩ := exists_record hlong hfull hall
            exact hno hgood r rest hr
          · have hnil : s.gotHeader.stream = [] := List.drop_eq_nil_of_le (by omega)
            rw [hnil, List.take_nil] at hfull
            have := hcut (by omega) hfull.symm hd
            rw [hack] at this
            nomatch this
        · exact h.refuse rfl (by simp) rfl hasked hstop
      · exact h.refuse rfl (by simp) rfl hasked hstop
    · rw [onData_of_short hle hd hfull]
      exact h.refuse rfl (by simp) rfl hasked hstop

/-- One round: the server goes on behind one more record, or ends as it should. -/
theorem Received.round (h : Received calls inbuf stream s rs) (host : Endian) (hw : HoldsWhen calls inbuf stream) :
    (∃ r, Received calls inbuf stream (s.round host (calls s.recNum)) (rs ++ [r])) ∨
      EndsRight calls stream (s.round host (calls s.recNum)) := by
  have hasked : ∀ n ∈ s.asked ++ [4], n ≤ maxRecSize := by
    apply h.asked_append
    intro n hn
    rw [List.mem_singleton.mp hn]
    decide
  by_cases hrec : calls rs.length = allSucceed ∧ ∃ r rest, s.stream = Stream.record r ++ rest
  · obtain ⟨hall, r, rest, hr⟩ := hrec
    exact .inl ⟨r, h.record hr hall⟩
  · have hno : calls rs.length = allSucceed → ∀ r rest, s.stream ≠ Stream.record r ++ rest :=
      fun hall r rest hr => hrec ⟨hall, r, rest, hr⟩
    right
    rw [h.recNum]
    cases hh : (calls rs.length).header with
    | false =>
      rw [round_of_header_fails hh]
      exact h.refuse rfl (by simp) rfl hasked (by simp [hh])
    | true =>
      by_cases hs : s.stream = []
      · rw [round_of_nil hh hs]
        exact h.finish hs hh rfl rfl hasked
      · rw [round_of_header h.ending hh hs]
        exact h.onHeader hw hh hs hno

/-! ## Where the server gets -/

/-- The server gets to the header behind the records, and what it then asks for and acknowledges stays so. -/
theorem serve_onHeader {tail : Octets} (hstream : stream = records rs ++ tail) (htail : tail ≠ [])
    (hcalls : NoneFails calls rs.length) (hserve : serve host calls inbuf stream = some s) :
    ∃ t : Server, t.stream = tail ∧ t.inbuf = afterRecords inbuf rs ∧ t.acks = rs.length ∧ t.ending = none ∧
      (t.gotHeader.onData host (calls rs.length)).asked <+: s.asked ∧
      (t.gotHeader.onData host (calls rs.length)).acks ≤ s.acks := by
  obtain ⟨asked, hrun⟩ := run_records host calls (s := .start inbuf stream) rfl hstream
    fun i hi => by rw [← hcalls.1 i hi]; exact congrArg calls (Nat.zero_add i)
  obtain ⟨t, ht⟩ : ∃ t : Server, t = ⟨tail, afterRecords inbuf rs, 0 + rs.length, 0 + rs.length, asked, none⟩ := ⟨_, rfl⟩
  have hrun' : Rounds Server.goesOn (Server.body host calls) rs.length (.start inbuf stream) t := ht ▸ hrun
  have hnum : t.recNum = rs.length := by rw [ht]; exact Nat.zero_add _
  have hend : t.ending = none := by rw [ht]
  have hgo : t.goesOn = true := by rw [Server.goesOn, hend]; rfl
  have htstream : t.stream = tail := by rw [ht]
  have hbody : Server.body host calls t = some (t.gotHeader.onData host (calls rs.length)) := by
    rw [Server.body, hnum, round_of_header hend hcalls.2 (by rw [htstream]; exact htail)]
  have hle : rs.length ≤ stream.length := by
    have := four_mul_length_le rs
    rw [hstream, List.length_append]
    omega
  have hfuel : stream.length + 2 = rs.length + (stream.length - rs.length + 1 + 1) := by omega
  rw [serve, hfuel, hrun'.whileLoop, whileLoop_of_true hgo hbody] at hserve
  refine ⟨t, htstream, by rw [ht], by rw [ht]; exact Nat.zero_add _, hend, ?_⟩
  refine (whileLoop_inv
    (I := fun u => (t.gotHeader.onData host (calls rs.length)).asked <+: u.asked ∧
      (t.gotHeader.onData host (calls rs.length)).acks ≤ u.acks) ?_ ⟨List.prefix_refl _, Nat.le_refl _⟩ hserve).1
  rintro u u' ⟨hasked, hacks⟩ hgo' hu
  obtain rfl := Option.some.inj hu
  obtain ⟨-, hasked', hacks'⟩ := round_grows host (calls u.recNum) hgo'
  exact ⟨hasked.trans hasked', Nat.le_trans hacks hacks'⟩

/-- A server that accepts exactly the records has met no bad header. -/
theorem holdsWhen_of_accepts (hserve : serve host calls inbuf stream = some s) (h : AcceptsRecords calls stream s) :
    HoldsWhen calls inbuf stream := by
  intro rs tail hstream htail hcalls
  obtain ⟨t, htail', hinbuf, hacks, hend, hasked', hacks'⟩ := serve_onHeader hstream htail hcalls hserve
  have hsize : t.gotHeader.recSize = headerAt inbuf rs tail := by
    rw [headerAt, ← hinbuf, ← htail']
    rfl
  have hle : t.gotHeader.recSize ≤ maxRecSize := by
    by_contra hgt
    -- too much was asked for, and this stays on the record
    have hlarge := lt_sizeT host (Nat.lt_of_not_le hgt)
    obtain ⟨-, honce, -⟩ := onData_grows host (calls rs.length) t.gotHeader
    have hmem : sizeT (recSizeOf host t.gotHeader.inbuf) ∈ s.asked := by
      apply hasked'.subset
      rw [honce]
      exact List.mem_append_right _ List.mem_cons_self
    exact absurd (h.asked _ hmem) (Nat.not_le.mpr hlarge)
  refine ⟨hsize ▸ hle, ?_⟩
  intro hcut hzero hdata
  rw [← hsize] at hzero
  rw [← Bool.not_eq_true]
  intro hack
  -- the header that is cut short is acknowledged
  have hdone : (t.gotHeader.onData host (calls rs.length)).acks = rs.length + 1 := by
    have hend' : t.gotHeader.ending = none := hend
    rw [onData_of_full hend' hle hdata (by rw [hzero]; rfl), if_pos (by rw [hzero]; nofun), if_pos hack]
    exact congrArg (· + 1) hacks
  obtain ⟨rs', rest, hlen, hrs'⟩ := h.acked
  obtain ⟨rs'', rfl, htail''⟩ := records_append_eq (hstream.symm.trans hrs') (by omega)
  cases rs'' with
  | nil =>
    rw [List.append_nil] at hlen
    omega
  | cons r rs'' =>
    have hlong := four_le_length_record r (records rs'' ++ rest)
    rw [← List.append_assoc, show record r ++ records rs'' = records (r :: rs'') from rfl, ← htail''] at hlong
    omega

/-- **Which streams the server treats as it should.** For every stream, whatever `inbuf` holds before and whichever calls
    fail, the loop ends, and it ends as it should if and only if `HoldsWhen` says so. -/
theorem acceptsRecords_iff (host : Endian) (calls : ℕ → Calls) (inbuf stream : Octets) :
    ∃ s, serve host calls inbuf stream = some s ∧
      (AcceptsRecords calls stream s ↔ HoldsWhen calls inbuf stream) := by
  by_cases hw : HoldsWhen calls inbuf stream
  · obtain ⟨s, hserve, hright, hstop⟩ := serve_total host calls inbuf stream
      (fun s => (∃ rs, Received calls inbuf stream s rs) ∨ EndsRight calls stream s) (.inl ⟨[], received_start⟩)
      (by
        rintro s (⟨rs, h⟩ | h) hgo
        · rcases h.round host hw with ⟨r, hr⟩ | hright
          · exact .inl ⟨_, hr⟩
          · exact .inr hright
        · rw [h.1] at hgo
          cases hgo)
    refine ⟨s, hserve, fun _ => hw, ?_⟩
    intro _
    rcases hright with ⟨rs, h⟩ | h
    · rw [Server.goesOn, h.ending] at hstop
      cases hstop
    · exact h.2
  · obtain ⟨s, hserve, -⟩ := serve_total host calls inbuf stream (fun _ => True) trivial fun _ _ _ => trivial
    exact ⟨s, hserve, holdsWhen_of_accepts hserve, fun h => absurd h hw⟩

/-- One octet behind an empty record is acknowledged as a second one. -/
theorem acceptsRecords_broken :
    ¬ ∀ (host : Endian) (calls : ℕ → Calls) (inbuf stream : Octets) (s : Server),
      serve host calls inbuf stream = some s → AcceptsRecords calls stream s := by
  intro h
  have haccepts := h .little (fun _ => allSucceed) [] [0, 0, 0, 0, 0]
    ⟨[], [0, 0, 0, 0], 2, 2, [4, 0, 4, 0, 4], some .normal⟩ (by decide)
  obtain ⟨-, rs, hlen, hstream⟩ := (haccepts.language 2).mp ⟨rfl, rfl⟩
  have hle := four_mul_length_le rs
  rw [← hstream, hlen] at hle
  exact absurd hle (by decide)

end Stream
end Tipcutils
