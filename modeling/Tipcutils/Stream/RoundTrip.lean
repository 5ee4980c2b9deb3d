import Tipcutils.Stream.Server

/-!
# `Stream.RoundTrip` — the server accepts what the client sends

**`roundTrip`**: for every capacity and every message size, in both programs, the client packs records of 1 to 255 octets
inside its buffer and sends exactly these, and the server acknowledges each of them and ends normally.
-/

namespace Tipcutils
namespace Stream

/-- A stream of records that ends behind the last one. -/
theorem serve_records (host : Endian) (inbuf : Octets) (rs : List UInt8) :
    ∃ s, serve host (fun _ => allSucceed) inbuf (records rs) = some s ∧ s.ending = some .normal ∧
      s.acks = rs.length := by
  have hstream : records rs = records rs ++ [] := (List.append_nil _).symm
  obtain ⟨asked, hrun⟩ := run_records host (fun _ => allSucceed) (s := .start inbuf (records rs)) rfl hstream
    fun _ _ => rfl
  -- the last round finds the end of the stream
  obtain ⟨t, ht⟩ : ∃ t : Server, t = ⟨[], afterRecords inbuf rs, 0 + rs.length, 0 + rs.length, asked, none⟩ := ⟨_, rfl⟩
  have hlast : Server.body host (fun _ => allSucceed) t =
      some { t with asked := t.asked ++ [4], inbuf := overlay maxRecSize t.inbuf [], ending := some .normal } :=
    congrArg some (round_of_nil rfl (by rw [ht]))
  have hstop : whileLoop Server.goesOn (Server.body host fun _ => allSucceed) 2 t =
      some { t with asked := t.asked ++ [4], inbuf := overlay maxRecSize t.inbuf [], ending := some .normal } :=
    (whileLoop_of_true (by rw [ht]; rfl) hlast).trans (whileLoop_of_false rfl)
  have hfuel : rs.length + 2 ≤ (records rs).length + 2 := by
    have := four_mul_length_le rs
    omega
  refine ⟨_, whileLoop_mono ((hrun.whileLoop (n := 2)).trans (ht ▸ hstop)) hfuel, rfl, ?_⟩
  exact Nat.zero_add _

/-- What a round trip is: the client's buffer and messages, and how the server ends. -/
structure RoundTrip (prog : Program) (host : Endian) (buf inbuf : Octets) (msgSize : ℕ) (p : Packer) (c : Chunker)
    (s : Server) : Prop where
  /-- all writes are inside the buffer, and both programs write the same -/
  packs : packRecords prog.storeSize buf = some p
  same : packRecords prog.storeSize buf = packRecords Ptts.storeSize buf
  length : p.buf.length = buf.length ∧ p.totSize ≤ buf.length
  packed : p.buf.take p.totSize = records (recSizes p.recNum)
  lengths : ∀ r ∈ recSizes p.recNum, 1 ≤ r.toNat ∧ r.toNat ≤ 255
  sends : sendMessages prog.sendMsg msgSize p = some c
  sent : c.msgs.flatten = p.buf.take p.totSize
  serves : serve host (fun _ => allSucceed) inbuf c.msgs.flatten = some s
  acks : s.acks = p.recNum
  normal : s.ending = some .normal

theorem packRecords_same (prog : Program) (buf : Octets) :
    packRecords prog.storeSize buf = packRecords Ptts.storeSize buf := by
  have hstore : prog.storeSize = Program.ptts.storeSize := by
    funext buf totSize size
    rw [storeSize_eq, storeSize_eq]
  rw [hstore]
  rfl

/-- **The round trip.** For every capacity, every message size and both programs, on hosts of either kind and whatever
    the two buffers hold before. -/
theorem roundTrip (prog : Program) (host : Endian) (buf inbuf : Octets) {msgSize : ℕ} (hm : 1 ≤ msgSize) :
    ∃ p c s, RoundTrip prog host buf inbuf msgSize p c s := by
  obtain ⟨p, hpack, hp, -⟩ := packRecords_spec prog buf
  obtain ⟨c, hsend, hsent⟩ := sendMessages_spec prog (p := p) hm (by rw [hp.length]; exact hp.fits)
  obtain ⟨s, hserve, hnormal, hacks⟩ := serve_records host inbuf (recSizes p.recNum)
  rw [← hp.packed, ← hsent] at hserve
  refine ⟨p, c, s, hpack, packRecords_same prog buf, ⟨hp.length, hp.fits⟩, hp.packed, fun r hr => ?_, hsend, hsent,
    hserve, ?_, hnormal⟩
  · exact ⟨one_le_of_mem_recSizes hr, Nat.le_of_lt_succ r.toNat_lt⟩
  · rw [hacks, recSizes, List.length_map, List.length_range]

/-- A buffer with room for two records, of 1 and of 148 octets, sent in messages of three octets. -/
theorem roundTrip_twoRecords : ∃ p c s, packRecords (Program.demo .little).storeSize (List.replicate 158 0) = some p ∧
    p.recNum = 2 ∧ p.totSize = 157 ∧ sendMessages (Program.demo .little).sendMsg 3 p = some c ∧
      serve .big (fun _ => allSucceed) [] c.msgs.flatten = some s ∧ s.acks = 2 := by
  obtain ⟨p, c, s, h⟩ := roundTrip (.demo .little) .big (List.replicate 158 0) [] (show 1 ≤ 3 by decide)
  have hp : (packRecords (Program.demo .little).storeSize (List.replicate 158 0)).map (fun p => (p.recNum, p.totSize)) =
      some (2, 157) := by
    decide +kernel
  rw [h.packs, Option.map_some, Option.some.injEq, Prod.mk.injEq] at hp
  exact ⟨p, c, s, h.packs, hp.1, hp.2, h.sends, h.serves, h.acks.trans hp.1⟩

end Stream
end Tipcutils
