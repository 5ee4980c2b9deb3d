import Tipcutils.Tipcc.AddressText

/-!
# `Tipcc.AddressBuffers` — the buffers that addresses are printed into

The callers of `tipc_dtoa`, `tipc_ntoa`, `tipc_rtoa` and `tipc_linkname` pass a whole array and its size, as `mcast_receiver`
does with its `srcbuf`. The functions store a terminator at `buf[len]`, which is behind such an array. The string that
`snprintf` has left is the right one; `strncpy` may need this terminator, and leaves one character too many then.

**`stays_within_iff`** — a call keeps to its buffer, and leaves the right string in it, if and only if it fails, as only
`tipc_linkname` can.
-/

namespace Tipcutils
namespace Tipcc
namespace AddressText

open Tipc Decimal CString

/-- The calls that print an address or the name of a link, of both copies. -/
inductive Call where
  | dtoa (domain : UInt32)
  | ntoa (addr : TipcAddr)
  | ntoaDemo (addr : TipcAddr)
  | rtoa (r : Range)
  | rtoaDemo (r : Range)
  | linkname (sys : Sys) (p : Proc)

/-- The stores of a call. -/
def Call.stores (len : ℕ) : Call → List (Char × ℕ)
  | .dtoa domain => tipcDtoa domain len
  | .ntoa addr => tipcNtoa addr len
  | .ntoaDemo addr => tipcNtoaDemo addr len
  | .rtoa r => tipcRtoa r len
  | .rtoaDemo r => tipcRtoaDemo r len
  | .linkname sys p => tipcLinkname sys p len

/-- The full text; the name of the link is what `ioctl` has put into the request. -/
def Call.full : Call → Text
  | .dtoa domain => textOf dtoaFmt (domainArgs domain)
  | .ntoa addr => textOf ntoaFmt (addrArgs addr)
  | .ntoaDemo addr => textOf ntoaFmtDemo (addrArgs addr)
  | .rtoa r => textOf rtoaFmt (rangeArgs r)
  | .rtoaDemo r => textOf rtoaFmtDemo (rangeArgs r)
  | .linkname sys _ => cText (sys.ioctl.getD [])

/-- All calls but those of `tipc_linkname` succeed, and these if there is a socket, and the `ioctl` succeeds. -/
def Call.Succeeds : Call → Prop
  | .linkname sys p => 0 < (tipcSocket sys p).1 ∧ sys.ioctl.isSome = true
  | _ => True

/-- The call is one of `tipc_linkname`. -/
def Call.isLinkname : Call → Bool
  | .linkname _ _ => true
  | _ => false

/-- A call that keeps to `buf[0]` to `buf[len - 1]`, and, if it succeeds, leaves the longest prefix of the text there that
    fits with its terminator. -/
structure StaysWithin (c : Call) (len : ℕ) : Prop where
  within : Within len (c.stores len)
  string : c.Succeeds → ∀ m, ∃ t, StringAt (applyAll (c.stores len) m) t ∧ LongestPrefix c.full (len - 1) t

/-- What a call does: it prints numbers, copies a name, or fails. -/
inductive Call.Effect (c : Call) : Prop where
  | printed (fmt : String) (seps : List Char) (args : List UInt32) (hfmt : AddrFormat fmt seps)
      (hlink : c.isLinkname = false) (hsucceeds : c.Succeeds) (hfull : c.full = textOf fmt args)
      (hstores : ∀ len, c.stores len = ntop fmt args len)
  | copied (src : Text) (hlink : c.isLinkname = true) (hsucceeds : c.Succeeds) (hfull : c.full = cText src)
      (hstores : ∀ len, c.stores len = (nul, 0) :: (strncpy len src ++ [(nul, len)]))
  | failed (hfails : ¬ c.Succeeds) (hstores : ∀ len, c.stores len = [(nul, 0)])

theorem effect_linkname (sys : Sys) (p : Proc) : (Call.linkname sys p).Effect := by
  by_cases hsd : (tipcSocket sys p).1 ≤ 0
  · refine .failed (fun h => absurd h.1 (not_lt.mpr hsd)) fun len => ?_
    rw [Call.stores, tipcLinkname, if_pos hsd]
  · cases hioctl : sys.ioctl with
    | none =>
      refine .failed (fun h => ?_) fun len => ?_
      · rw [Call.Succeeds, hioctl] at h
        nomatch h.2
      · rw [Call.stores, tipcLinkname, if_neg hsd, hioctl]
    | some linkname =>
      refine .copied linkname rfl ⟨not_le.mp hsd, by rw [hioctl]; rfl⟩ ?_ fun len => ?_
      · rw [Call.full, hioctl, Option.getD_some]
      · rw [Call.stores, tipcLinkname, if_neg hsd, hioctl]

theorem effect (c : Call) : c.Effect := by
  cases c with
  | dtoa domain => exact .printed _ _ _ dtoaFmt_format rfl trivial rfl fun _ => rfl
  | ntoa addr => exact .printed _ _ _ ntoaFmt_format rfl trivial rfl fun _ => rfl
  | ntoaDemo addr => exact .printed _ _ _ ntoaFmtDemo_format rfl trivial rfl fun _ => rfl
  | rtoa r => exact .printed _ _ _ rtoaFmt_format rfl trivial rfl fun _ => rfl
  | rtoaDemo r => exact .printed _ _ _ rtoaFmtDemo_format rfl trivial rfl fun _ => rfl
  | linkname sys p => exact effect_linkname sys p

/-! ## Where the calls store -/

section
variable {c : Call} {len : ℕ}

/-- A call that succeeds stores at `buf[len]`. -/
theorem mem_stores_of_succeeds (h : c.Succeeds) (len : ℕ) : (nul, len) ∈ c.stores len := by
  cases effect c with
  | printed fmt seps args _ _ _ _ hstores =>
    rw [hstores, ntop]
    exact List.mem_append_right _ List.mem_cons_self
  | copied src _ _ _ hstores =>
    rw [hstores]
    exact List.mem_cons_of_mem _ (List.mem_append_right _ List.mem_cons_self)
  | failed hfails _ => exact absurd h hfails

theorem within_iff (hlen : 1 ≤ len) : Within len (c.stores len) ↔ ¬ c.Succeeds := by
  cases effect c with
  | failed hfails hstores =>
    rw [hstores, within_singleton]
    exact iff_of_true hlen hfails
  | printed _ _ _ _ _ hsucceeds _ _ | copied _ _ hsucceeds _ _ =>
    exact iff_of_false (fun h => Nat.lt_irrefl len (h _ (mem_stores_of_succeeds hsucceeds len))) (not_not.mpr hsucceeds)

/-- In an array with one element more, all stores are inside. -/
theorem within_succ (c : Call) (len : ℕ) : Within (len + 1) (c.stores len) := by
  cases effect c with
  | printed fmt _ args _ _ _ _ hstores =>
    rw [hstores, ntop, within_append, within_singleton]
    exact ⟨(within_snprintf len _).mono (Nat.le_succ len), Nat.lt_succ_self len⟩
  | copied src _ _ _ hstores =>
    rw [hstores, within_cons, within_append, within_singleton]
    exact ⟨Nat.succ_pos len, (within_strncpy len src).mono (Nat.le_succ len), Nat.lt_succ_self len⟩
  | failed _ hstores =>
    rw [hstores, within_singleton]
    exact Nat.succ_pos len

/-! ## What the calls leave -/

/-- A call of `tipc_linkname` that succeeds leaves one character too many if the name is too long; all others leave the
    right string. -/
theorem string_iff (hlen : 1 ≤ len) :
    (c.Succeeds → ∀ m, ∃ t, StringAt (applyAll (c.stores len) m) t ∧ LongestPrefix c.full (len - 1) t) ↔
      ¬ (c.isLinkname = true ∧ c.Succeeds ∧ len ≤ c.full.length) := by
  cases effect c with
  | printed fmt seps args hfmt hlink _ hfull hstores =>
    refine iff_of_true (fun _ m => ⟨_, ?_, longestPrefix_iff.mpr rfl⟩) fun h => ?_
    · rw [hstores, hfull]
      exact stringAt_ntop hfmt args m hlen
    · rw [hlink] at h
      nomatch h.1
  | copied src hlink hsucceeds hfull hstores =>
    have hleft (m : ℕ → Char) : StringAt (applyAll (c.stores len) m) (c.full.take len) := by
      rw [hstores, hfull, applyAll_cons, applyAll_append]
      exact stringAt_strncpy len src _
    have hcut : c.full.take len = c.full.take (len - 1) ↔ ¬ len ≤ c.full.length := by
      rw [List.take_eq_take_iff]
      omega
    constructor
    · rintro h ⟨-, -, hlong⟩
      obtain ⟨t, hstring, hlongest⟩ := h hsucceeds fun _ => nul
      rw [longestPrefix_iff.mp hlongest] at hstring
      exact hcut.mp ((hleft _).unique hstring) hlong
    · intro h _ m
      refine ⟨_, hleft m, longestPrefix_iff.mpr (hcut.mpr fun hlong => h ⟨hlink, hsucceeds, hlong⟩)⟩
  | failed hfails _ => exact iff_of_true (fun h => absurd h hfails) fun h => hfails h.2.1

/-- The text of `Tipcc.tipcLinkname` is what is left in the buffer. -/
theorem stringAt_tipcLinkname {sys : Sys} {p : Proc} (hname : ∀ linkname ∈ sys.ioctl, nul ∉ linkname) (m : ℕ → Char) :
    StringAt (applyAll (tipcLinkname sys p len) m) (Tipcc.tipcLinkname sys len p).1 := by
  have hempty : StringAt (applyAll [(nul, 0)] m) [] := stringAt_zipIdx List.not_mem_nil []
  rw [tipcLinkname, Tipcc.tipcLinkname]
  dsimp only
  split
  · exact hempty
  · cases hioctl : sys.ioctl with
    | none => exact hempty
    | some linkname =>
      have hstring := stringAt_strncpy len linkname (Function.update m 0 nul)
      rw [cText_of_notMem (hname linkname hioctl)] at hstring
      dsimp only
      rw [applyAll_cons, applyAll_append]
      exact hstring

/-- **When a call keeps to its buffer**, and leaves the right string there: if and only if it is one of `tipc_linkname`, and
    there is no socket, or the `ioctl` fails. The string alone is wrong for names of links that are too long. -/
theorem stays_within_iff (c : Call) (len : ℕ) (hlen : 1 ≤ len) :
    (StaysWithin c len ↔ ¬ c.Succeeds) ∧
    ((c.Succeeds → ∀ m, ∃ t, StringAt (applyAll (c.stores len) m) t ∧ LongestPrefix c.full (len - 1) t) ↔
      ¬ (c.isLinkname = true ∧ c.Succeeds ∧ len ≤ c.full.length)) := by
  refine ⟨⟨fun h => (within_iff hlen).mp h.within, fun h => ?_⟩, string_iff hlen⟩
  exact ⟨(within_iff hlen).mpr h, fun hsucceeds => absurd hsucceeds h⟩

/-- There is no such link: the `ioctl` fails. -/
def noLink : Call := .linkname ⟨true, true, true, none, none, none⟩ ⟨.initial [0, 1, 2], 0x01001001, []⟩

/-- `tipc_linkname` without a link keeps to its buffer, and `tipc_dtoa` does not keep to `srcbuf`. -/
theorem stays_within_noLink : StaysWithin noLink 16 ∧ ¬ StaysWithin (.dtoa 0x01001001) 10 := by
  refine ⟨(stays_within_iff noLink 16 (by decide)).1.mpr fun h => ?_, fun h => ?_⟩
  · exact absurd h.2 (by decide)
  · exact (stays_within_iff (.dtoa 0x01001001) 10 (by decide)).1.mp h trivial

/-- **A store behind the array:** `mcast_receiver` has the address of a sender printed into its `char srcbuf[10]`. -/
theorem dtoa_overruns : ¬ ∀ (c : Call) (len : ℕ), 1 ≤ len → StaysWithin c len := by
  intro h
  have hwithin := (h (.dtoa 0x01001001) 10 (by decide)).within
  exact absurd (hwithin _ (mem_stores_of_succeeds (c := .dtoa 0x01001001) trivial 10)) (Nat.lt_irrefl 10)

end

end AddressText
end Tipcc
end Tipcutils
