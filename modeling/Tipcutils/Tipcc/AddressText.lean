import Tipcutils.Lib.CString
import Tipcutils.Lib.Fields
import Tipcutils.Tipcc.Descriptors

/-!
# `Tipcc.AddressText` — the texts of addresses

`tipc_dtoa`, `tipc_ntoa` and `tipc_rtoa` print an address into a buffer of the caller with `snprintf`, and store a
terminator at `buf[len]`; `tipc_linkname` copies the name of a link with `strncpy`, and does the same. The two copies of
`tipcc.c` differ in the formats of `tipc_ntoa` and `tipc_rtoa`, where one has `@` and the other has `:`.

**`addr_text_identifies`** says that the texts are read back: split at the separators, they yield the numbers, from which
the address is put together.

A call is the list of its stores, from which `Lib.CString` says what is left in the buffer.
-/

namespace Tipcutils
namespace Tipcc
namespace AddressText

open Tipc Decimal CString

/-- The text that is printed with the format `fmt`. -/
def textOf (fmt : String) (args : List UInt32) : Text := printU fmt.toList (args.map UInt32.toNat)

/-- `snprintf(buf, len, fmt, args); buf[len] = 0`. -/
def ntop (fmt : String) (args : List UInt32) (len : ℕ) : List (Char × ℕ) := snprintf len (textOf fmt args) ++ [(nul, len)]

/-- The formats: of the multicast blaster, and those of the API demo that are not the same. -/
def dtoaFmt : String := "%u.%u.%u"
def ntoaFmt : String := "%u:%u@%u.%u.%u"
def ntoaFmtDemo : String := "%u:%u:%u.%u.%u"
def rtoaFmt : String := "%u:%u:%u@%u.%u.%u"
def rtoaFmtDemo : String := "%u:%u:%u:%u.%u.%u"

/-- `tipc_zone(domain), tipc_cluster(domain), tipc_node(domain)`. -/
def domainArgs (domain : UInt32) : List UInt32 := [tipcZone domain, tipcCluster domain, tipcNode domain]

/-- The arguments of `tipc_rtoa`. -/
structure Range where
  type : UInt32
  lower : UInt32
  upper : UInt32
  domain : UInt32
deriving DecidableEq

def addrArgs (addr : TipcAddr) : List UInt32 := addr.type :: addr.inst :: domainArgs addr.domain

def rangeArgs (r : Range) : List UInt32 := r.type :: r.lower :: r.upper :: domainArgs r.domain

/-- `tipc_dtoa`, the same in both copies. -/
def tipcDtoa (domain : UInt32) (len : ℕ) : List (Char × ℕ) := ntop dtoaFmt (domainArgs domain) len

/-- `tipc_ntoa` of the multicast blaster, and of the API demo. -/
def tipcNtoa (addr : TipcAddr) (len : ℕ) : List (Char × ℕ) := ntop ntoaFmt (addrArgs addr) len
def tipcNtoaDemo (addr : TipcAddr) (len : ℕ) : List (Char × ℕ) := ntop ntoaFmtDemo (addrArgs addr) len

/-- `tipc_rtoa` of the multicast blaster, and of the API demo. -/
def tipcRtoa (r : Range) (len : ℕ) : List (Char × ℕ) := ntop rtoaFmt (rangeArgs r) len
def tipcRtoaDemo (r : Range) (len : ℕ) : List (Char × ℕ) := ntop rtoaFmtDemo (rangeArgs r) len

/-- `tipc_linkname`, the same in both copies. -/
def tipcLinkname (sys : Sys) (p : Proc) (len : ℕ) : List (Char × ℕ) :=
  (nul, 0) ::
    if (tipcSocket sys p).1 ≤ 0 then []
    else
      match sys.ioctl with
      | some linkname => strncpy len linkname ++ [(nul, len)]
      | none => []

/-! ## Reading the texts back -/

/-- The separators of all formats. -/
def addrSeps : Separators where
  isSep c := c = '.' || c = ':' || c = '@'
  not_digit c h := by
    simp only [Bool.or_eq_true, decide_eq_true_eq] at h
    rcases h with (rfl | rfl) | rfl <;> decide

/-- `zone << 24 | cluster << 12 | node`. -/
def readDomain : List ℕ → Option UInt32
  | [zone, cluster, node] => some (tipcAddr (.ofNat zone) (.ofNat cluster) (.ofNat node))
  | _ => none

def readAddr : List ℕ → Option TipcAddr
  | type :: inst :: domain => (readDomain domain).map fun domain => ⟨.ofNat type, .ofNat inst, domain⟩
  | _ => none

def readRange : List ℕ → Option Range
  | type :: lower :: upper :: domain =>
    (readDomain domain).map fun domain => ⟨.ofNat type, .ofNat lower, .ofNat upper, domain⟩
  | _ => none

/-- The texts that `print` leaves in buffers that are long enough identify its argument, and `read` recovers it. -/
structure Identifies {α : Type} (print : α → ℕ → List (Char × ℕ)) (full : α → Text) (read : List ℕ → Option α) : Prop where
  injective : ∀ a b len len' m m' t, (full a).length < len → (full b).length < len' →
    StringAt (applyAll (print a len) m) t → StringAt (applyAll (print b len') m') t → a = b
  reads : ∀ a len m, (full a).length < len →
    ∃ t, StringAt (applyAll (print a len) m) t ∧ read (addrSeps.read t) = some a

/-! ## What the functions leave -/

/-- A format with the separators `seps` between its conversions. -/
structure AddrFormat (fmt : String) (seps : List Char) : Prop where
  shape : fmt.toList = format seps
  isSep : ∀ c ∈ seps, addrSeps.isSep c = true
  noNul : nul ∉ fmt.toList

theorem dtoaFmt_format : AddrFormat dtoaFmt ['.', '.'] :=
  ⟨by decide, List.all_eq_true.mp rfl, by decide⟩
theorem ntoaFmt_format : AddrFormat ntoaFmt [':', '@', '.', '.'] :=
  ⟨by decide, List.all_eq_true.mp rfl, by decide⟩
theorem ntoaFmtDemo_format : AddrFormat ntoaFmtDemo [':', ':', '.', '.'] :=
  ⟨by decide, List.all_eq_true.mp rfl, by decide⟩
theorem rtoaFmt_format : AddrFormat rtoaFmt [':', ':', '@', '.', '.'] :=
  ⟨by decide, List.all_eq_true.mp rfl, by decide⟩
theorem rtoaFmtDemo_format : AddrFormat rtoaFmtDemo [':', ':', ':', '.', '.'] :=
  ⟨by decide, List.all_eq_true.mp rfl, by decide⟩

section
variable {fmt : String} {seps : List Char} {args : List UInt32} {m : ℕ → Char} {len : ℕ}

theorem nul_notMem_textOf (hfmt : AddrFormat fmt seps) (args : List UInt32) : nul ∉ textOf fmt args := by
  intro h
  rcases mem_printU h with hdigit | hmem
  · exact absurd hdigit (by decide)
  · exact hfmt.noNul hmem

/-- What is left in a buffer of any size: as much of the text as fits with the terminator. -/
theorem stringAt_ntop (hfmt : AddrFormat fmt seps) (args : List UInt32) (m : ℕ → Char) (hlen : 1 ≤ len) :
    StringAt (applyAll (ntop fmt args len) m) ((textOf fmt args).take (len - 1)) := by
  rw [ntop, applyAll_append]
  refine (stringAt_snprintf hlen (nul_notMem_textOf hfmt args)).update ?_ nul
  rw [List.length_take]
  omega

theorem stringAt_ntop_of_lt (hfmt : AddrFormat fmt seps) (m : ℕ → Char) (hlen : (textOf fmt args).length < len) :
    StringAt (applyAll (ntop fmt args len) m) (textOf fmt args) := by
  have hleft := stringAt_ntop hfmt args m (Nat.one_le_of_lt hlen)
  rwa [List.take_of_length_le (Nat.le_sub_one_of_lt hlen)] at hleft

theorem textOf_dtoaFmt (domain : UInt32) : textOf dtoaFmt (domainArgs domain) = domainText domain := by
  rw [textOf, dtoaFmt_format.shape]
  simp only [format, domainArgs, List.map_cons, List.map_nil, printU_conversion, printU_sep, printU, domainText,
    List.append_nil, List.append_assoc, List.cons_append, List.nil_append]

/-- The text of `Tipc.tipcDtoa` is what is left in the buffer. -/
theorem stringAt_tipcDtoa (domain : UInt32) (m : ℕ → Char) (hlen : 1 ≤ len) :
    StringAt (applyAll (tipcDtoa domain len) m) (Tipc.tipcDtoa domain len) := by
  rw [Tipc.tipcDtoa, ← textOf_dtoaFmt]
  exact stringAt_ntop dtoaFmt_format (domainArgs domain) m hlen

/-- The numbers of a text. -/
theorem read_textOf (hfmt : AddrFormat fmt seps) (hargs : args.length = seps.length + 1) :
    addrSeps.read (textOf fmt args) = args.map UInt32.toNat := by
  rw [textOf, hfmt.shape, read_printU addrSeps hfmt.isSep (by rw [List.length_map, hargs])]

end

/-! ## The texts identify the addresses -/

theorem readDomain_args (domain : UInt32) : readDomain ((domainArgs domain).map UInt32.toNat) = some domain := by
  simp only [domainArgs, List.map_cons, List.map_nil, readDomain, UInt32.ofNat_toNat, tipcAddr_fields]

theorem readAddr_args (addr : TipcAddr) : readAddr ((addrArgs addr).map UInt32.toNat) = some addr := by
  simp only [addrArgs, List.map_cons, readAddr, readDomain_args, Option.map_some, UInt32.ofNat_toNat]

theorem readRange_args (r : Range) : readRange ((rangeArgs r).map UInt32.toNat) = some r := by
  simp only [rangeArgs, List.map_cons, readRange, readDomain_args, Option.map_some, UInt32.ofNat_toNat]

/-- A format and a reader that recovers its arguments. -/
theorem identifies {α : Type} {fmt : String} {seps : List Char} {args : α → List UInt32} {read : List ℕ → Option α}
    (hfmt : AddrFormat fmt seps) (hargs : ∀ a, (args a).length = seps.length + 1)
    (hread : ∀ a, read ((args a).map UInt32.toNat) = some a) :
    Identifies (fun a => ntop fmt (args a)) (fun a => textOf fmt (args a)) read := by
  refine ⟨fun a b len len' m m' t hlen hlen' ha hb => ?_, fun a len m hlen => ?_⟩
  · have htext := (stringAt_ntop_of_lt hfmt m hlen).unique ha
    have htext' := (stringAt_ntop_of_lt hfmt m' hlen').unique hb
    have hargs' : (args a).map UInt32.toNat = (args b).map UInt32.toNat := by
      rw [← read_textOf hfmt (hargs a), ← read_textOf hfmt (hargs b), htext, htext']
    have hsome := congrArg read hargs'
    rw [hread, hread] at hsome
    exact Option.some.inj hsome
  · refine ⟨_, stringAt_ntop_of_lt hfmt m hlen, ?_⟩
    rw [read_textOf hfmt (hargs a), hread]

/-- **Printed addresses identify the address.** Two arguments of `tipc_dtoa`, `tipc_ntoa` or `tipc_rtoa`, in either copy,
    that leave the same string are equal, and the numbers between the separators of this string yield the argument. -/
theorem addr_text_identifies :
    Identifies tipcDtoa (fun domain => textOf dtoaFmt (domainArgs domain)) readDomain ∧
    Identifies tipcNtoa (fun addr => textOf ntoaFmt (addrArgs addr)) readAddr ∧
    Identifies tipcNtoaDemo (fun addr => textOf ntoaFmtDemo (addrArgs addr)) readAddr ∧
    Identifies tipcRtoa (fun r => textOf rtoaFmt (rangeArgs r)) readRange ∧
    Identifies tipcRtoaDemo (fun r => textOf rtoaFmtDemo (rangeArgs r)) readRange :=
  ⟨identifies dtoaFmt_format (fun _ => rfl) readDomain_args,
    identifies ntoaFmt_format (fun _ => rfl) readAddr_args,
    identifies ntoaFmtDemo_format (fun _ => rfl) readAddr_args,
    identifies rtoaFmt_format (fun _ => rfl) readRange_args,
    identifies rtoaFmtDemo_format (fun _ => rfl) readRange_args⟩

example : addrSeps.read (textOf ntoaFmt (addrArgs ⟨1000, 7, 0x01001002⟩)) = [1000, 7, 1, 1, 2] := by decide

end AddressText
end Tipcc
end Tipcutils
