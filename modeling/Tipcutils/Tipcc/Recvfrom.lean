import Tipcutils.Lib.Wire
import Tipcutils.Tipcc.Descriptors

/-!
# `Tipcc.Recvfrom` — the receipt of a message with its ancillary data

`tipc_recvfrom` has the same text in both copies of `tipcc.c`. It walks the ancillary data of a message with a cursor: the
error and the returned octets of a rejected message, and the name that a message was addressed to. The returned octets
are left out of the ancillary data where there are none, but the cursor is moved past them all the same.
**`tipcRecvfrom_eq_iff`** says which deliveries are decoded.

Not modelled: the padding of the ancillary data, which has room for all that the kernel puts there, and the fields `level`
and `len` of its headers.
-/

namespace Tipcutils
namespace Tipcc

open Tipc

/-! ## The ancillary data -/

/-- `cmsg_type`: `TIPC_ERRINFO`, `TIPC_RETDATA` and `TIPC_DESTNAME`. -/
inductive CmsgType where
  | errinfo
  | retdata
  | destname
deriving DecidableEq

/-- `struct cmsghdr` with its data. -/
structure Cmsg where
  type : CmsgType
  data : Octets
deriving DecidableEq

/-- `CMSG_NXTHDR`: the cursor is the list of the headers that are left. It reads the header it is at; `none` is that there
    is no such header. -/
def cmsgNxthdr : List Cmsg → Option (List Cmsg)
  | [] => none
  | _ :: anc => some anc

/-- `memcpy(buf, CMSG_DATA(anc), n)`; `none` is that the data has fewer octets. -/
def memcpyData (buf : Octets) (anc : List Cmsg) (n : ℕ) : Option Octets :=
  if n = 0 then some buf
  else
    match anc with
    | [] => none
    | c :: _ => if n ≤ c.data.length then some (c.data.take n ++ buf.drop n) else none

/-! ## `tipc_recvfrom` -/

/-- What `recvmsg` writes on a host: the port identity of the sender, the octets that it receives, and the ancillary
    data. -/
structure Recvd where
  host : Endian
  ref : UInt32
  node : UInt32
  data : Octets
  control : List Cmsg

/-- The local variables after the first stage. -/
structure Stage where
  err : Int32
  rc : ℤ
  buf : Octets
  anc : List Cmsg

/-- The stage that decodes the error and the returned octets. -/
def decodeError (host : Endian) (len : ℕ) (rc : ℤ) (buf : Octets) (anc : List Cmsg) : Option Stage :=
  match anc with
  | ⟨.errinfo, data⟩ :: _ => do
    let err := (loadU32 host data).toInt32
    let rc := (loadU32 host (data.drop 4)).toInt32.toInt
    -- the comparison is one of unsigned words
    let rc := if rc % 2 ^ 64 > len then (Int32.ofNat len).toInt else rc
    let anc ← cmsgNxthdr anc
    let buf ← memcpyData buf anc (rc % 2 ^ 64).toNat
    let anc ← cmsgNxthdr anc
    some ⟨err, rc, buf, anc⟩
  | _ => some ⟨0, rc, buf, anc⟩

/-- What `tipc_recvfrom` returns and leaves in its buffer, and what it writes through its pointers; `none` is that nothing
    is written. -/
structure Recvfrom where
  rc : ℤ
  buf : Octets
  src : Option TipcAddr
  dst : Option TipcAddr
  err : Option Int32
deriving DecidableEq

/-- The stage that decodes the name, and what is written and returned. -/
def decodeName (sockid : Option TipcAddr) (src dst err : Bool) (r : Recvd) (s : Stage) : Recvfrom where
  rc := if !err ∧ s.err ≠ 0 then 0 else s.rc
  buf := s.buf
  src :=
    let srcVal := if src then some ⟨0, r.ref, r.node⟩ else none
    if s.err ≠ 0 ∧ src then sockid.or srcVal else srcVal
  dst :=
    if dst then
      match s.anc with
      | ⟨.destname, data⟩ :: _ => some ⟨loadU32 r.host data, loadU32 r.host (data.drop 4), 0⟩
      | _ => sockid
    else none
  err := if err then some s.err else none

/-- `tipc_recvfrom` after a `recvmsg` that has not failed. `src`, `dst` and `err` are whether these pointers are given, and
    `sockid` is what `tipc_sockid` yields; `none` is that a missing header is read. -/
def tipcRecvfrom (sockid : Option TipcAddr) (buf : Octets) (len : ℕ) (src dst err : Bool) (r : Recvd) : Option Recvfrom :=
  (decodeError r.host len r.data.length (r.data ++ buf.drop r.data.length) r.control).map
    (decodeName sockid src dst err r)

/-! ## What the kernel delivers -/

/-- A rejected message: its error, and the octets that are returned. -/
structure Rejected where
  err : Int32
  data : Octets
  err_ne : err ≠ 0
  data_le : data.length ≤ 1024

/-- What is delivered: octets, or a message that was rejected. -/
inductive Body where
  | normal (data : Octets)
  | rejected (msg : Rejected)

/-- The name that a message is addressed to. -/
structure DestName where
  type : UInt32
  lower : UInt32
  upper : UInt32
deriving DecidableEq

/-- A message as it is delivered, with the port identity of its sender and the name it was addressed to, if it was. -/
structure Delivery where
  ref : UInt32
  node : UInt32
  body : Body
  name : Option DestName

/-- The ancillary data for a body. -/
def Body.control (host : Endian) : Body → List Cmsg
  | .normal _ => []
  | .rejected m =>
    ⟨.errinfo, storeU32 host m.err.toUInt32 ++ storeU32 host (.ofNat m.data.length)⟩ ::
      if m.data = [] then [] else [⟨.retdata, m.data⟩]

/-- The ancillary data for a name. -/
def DestName.cmsg (host : Endian) (n : DestName) : Cmsg :=
  ⟨.destname, storeU32 host n.type ++ (storeU32 host n.lower ++ storeU32 host n.upper)⟩

/-- What `recvmsg` makes of a delivery, with room for `len` octets. -/
def Delivery.recvd (host : Endian) (len : ℕ) (d : Delivery) : Recvd where
  host := host
  ref := d.ref
  node := d.node
  data := match d.body with
    | .normal data => data.take len
    | .rejected _ => []
  control := d.body.control host ++ (d.name.map (DestName.cmsg host)).toList

/-- The address of a name. -/
def DestName.addr (n : DestName) : TipcAddr := ⟨n.type, n.lower, 0⟩

/-- What a delivery is to be decoded to, on a socket with the identity `own`. -/
def Delivery.decoded (own : TipcAddr) (buf : Octets) (len : ℕ) (src dst err : Bool) (d : Delivery) : Recvfrom :=
  let dstVal := if dst then some ((d.name.map DestName.addr).getD own) else none
  match d.body with
  | .normal data =>
    ⟨min data.length len, data.take len ++ buf.drop (data.take len).length,
      if src then some ⟨0, d.ref, d.node⟩ else none, dstVal, if err then some 0 else none⟩
  | .rejected m =>
    ⟨if err then min m.data.length len else 0, m.data.take len ++ buf.drop (m.data.take len).length,
      if src then some own else none, dstVal, if err then some m.err else none⟩

/-! ## The first stage -/

section
variable (host : Endian) (buf : Octets) (len : ℕ)

/-- Without an error there is nothing to decode. -/
theorem decodeError_normal (rc : ℤ) (data : Octets) (name : Option DestName) :
    decodeError host len rc buf ((Body.normal data).control host ++ (name.map (DestName.cmsg host)).toList) =
      some ⟨0, rc, buf, (name.map (DestName.cmsg host)).toList⟩ := by
  cases name <;> rfl

/-- The number of octets to copy. -/
theorem toInt_size {s : ℕ} (h : s ≤ 1024) :
    (if (UInt32.ofNat s).toInt32.toInt % 2 ^ 64 > len then (Int32.ofNat len).toInt else (UInt32.ofNat s).toInt32.toInt) =
      (min s len : ℕ) := by
  have hofNat : ∀ n ≤ 1024, (Int32.ofNat n).toInt = n := fun n hn => Int32.toInt_ofNat_of_lt (by omega)
  have hs : (UInt32.ofNat s).toInt32 = Int32.ofNat s := rfl
  rw [hs, hofNat s h]
  by_cases hlt : len < s
  · rw [if_pos (by omega), hofNat len (by omega), Nat.min_eq_right (Nat.le_of_lt hlt)]
  · rw [if_neg (by omega), Nat.min_eq_left (Nat.not_lt.mp hlt)]

theorem decodeError_rejected (rc : ℤ) (m : Rejected) (anc : List Cmsg) :
    decodeError host len rc buf ((Body.rejected m).control host ++ anc) =
      (cmsgNxthdr ((Body.rejected m).control host ++ anc)).bind fun anc' =>
        (memcpyData buf anc' (min m.data.length len)).bind fun buf' =>
          (cmsgNxthdr anc').bind fun anc'' => some ⟨m.err, (min m.data.length len : ℕ), buf', anc''⟩ := by
  have herr : loadU32 host (storeU32 host m.err.toUInt32 ++ storeU32 host (.ofNat m.data.length)) = m.err.toUInt32 :=
    loadU32_storeU32 host _ _
  have hlen : (storeU32 host m.err.toUInt32).length = 4 := by cases host <;> rfl
  have hsize : loadU32 host ((storeU32 host m.err.toUInt32 ++ storeU32 host (.ofNat m.data.length)).drop 4) =
      .ofNat m.data.length := by
    rw [List.drop_left' hlen, ← List.append_nil (storeU32 host (.ofNat m.data.length)), loadU32_storeU32]
  have hcount : ((min m.data.length len : ℕ) : ℤ) % 2 ^ 64 = (min m.data.length len : ℕ) := by
    have := m.data_le
    omega
  rw [Body.control, List.cons_append, decodeError]
  simp only [herr, hsize, toInt_size len m.data_le, hcount, Int.toNat_natCast, Int32.toInt32_toUInt32]
  rfl

/-- The returned octets are copied. -/
theorem decodeError_returned (rc : ℤ) {m : Rejected} (hm : m.data ≠ []) (anc : List Cmsg) :
    decodeError host len rc buf ((Body.rejected m).control host ++ anc) =
      some ⟨m.err, (min m.data.length len : ℕ), m.data.take len ++ buf.drop (m.data.take len).length, anc⟩ := by
  have hcontrol : cmsgNxthdr ((Body.rejected m).control host ++ anc) = some (⟨.retdata, m.data⟩ :: anc) := by
    rw [Body.control, if_neg hm]
    rfl
  have hlen : (m.data.take len).length = min m.data.length len := by rw [List.length_take, Nat.min_comm]
  have htake : m.data.take (min m.data.length len) = m.data.take len := by
    rw [← List.take_take, List.take_of_length_le (List.length_take_le' len m.data)]
  have hcopy : memcpyData buf (⟨.retdata, m.data⟩ :: anc) (min m.data.length len) =
      some (m.data.take len ++ buf.drop (m.data.take len).length) := by
    rw [memcpyData, hlen]
    by_cases hzero : min m.data.length len = 0
    · rw [if_pos hzero, hzero, List.eq_nil_of_length_eq_zero (hlen.trans hzero)]
      rfl
    · rw [if_neg hzero]
      simp only [if_pos (Nat.min_le_left m.data.length len), htake]
  rw [decodeError_rejected, hcontrol, Option.bind_some, hcopy, Option.bind_some]
  rfl

/-- Without returned octets, the header behind the error is passed over. -/
theorem decodeError_empty (rc : ℤ) {m : Rejected} (hm : m.data = []) (anc : List Cmsg) :
    decodeError host len rc buf ((Body.rejected m).control host ++ anc) =
      (cmsgNxthdr anc).bind fun anc => some ⟨m.err, 0, buf, anc⟩ := by
  rw [decodeError_rejected, Body.control, if_pos hm, hm, List.length_nil, Nat.zero_min]
  rfl

end

/-! ## Which deliveries are decoded -/

section
variable {own : TipcAddr} {src dst err : Bool} {r : Recvd}

/-- The second stage on what is left of the ancillary data. -/
theorem decodeName_eq (s : Stage) {name : Option DestName} (h : s.anc = (name.map (DestName.cmsg r.host)).toList) :
    decodeName (some own) src dst err r s =
      ⟨if !err ∧ s.err ≠ 0 then 0 else s.rc, s.buf,
        if src then some (if s.err ≠ 0 then own else ⟨0, r.ref, r.node⟩) else none,
        if dst then some ((name.map DestName.addr).getD own) else none, if err then some s.err else none⟩ := by
  have hsrc : (if s.err ≠ 0 ∧ src = true then some own else if src then some ⟨0, r.ref, r.node⟩ else none) =
      if src then some (if s.err ≠ 0 then own else ⟨0, r.ref, r.node⟩) else none := by
    cases src
    · simp
    · by_cases hs : s.err = 0 <;> simp [hs]
  have hdst : (decodeName (some own) src dst err r s).dst =
      if dst then some ((name.map DestName.addr).getD own) else none := by
    cases name with
    | none =>
      simp only [decodeName, h]
      rfl
    | some n =>
      have hlen : (storeU32 r.host n.type).length = 4 := by cases r.host <;> rfl
      simp only [decodeName, h, Option.map_some, Option.toList_some, DestName.cmsg, loadU32_storeU32,
        List.drop_left' hlen]
      rfl
  rw [← hdst, ← hsrc]
  rfl

end

/-- **What is decoded.** A delivery is decoded, whatever the length of the buffer and the pointers that are given, if and
    only if it is no rejected message without octets, or its name is not asked for or the same as the identity of the
    socket. -/
theorem tipcRecvfrom_eq_iff (host : Endian) (own : TipcAddr) (buf : Octets) (len : ℕ) (src dst err : Bool) (d : Delivery) :
    tipcRecvfrom (some own) buf len src dst err (d.recvd host len) = some (d.decoded own buf len src dst err) ↔
      (∀ m, d.body = .rejected m → m.data ≠ []) ∨ ∃ n, d.name = some n ∧ (dst → n.addr = own) := by
  obtain ⟨ref, node, body, name⟩ := d
  cases body with
  | normal data =>
    refine iff_of_true ?_ (.inl nofun)
    rw [tipcRecvfrom, Delivery.recvd, decodeError_normal, Option.map_some, decodeName_eq _ rfl]
    simp [Delivery.decoded, min_comm]
  | rejected m =>
    have hne := m.err_ne
    by_cases hm : m.data = []
    · -- the header of the name, if there is one, is taken for that of the octets
      have hleft : ¬ ∀ m', Body.rejected m = .rejected m' → m'.data ≠ [] := fun h => h m rfl hm
      rw [tipcRecvfrom, Delivery.recvd, decodeError_empty host _ len _ hm]
      cases name with
      | none =>
        refine iff_of_false nofun ?_
        rintro (h | ⟨n, hn, -⟩)
        · exact hleft h
        · nomatch hn
      | some n =>
        show some (decodeName (some own) src dst err _ ⟨m.err, 0, buf, []⟩) = _ ↔ _
        rw [@decodeName_eq own src dst err _ ⟨m.err, 0, buf, []⟩ none rfl]
        cases dst <;> cases err <;> simp [Delivery.decoded, hm, hne, @eq_comm _ own]
    · refine iff_of_true ?_ (.inl ?_)
      · rw [tipcRecvfrom, Delivery.recvd, decodeError_returned host _ len _ hm, Option.map_some, decodeName_eq _ rfl]
        cases err <;> simp [Delivery.decoded, hne]
      · rintro m' ⟨⟩
        exact hm

/-- A rejected message without octets, addressed to a port. -/
def emptyReject : Delivery := ⟨1, 0x01001001, .rejected ⟨2, [], by decide, by decide⟩, none⟩

/-- A missing header is read: the message has neither octets nor a name. -/
theorem recvfrom_fails : ¬ ∀ (host : Endian) (own : TipcAddr) (buf : Octets) (len : ℕ) (src dst err : Bool) (d : Delivery),
    tipcRecvfrom (some own) buf len src dst err (d.recvd host len) = some (d.decoded own buf len src dst err) := by
  intro h
  exact absurd (h .little ⟨0, 7, 0x01001001⟩ [] 0 true true true emptyReject) (by decide)

end Tipcc
end Tipcutils
