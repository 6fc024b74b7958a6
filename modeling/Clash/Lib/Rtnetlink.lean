import Clash.Lib.Memory
import Clash.Lib.Records

/-!
# Messages of rtnetlink

The structs, constants and macros of `<linux/netlink.h>`, `<linux/rtnetlink.h>`,
`<linux/if_addr.h>` and `<linux/if_link.h>`, for a little-endian machine.

## Main definitions

* `nlmsghdr`, `rtmsg`, `ifaddrmsg`, `ifinfomsg`, `rtattr`: the structs as bytes.
* `nlmsg`, `rta`: messages and attributes as length-prefixed records.
* `attributes`: the types and payloads that a loop over attributes finds.

## Main results

* `attributes_of_holds`: memory that holds attributes is read back as these attributes.
-/

open Memory Records

namespace Rtnetlink

/-! ## Constants -/

/-! ### Types and flags of messages -/

abbrev nlmsgError : ℕ := 2
abbrev nlmsgDone : ℕ := 3

abbrev rtmNewlink : ℕ := 16
abbrev rtmDellink : ℕ := 17
abbrev rtmNewaddr : ℕ := 20
abbrev rtmNewroute : ℕ := 24
abbrev rtmDelroute : ℕ := 25
abbrev rtmGetroute : ℕ := 26

abbrev nlmFRequest : ℕ := 0x1
abbrev nlmFMulti : ℕ := 0x2
abbrev nlmFAck : ℕ := 0x4
abbrev nlmFRoot : ℕ := 0x100
abbrev nlmFExcl : ℕ := 0x200
abbrev nlmFCreate : ℕ := 0x400

/-! ### Bytes of headers -/

abbrev afUnspec : UInt8 := 0
abbrev afInet : UInt8 := 2

/-- The table of ordinary routes. The attribute `rtaTable` has it as an integer. -/
abbrev rtTableMain : UInt8 := 254
/-- The table of the addresses of the links themselves. -/
abbrev rtTableLocal : UInt8 := 255

abbrev rtprotUnspec : UInt8 := 0
abbrev rtprotKernel : UInt8 := 2
abbrev rtprotBoot : UInt8 := 3
abbrev rtprotDhcp : UInt8 := 16

abbrev rtScopeUniverse : UInt8 := 0
abbrev rtScopeLink : UInt8 := 253
abbrev rtScopeHost : UInt8 := 254

abbrev rtnUnspec : UInt8 := 0
abbrev rtnUnicast : UInt8 := 1
/-- An address of the host itself. -/
abbrev rtnLocal : UInt8 := 2

/-- An address that stays. -/
abbrev ifaFPermanent : UInt8 := 0x80

/-! ### Types of attributes -/

abbrev rtaDst : ℕ := 1
abbrev rtaOif : ℕ := 4
abbrev rtaGateway : ℕ := 5
abbrev rtaPriority : ℕ := 6
abbrev rtaPrefsrc : ℕ := 7
abbrev rtaTable : ℕ := 15

abbrev ifaAddress : ℕ := 1
abbrev ifaLocal : ℕ := 2
abbrev ifaLabel : ℕ := 3
abbrev ifaFlags : ℕ := 8

abbrev iflaIfname : ℕ := 3

/-- The flag of a link that is up. -/
abbrev iffUp : ℕ := 1

/-! ## Structs -/

/-- `struct nlmsghdr`. -/
def nlmsghdr (len type flags seq pid : ℕ) : List UInt8 :=
  le32 len ++ le16 type ++ le16 flags ++ le32 seq ++ le32 pid

/-- `sizeof(struct nlmsghdr)`. -/
@[simp] theorem length_nlmsghdr (len type flags seq pid : ℕ) :
    (nlmsghdr len type flags seq pid).length = 16 := rfl

/-- `struct rtmsg`. -/
structure Rtmsg where
  family : UInt8
  dstLen : UInt8
  srcLen : UInt8
  tos : UInt8
  table : UInt8
  protocol : UInt8
  scope : UInt8
  type : UInt8
  flags : UInt32
  deriving DecidableEq, Repr

/-- The struct as it lies in memory. -/
def Rtmsg.bytes (r : Rtmsg) : List UInt8 :=
  [r.family, r.dstLen, r.srcLen, r.tos, r.table, r.protocol, r.scope, r.type] ++ le32 r.flags.toNat

/-- `sizeof(struct rtmsg)`. -/
@[simp] theorem Rtmsg.length_bytes (r : Rtmsg) : r.bytes.length = 12 := rfl

/-- The flags are read back from the bytes. -/
theorem Rtmsg.read_flags (r : Rtmsg) (rest : List UInt8) :
    UInt32.ofNat (ofLE (slice (le32 r.flags.toNat ++ rest) 0 4)) = r.flags := by
  have hread : ofLE (slice (le32 r.flags.toNat ++ rest) 0 4) = r.flags.toNat % 2 ^ 32 := ofLE_le32 _
  rw [hread, Nat.mod_eq_of_lt r.flags.toNat_lt, UInt32.ofNat_toNat]

/-- `struct ifaddrmsg`. -/
def ifaddrmsg (family prefixlen flags scope : UInt8) (index : ℕ) : List UInt8 :=
  [family, prefixlen, flags, scope] ++ le32 index

/-- `sizeof(struct ifaddrmsg)`. -/
@[simp] theorem length_ifaddrmsg (family prefixlen flags scope : UInt8) (index : ℕ) :
    (ifaddrmsg family prefixlen flags scope index).length = 8 := rfl

/-- `struct ifinfomsg`, with its padding. -/
def ifinfomsg (family : UInt8) (type index flags change : ℕ) : List UInt8 :=
  [family, 0] ++ le16 type ++ le32 index ++ le32 flags ++ le32 change

/-- `sizeof(struct ifinfomsg)`. -/
@[simp] theorem length_ifinfomsg (family : UInt8) (type index flags change : ℕ) :
    (ifinfomsg family type index flags change).length = 16 := rfl

/-- `RTA_LENGTH(len)`. -/
def rtaLength (len : ℕ) : ℕ := 4 + len

/-- `struct rtattr` and the payload behind it. -/
def rtattr (type : ℕ) (payload : List UInt8) : List UInt8 :=
  le16 (rtaLength payload.length) ++ le16 type ++ payload

/-- An attribute is as long as it says, without its padding. -/
theorem length_rtattr (type : ℕ) (payload : List UInt8) :
    (rtattr type payload).length = rtaLength payload.length := by
  simp [rtattr, rtaLength]
  omega

/-! ## Fields behind a pointer -/

/-- `nlmsg_len` of the message at a pointer. -/
def nlmsgLen (p : List UInt8) : ℕ := ofLE (slice p 0 4)
/-- `nlmsg_type`. -/
def nlmsgType (p : List UInt8) : ℕ := ofLE (slice p 4 2)
/-- `nlmsg_flags`. -/
def nlmsgFlags (p : List UInt8) : ℕ := ofLE (slice p 6 2)
/-- `nlmsg_seq`. -/
def nlmsgSeq (p : List UInt8) : ℕ := ofLE (slice p 8 4)
/-- `nlmsg_pid`. -/
def nlmsgPid (p : List UInt8) : ℕ := ofLE (slice p 12 4)

/-- `rta_len` of the attribute at a pointer. -/
def rtaLen (p : List UInt8) : ℕ := ofLE (slice p 0 2)
/-- `rta_type`. -/
def rtaType (p : List UInt8) : ℕ := ofLE (slice p 2 2)

/-- The bytes behind `RTA_DATA(p)`, `RTA_PAYLOAD(p)` many. -/
def rtaPayload (p : List UInt8) : List UInt8 := slice p 4 (rtaLen p - 4)

/-- `nlmsg_len` has 32 bits, whatever the memory holds. -/
theorem nlmsgLen_lt (p : List UInt8) : nlmsgLen p < 2 ^ 32 := by
  have hlt := ofLE_lt (slice p 0 4)
  have hlen : (slice p 0 4).length ≤ 4 := by
    rw [slice, List.length_take]
    omega
  exact Nat.lt_of_lt_of_le hlt (Nat.pow_le_pow_right (by decide) (by omega))

section Header

variable {len type flags seq pid : ℕ} {rest : List UInt8}

/-- The fields of a header are read back, each as far as its width goes. -/
theorem nlmsgLen_nlmsghdr (h : len < 2 ^ 32) :
    nlmsgLen (nlmsghdr len type flags seq pid ++ rest) = len :=
  (ofLE_le32 len).trans (Nat.mod_eq_of_lt h)

theorem nlmsgType_nlmsghdr (h : type < 2 ^ 16) :
    nlmsgType (nlmsghdr len type flags seq pid ++ rest) = type :=
  (ofLE_le16 type).trans (Nat.mod_eq_of_lt h)

theorem nlmsgFlags_nlmsghdr (h : flags < 2 ^ 16) :
    nlmsgFlags (nlmsghdr len type flags seq pid ++ rest) = flags :=
  (ofLE_le16 flags).trans (Nat.mod_eq_of_lt h)

theorem nlmsgSeq_nlmsghdr (h : seq < 2 ^ 32) :
    nlmsgSeq (nlmsghdr len type flags seq pid ++ rest) = seq :=
  (ofLE_le32 seq).trans (Nat.mod_eq_of_lt h)

theorem nlmsgPid_nlmsghdr (h : pid < 2 ^ 32) :
    nlmsgPid (nlmsghdr len type flags seq pid ++ rest) = pid :=
  (ofLE_le32 pid).trans (Nat.mod_eq_of_lt h)

end Header

/-! ## Messages and attributes as records -/

/-- A field depends only on the bytes up to its end. -/
private theorem slice_congr {p p' : List UInt8} {off n k : ℕ} (h : p.take k = p'.take k)
    (hk : off + n ≤ k) : slice p off n = slice p' off n := by
  rw [slice, slice, List.take_drop, List.take_drop, ← Nat.min_eq_left hk, ← List.take_take, h,
    List.take_take]

/-- `NLMSG_OK` and `NLMSG_NEXT`. -/
def nlmsg : Format where
  header := 16
  header_pos := by decide
  lengthAt := nlmsgLen
  lengthAt_congr _ _ h := congrArg ofLE (slice_congr h (by decide))

/-- `RTA_OK` and `RTA_NEXT`. -/
def rta : Format where
  header := 4
  header_pos := by decide
  lengthAt := rtaLen
  lengthAt_congr _ _ h := congrArg ofLE (slice_congr h (by decide))

/-- The types and payloads that a loop over attributes goes through, and the bytes it leaves. -/
def attributes (p : List UInt8) (rtl : ℤ) : List (ℕ × List UInt8) × ℤ :=
  let (ps, rem) := rta.walk p rtl
  (ps.map fun p => (rtaType p, rtaPayload p), rem)

variable {p : List UInt8} {type : ℕ} {payload : List UInt8}

/-- The length of an attribute is read back if it fits its field. -/
theorem rtaLen_rtattr (h : rtaLength payload.length < 2 ^ 16) (rest : List UInt8) :
    rtaLen (rtattr type payload ++ rest) = rtaLength payload.length :=
  (ofLE_le16 _).trans (Nat.mod_eq_of_lt h)

/-- A pointer to the bytes of an attribute whose length fits its field points to the attribute. -/
theorem pointsTo_rtattr (h : rtattr type payload <+: p) (hlen : rtaLength payload.length < 2 ^ 16) :
    rta.PointsTo p (rtattr type payload) := by
  obtain ⟨rest, rfl⟩ := h
  refine ⟨⟨rest, rfl⟩, ?_, ?_⟩
  · rw [length_rtattr]
    exact rtaLen_rtattr hlen rest
  · rw [length_rtattr]
    exact Nat.le_add_right 4 _

/-- A pointer to an attribute: its type and payload are what is read there. -/
theorem read_of_pointsTo (h : rta.PointsTo p (rtattr type payload)) (htype : type < 2 ^ 16) :
    (rtaType p, rtaPayload p) = (type, payload) := by
  obtain ⟨⟨rest, rfl⟩, hlen, -⟩ := h
  have htypeAt : rtaType (rtattr type payload ++ rest) = type :=
    (ofLE_le16 type).trans (Nat.mod_eq_of_lt htype)
  have hlenAt : rtaLen (rtattr type payload ++ rest) = 4 + payload.length :=
    hlen.trans (length_rtattr type payload)
  rw [htypeAt, rtaPayload, hlenAt, Nat.add_sub_cancel_left]
  simp [slice, rtattr, le16]

/-- Memory that holds attributes is read back as these attributes, with nothing left. -/
theorem attributes_of_holds {as : List (ℕ × List UInt8)} {n : ℕ} (htypes : ∀ a ∈ as, a.1 < 2 ^ 16)
    (h : rta.Holds p (as.map fun a => rtattr a.1 a.2) n) (hn : n + 3 < 2 ^ 32) :
    attributes p n = (as, 0) := by
  obtain ⟨ps, hwalk, hps⟩ := Format.walk_of_holds h hn
  rw [attributes, hwalk]
  refine Prod.ext ?_ rfl
  clear h hwalk
  induction as generalizing ps with
  | nil =>
    cases hps
    rfl
  | cons a as ih =>
    obtain ⟨p, ps', hp, hps', rfl⟩ := List.forall₂_cons_right_iff.mp hps
    rw [List.forall_mem_cons] at htypes
    exact congrArg₂ List.cons (read_of_pointsTo hp htypes.1) (ih htypes.2 ps' hps')

end Rtnetlink
