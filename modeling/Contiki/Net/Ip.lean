import Mathlib.Data.List.GetD
import Mathlib.Data.List.TakeDrop
import Mathlib.Tactic.Common

/-!
# IPv6 addresses

`uip_ipaddr_t` as sixteen bytes, with the macros and functions on addresses that the RPL code
uses: comparison up to a prefix length, link-local addresses, interface identifiers and the
compressed form of an address, which leaves its first `compr` bytes to the DODAGID.
-/

namespace Contiki

/-- `uip_ipaddr_t`: the sixteen bytes of an IPv6 address. -/
structure IpAddr where
  u8 : List UInt8
  length_u8 : u8.length = 16
deriving DecidableEq

/-- `uip_lladdr_t` of an IEEE 802.15.4 node: an EUI-64. -/
structure Lladdr where
  u8 : List UInt8
  length_u8 : u8.length = 8
deriving DecidableEq

lemma Lladdr.length_zeros : (List.replicate 8 (0 : UInt8)).length = 8 := rfl

namespace IpAddr

@[ext] lemma ext {a b : IpAddr} (h : a.u8 = b.u8) : a = b := by
  cases a; cases b; simp_all

/-- The address made of the first sixteen bytes of a list, which is filled up with zeros. -/
def ofBytes (l : List UInt8) : IpAddr :=
  ⟨(l ++ List.replicate 16 0).take 16, by simp⟩

/-- The all-zero address. -/
def unspecified : IpAddr := ofBytes []

instance : Inhabited IpAddr := ⟨unspecified⟩

lemma ofBytes_u8 {l : List UInt8} (h : l.length = 16) : (ofBytes l).u8 = l := by
  change (l ++ List.replicate 16 0).take 16 = l
  rw [List.take_append_of_le_length (by omega), List.take_of_length_le (by omega)]

@[simp] lemma ofBytes_self (a : IpAddr) : ofBytes a.u8 = a :=
  ext (ofBytes_u8 a.length_u8)

/-- `u8[15]`, the byte in which addresses of one network differ. -/
def lastByte (a : IpAddr) : UInt8 := a.u8.getD 15 0

/-- `uip_ipaddr_prefixcmp`: equality of the leading `length >> 3` bytes. -/
def uipIpaddrPrefixcmp (a b : IpAddr) (length : ℕ) : Bool :=
  a.u8.take (length >>> 3) == b.u8.take (length >>> 3)

def uipIsAddrLinkLocal (a : IpAddr) : Bool :=
  a.u8.getD 0 0 == 0xFE && a.u8.getD 1 0 == 0x80

def uipIsAddrMcast (a : IpAddr) : Bool := a.u8.getD 0 0 == 0xFF

/-- `uip_create_linklocal_prefix`: the first eight bytes become `fe80::`. -/
def uipCreateLinklocalPrefix (a : IpAddr) : IpAddr :=
  ofBytes ([0xfe, 0x80, 0, 0, 0, 0, 0, 0] ++ a.u8.drop 8)

/-- `uip_ds6_set_addr_iid`: the last eight bytes become the interface identifier that belongs
to a link-layer address. -/
def uipDs6SetAddrIid (a : IpAddr) (lladdr : Lladdr) : IpAddr :=
  ofBytes (a.u8.take 8 ++ (lladdr.u8.getD 0 0 ^^^ 0x02) :: lladdr.u8.drop 1)

/-- `uip_create_solicited_node`: the solicited-node multicast address of an address. -/
def uipCreateSolicitedNode (a : IpAddr) : IpAddr :=
  ofBytes ([0xFF, 0x02, 0, 0, 0, 0, 0, 0, 0, 0, 0, 0x01, 0xFF] ++ a.u8.drop 13)

/-- Copy the first `compr` bytes of `base` and put `bytes` behind them: the address that the
compressed form `bytes` stands for in the DODAG `base`. -/
def decompress (base : IpAddr) (compr : ℕ) (bytes : List UInt8) : IpAddr :=
  ofBytes (base.u8.take compr ++ bytes.take (16 - compr))

lemma uipIpaddrPrefixcmp_128 (a b : IpAddr) : a.uipIpaddrPrefixcmp b 128 = true ↔ a = b := by
  have hshift : (128 : ℕ) >>> 3 = 16 := by decide
  rw [uipIpaddrPrefixcmp, hshift, List.take_of_length_le (Nat.le_of_eq a.length_u8),
    List.take_of_length_le (Nat.le_of_eq b.length_u8), beq_iff_eq]
  exact ⟨ext, fun h => h ▸ rfl⟩

/-- An address matches itself whatever the length. -/
lemma uipIpaddrPrefixcmp_self (a : IpAddr) (n : ℕ) : a.uipIpaddrPrefixcmp a n = true := by
  simp [uipIpaddrPrefixcmp]

end IpAddr
end Contiki
