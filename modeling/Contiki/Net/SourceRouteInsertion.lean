import Contiki.Lib.Fallible
import Contiki.Net.Output
import Contiki.Net.RoutingHeader

/-!
# The routing header of a source route

`tcpip_ipv6_output` puts a routing header into a packet that takes a source route.  Only the length of
the packet without it is compared with the MTU, and neither with the size of `uip_buf`.  The index
that the header is written with has eight bits, and so has `uip_ext_len`.

* `IpStack.insertRh4_ok` — a header that has its place is inserted.
* `IpStack.insertsWell_iff` — when the packet stays in `uip_buf`, and `uip_process` finds the header as it
  was meant.
-/

namespace Contiki

namespace StackConfig
variable (cfg : StackConfig)

/-- The length of a routing header with the addresses of so many hops. -/
def rh4Len (hops : ℕ) : ℕ :=
  ((hops - 1) * (16 - cfg.rh4Cmpri.toNat) + (16 - cfg.rh4Cmpre.toNat) + 7) / 8 * 8 + 8

/-- The octets of the addresses in it. -/
def rh4Octets (hops : ℕ) : ℕ := (hops - 1) * (16 - cfg.rh4Cmpri.toNat) + (16 - cfg.rh4Cmpre.toNat)

/-- Where the last part of it that is not empty starts: the padding, or the destination. -/
def rh4Last (hops : ℕ) : ℕ :=
  8 + if cfg.rh4Octets hops % 8 = 0 then (hops - 1) * (16 - cfg.rh4Cmpri.toNat) else cfg.rh4Octets hops

end StackConfig

namespace IpStack

/-- The places that `putAll` writes to, each with its index of eight bits and its length. -/
def putAllPlaces : UInt8 → List (List UInt8) → List (ℕ × ℕ)
  | _, [] => []
  | pos, l :: ls => (pos.toNat, l.length) :: putAllPlaces (pos + UInt8.ofNat l.length) ls

variable {cfg : StackConfig} {δ : Type} (s t : IpStack cfg δ) (r : Fin cfg.srcRouteNb)

/-- The source route that the packet in `uip_buf` takes. -/
def srcRouteTaken : Option (Fin cfg.srcRouteNb) :=
  let dest := s.uipBuf.destipaddr
  if s.uipBuf.len = 0 ∨ s.uipBuf.len > s.node.linkMtu ∨ dest.uipIsAddrUnspecified ∨ dest.uipIsAddrMcast ∨
      s.node.isAddrOnlink dest then none
  else s.srcRoutingTable.uipDs6SrcRouteLookup dest

/-- The number of hops of a source route. -/
def hopCount : ℕ := (s.srcRoutingTable.hops r).length

/-- The place of the routing header in `uip_buf`. -/
def rh4Start : ℕ := cfg.llhLen.toNat + uipIphLen + s.uipExtLen.toNat

/-- The places that the octets of the routing header are written to. -/
def rh4Places : List (ℕ × ℕ) :=
  putAllPlaces (UInt8.ofNat s.rh4Start) ([s.uipBuf.bytes 6] ::
    rh4Parts cfg (s.srcRoutingTable.hops r) (s.srcRoutingTable.routes r).ipaddr)

/-- The packet has grown by a header of `size` octets and still fits into `uip_buf`, and so does
`uip_ext_len`; the length of the header and the number of its addresses are those that `uip_process`
computes. -/
structure HasHeader (size : ℕ) : Prop where
  len : t.uipBuf.len.toNat = s.uipBuf.len.toNat + size
  room : t.uipBuf.len.toNat ≤ cfg.bufsize.toNat
  extLen : t.uipExtLen.toNat = s.uipExtLen.toNat + size
  hdrLen : t.uipBuf.extHdrLen (uipIphLen + s.uipExtLen.toNat) = size
  count : t.uipBuf.routingCount (uipIphLen + s.uipExtLen.toNat) =
    t.uipBuf.bytes (uipIphLen + s.uipExtLen.toNat + 3)

/-- The routing header for a source route is inserted without an access out of bounds, and written to
the room that is made for it. -/
def InsertsWell : Prop :=
  (∃ a t, s.insertRh4 r = .ok (a, t) ∧ s.HasHeader t (cfg.rh4Len (s.hopCount r))) ∧
    ∀ w ∈ s.rh4Places r, w.2 = 0 ∨
      s.rh4Start ≤ w.1 ∧ w.1 + w.2 ≤ s.rh4Start + cfg.rh4Len (s.hopCount r)

/-- The route has a hop, and the packet has its headers; there is room for the routing header behind
it, and the last part of the header starts at an index of eight bits. -/
structure RoutePlaced : Prop where
  hops : s.srcRoutingTable.hops r ≠ []
  headers : uipIphLen + s.uipExtLen.toNat ≤ s.uipBuf.len.toNat
  room : s.uipBuf.len.toNat + cfg.rh4Len (s.hopCount r) ≤ cfg.bufsize.toNat
  index : s.rh4Start + cfg.rh4Last (s.hopCount r) < 256

end IpStack

/-! ## The arithmetic of eight bits -/

namespace StackConfig
variable {cfg : StackConfig} {hops : ℕ}

lemma rh4Len_eq (cfg : StackConfig) (hops : ℕ) :
    cfg.rh4Len hops = (cfg.rh4Octets hops + 7) / 8 * 8 + 8 := rfl

lemma rh4Len_pos (cfg : StackConfig) (hops : ℕ) : 8 ≤ cfg.rh4Len hops := by
  unfold rh4Len
  omega

/-- The number of hops for which the length of a routing header is one of eight bits. -/
lemma hops_lt (h : cfg.rh4Len hops ≤ 248) : hops < 256 := by
  have hcmpri : cfg.rh4Cmpri.toNat < 16 := cfg.cmpri_lt
  have hle : hops - 1 ≤ (hops - 1) * (16 - cfg.rh4Cmpri.toNat) := Nat.le_mul_of_pos_right _ (by omega)
  unfold rh4Len at h
  omega

/-- The arithmetic of eight bits is exact for a routing header whose length has eight bits: the length,
the padding, and the length as it is written. -/
lemma rhLen_toNat (hpos : 0 < hops) (h : cfg.rh4Len hops ≤ 248) :
    (cfg.rhLen (UInt8.ofNat hops)).toNat = cfg.rh4Len hops ∧
      (cfg.rh4Pad (UInt8.ofNat hops)).toNat + 8 + cfg.rh4Octets hops = cfg.rh4Len hops ∧
      (cfg.hdrExtLen (UInt8.ofNat hops)).toNat * 8 + 8 = cfg.rh4Len hops := by
  have hlt := hops_lt h
  have hcmpri : cfg.rh4Cmpri.toNat < 16 := cfg.cmpri_lt
  have hcmpre : cfg.rh4Cmpre.toNat < 16 := cfg.cmpre_lt
  rw [rh4Len_eq] at h ⊢
  have hcount : (UInt8.ofNat hops - 1).toNat = hops - 1 := by
    rw [UInt8.toNat_sub]
    simp only [UInt8.toNat_ofNat', UInt8.toNat_one]
    omega
  have hi : ((16 : UInt8) - cfg.rh4Cmpri).toNat = 16 - cfg.rh4Cmpri.toNat := by
    rw [UInt8.toNat_sub, show (16 : UInt8).toNat = 16 from rfl]
    omega
  have he : ((16 : UInt8) - cfg.rh4Cmpre).toNat = 16 - cfg.rh4Cmpre.toNat := by
    rw [UInt8.toNat_sub, show (16 : UInt8).toNat = 16 from rfl]
    omega
  have hvector : (cfg.addrVectorLen (UInt8.ofNat hops)).toNat = cfg.rh4Octets hops := by
    unfold addrVectorLen
    unfold rh4Octets at h ⊢
    rw [UInt8.toNat_add, UInt8.toNat_mul, hcount, hi, he]
    generalize (hops - 1) * (16 - cfg.rh4Cmpri.toNat) = rest at h ⊢
    omega
  have hext : (cfg.hdrExtLen (UInt8.ofNat hops)).toNat = (cfg.rh4Octets hops + 7) / 8 := by
    unfold hdrExtLen
    rw [hvector, UInt8.toNat_ofNat']
    omega
  refine ⟨?_, ?_, ?_⟩
  · unfold rhLen
    rw [UInt8.toNat_add, UInt8.toNat_mul, hext, show (8 : UInt8).toNat = 8 from rfl]
    omega
  · unfold rh4Pad
    rw [UInt8.toNat_sub, UInt8.toNat_mul, hext, hvector, show (8 : UInt8).toNat = 8 from rfl]
    omega
  · rw [hext]

/-- The last part has sixteen octets at most, and at least one. -/
lemma rh4Len_last (cfg : StackConfig) (hops : ℕ) :
    cfg.rh4Last hops < cfg.rh4Len hops ∧ cfg.rh4Len hops ≤ cfg.rh4Last hops + 16 := by
  have hcmpre : cfg.rh4Cmpre.toNat < 16 := cfg.cmpre_lt
  rw [rh4Len_eq]
  unfold rh4Last
  split_ifs with hpad
  · unfold rh4Octets at hpad ⊢
    omega
  · omega

end StackConfig

namespace IpStack
variable {cfg : StackConfig} {δ : Type} {s t : IpStack cfg δ} {r : Fin cfg.srcRouteNb}

/-! ## Writes one behind the other -/

lemma writeBuf_nil (s : IpStack cfg δ) (pos : ℕ) : s.writeBuf pos [] = s := by
  unfold writeBuf
  rw [memcpy_of_holds holds_nil]

lemma writeBuf_writeBuf (s : IpStack cfg δ) (pos : ℕ) (l l' : List UInt8) :
    (s.writeBuf pos l).writeBuf (pos + l.length) l' = s.writeBuf pos (l ++ l') := by
  unfold writeBuf
  rw [← memcpy_memcpy]

lemma putAll_append (ls ls' : List (List UInt8)) (pos : UInt8) (s : IpStack cfg δ) :
    putAll pos (ls ++ ls') s = putAll pos ls s >>= fun x => putAll x.1 ls' x.2 := by
  induction ls generalizing pos s with
  | nil => rfl
  | cons l ls ih =>
    rw [List.cons_append, putAll, putAll]
    cases s.putAt pos l with
    | error f => rfl
    | ok x => exact ih x.1 x.2

lemma putAllPlaces_append (ls ls' : List (List UInt8)) (pos : UInt8) :
    putAllPlaces pos (ls ++ ls') =
      putAllPlaces pos ls ++ putAllPlaces (pos + UInt8.ofNat ls.flatten.length) ls' := by
  induction ls generalizing pos with
  | nil =>
    have hzero : pos + UInt8.ofNat ([] : List (List UInt8)).flatten.length = pos := UInt8.add_zero pos
    rw [hzero]
    rfl
  | cons l ls ih =>
    have hadd : pos + UInt8.ofNat (l :: ls).flatten.length =
        pos + UInt8.ofNat l.length + UInt8.ofNat ls.flatten.length := by
      rw [List.flatten_cons, List.length_append, UInt8.ofNat_add, UInt8.add_assoc]
    rw [List.cons_append, putAllPlaces, putAllPlaces, ih, List.cons_append, hadd]

/-- An index that does not wrap around. -/
lemma add_ofNat_toNat {pos : UInt8} {n : ℕ} (h : pos.toNat + n < 256) :
    (pos + UInt8.ofNat n).toNat = pos.toNat + n := by
  rw [UInt8.toNat_add, UInt8.toNat_ofNat']
  omega

/-- Writes whose indices do not wrap around lie one behind the other. -/
lemma putAllPlaces_between {ls : List (List UInt8)} {pos : UInt8}
    (h : pos.toNat + ls.flatten.length < 256) :
    ∀ w ∈ putAllPlaces pos ls, pos.toNat ≤ w.1 ∧ w.1 + w.2 ≤ pos.toNat + ls.flatten.length := by
  induction ls generalizing pos with
  | nil => exact fun w hw => absurd hw List.not_mem_nil
  | cons l ls ih =>
    intro w hw
    rw [List.flatten_cons, List.length_append] at h ⊢
    have hnext : (pos + UInt8.ofNat l.length).toNat = pos.toNat + l.length :=
      add_ofNat_toNat (by omega)
    rcases List.mem_cons.mp hw with rfl | hw
    · dsimp only
      omega
    · obtain ⟨hlow, hhigh⟩ := ih (by rw [hnext]; omega) w hw
      rw [hnext] at hlow hhigh
      omega

/-- They are one write. -/
lemma putAll_eq {ls : List (List UInt8)} {pos : UInt8} (hllh : cfg.llhLen.toNat ≤ pos.toNat)
    (hindex : pos.toNat + ls.flatten.length < 256)
    (hfit : pos.toNat + ls.flatten.length ≤ cfg.llhLen.toNat + cfg.bufsize.toNat) :
    putAll pos ls s = .ok (pos + UInt8.ofNat ls.flatten.length,
      s.writeBuf (pos.toNat - cfg.llhLen.toNat) ls.flatten) := by
  induction ls generalizing pos s with
  | nil =>
    rw [List.flatten_nil, writeBuf_nil]
    show Except.ok (pos, s) = _
    rw [List.length_nil, show UInt8.ofNat 0 = 0 from rfl, UInt8.add_zero]
  | cons l ls ih =>
    rw [List.flatten_cons, List.length_append] at hindex hfit
    have hnext : (pos + UInt8.ofNat l.length).toNat = pos.toNat + l.length :=
      add_ofNat_toNat (by omega)
    have hput : s.putAt pos l = .ok (pos + UInt8.ofNat l.length,
        s.writeBuf (pos.toNat - cfg.llhLen.toNat) l) :=
      if_pos (.inr ⟨UInt8.le_iff_toNat_le.mpr hllh, by omega⟩)
    rw [putAll, hput, ok_bind]
    dsimp only
    rw [ih (by omega) (by omega) (by omega), hnext, List.flatten_cons, List.length_append,
      UInt8.ofNat_add, UInt8.add_assoc]
    have hbehind : pos.toNat + l.length - cfg.llhLen.toNat =
        pos.toNat - cfg.llhLen.toNat + l.length := by omega
    rw [hbehind, writeBuf_writeBuf]

/-- Writes to places from `lo` on, by induction on the writes: the octets in front of `lo` stay. -/
lemma putAll_ok {lo : ℕ} (hlo : cfg.llhLen.toNat ≤ lo) {ls : List (List UInt8)} {pos : UInt8}
    (h : ∀ w ∈ putAllPlaces pos ls, w.2 = 0 ∨
      lo ≤ w.1 ∧ w.1 + w.2 ≤ cfg.llhLen.toNat + cfg.bufsize.toNat) :
    ∃ pos' t, putAll pos ls s = .ok (pos', t) ∧ t.uipBuf.len = s.uipBuf.len ∧
      t.uipExtLen = s.uipExtLen ∧
      ∀ k, k + cfg.llhLen.toNat < lo → t.uipBuf.bytes k = s.uipBuf.bytes k := by
  induction ls generalizing pos s with
  | nil => exact ⟨pos, s, rfl, rfl, rfl, fun _ _ => rfl⟩
  | cons l ls ih =>
    obtain ⟨hhead, hrest⟩ := List.forall_mem_cons.mp h
    have hput : s.putAt pos l = .ok (pos + UInt8.ofNat l.length,
        s.writeBuf (pos.toNat - cfg.llhLen.toNat) l) := by
      refine if_pos ?_
      rcases hhead with hnil | ⟨hlow, hhigh⟩
      · exact .inl (List.eq_nil_of_length_eq_zero hnil)
      · exact .inr ⟨UInt8.le_iff_toNat_le.mpr (hlo.trans hlow), hhigh⟩
    obtain ⟨pos', t, ht, hlen, hext, hkeep⟩ :=
      ih (s := s.writeBuf (pos.toNat - cfg.llhLen.toNat) l) hrest
    refine ⟨pos', t, ?_, hlen, hext, fun k hk => ?_⟩
    · rw [putAll, hput]
      exact ht
    · rw [hkeep k hk]
      refine memcpy_of_notMem ?_
      rcases hhead with hnil | ⟨hlow, hhigh⟩
      · have hlength : l.length = 0 := hnil
        omega
      · have hstart : lo ≤ pos.toNat := hlow
        omega

/-! ## The parts of the header -/

lemma flatten_map_drop_length (l : List IpAddr) (n : ℕ) :
    (l.map fun a => a.u8.drop n).flatten.length = l.length * (16 - n) := by
  induction l with
  | nil => rw [List.map_nil, List.flatten_nil, List.length_nil, List.length_nil, Nat.zero_mul]
  | cons a l ih =>
    rw [List.map_cons, List.flatten_cons, List.length_append, ih, List.length_drop, a.length_u8,
      List.length_cons, Nat.succ_mul, Nat.add_comm]

variable (cfg) in
/-- The rest of the first eight octets of the header. -/
def rh4Fixed (addrCount : UInt8) : List UInt8 :=
  [cfg.hdrExtLen addrCount, 4, addrCount, cfg.rh4Cmpri <<< 4 ||| (cfg.rh4Cmpre &&& 0x0f),
    cfg.rh4Pad addrCount <<< 4, 0, 0]

variable (cfg) in
/-- The addresses behind the first hop. -/
def rh4Hops (hops : List IpAddr) : List (List UInt8) :=
  hops.tail.map fun a => a.u8.drop cfg.rh4Cmpri.toNat

variable (cfg) in
/-- The destination and the padding. -/
def rh4End (addrCount : UInt8) (dest : IpAddr) : List (List UInt8) :=
  [dest.u8.drop cfg.rh4Cmpre.toNat, List.replicate (cfg.rh4Pad addrCount).toNat 0]

lemma rh4Parts_eq (hops : List IpAddr) (dest : IpAddr) :
    rh4Parts cfg hops dest = (rh4Fixed cfg (UInt8.ofNat hops.length)).map (fun b => [b]) ++
      (rh4Hops cfg hops ++ rh4End cfg (UInt8.ofNat hops.length) dest) := rfl

/-- The places of the destination and the padding. -/
lemma putAllPlaces_rh4End (pos addrCount : UInt8) (dest : IpAddr) :
    putAllPlaces pos (rh4End cfg addrCount dest) =
      [(pos.toNat, 16 - cfg.rh4Cmpre.toNat),
        ((pos + UInt8.ofNat (16 - cfg.rh4Cmpre.toNat)).toNat, (cfg.rh4Pad addrCount).toNat)] := by
  unfold rh4End
  rw [putAllPlaces, putAllPlaces, putAllPlaces, List.length_drop, dest.length_u8, List.length_replicate]

lemma flatten_rh4Hops (hops : List IpAddr) :
    (rh4Hops cfg hops).flatten.length = (hops.length - 1) * (16 - cfg.rh4Cmpri.toNat) := by
  unfold rh4Hops
  rw [flatten_map_drop_length, List.length_tail]

lemma flatten_map_singleton (l : List UInt8) : (l.map fun b => [b]).flatten = l := by
  induction l with
  | nil => rfl
  | cons b l ih => rw [List.map_cons, List.flatten_cons, ih, List.singleton_append]

variable (s r) in
/-- The places of the addresses and the padding. -/
def addrPlaces : List (ℕ × ℕ) :=
  putAllPlaces (UInt8.ofNat (s.rh4Start + 8)) (rh4Hops cfg (s.srcRoutingTable.hops r) ++
    rh4End cfg (UInt8.ofNat (s.hopCount r)) (s.srcRoutingTable.routes r).ipaddr)

lemma rh4Places_eq : s.rh4Places r =
    putAllPlaces (UInt8.ofNat s.rh4Start) ([s.uipBuf.bytes 6] ::
      (rh4Fixed cfg (UInt8.ofNat (s.hopCount r))).map (fun b => [b])) ++ s.addrPlaces r := by
  unfold rh4Places addrPlaces
  rw [rh4Parts_eq, ← List.cons_append, putAllPlaces_append, List.flatten_cons, flatten_map_singleton,
    UInt8.ofNat_add]
  rfl

lemma addrPlaces_eq : s.addrPlaces r =
    putAllPlaces (UInt8.ofNat (s.rh4Start + 8)) (rh4Hops cfg (s.srcRoutingTable.hops r)) ++
      [((s.rh4Start + 8 + (s.hopCount r - 1) * (16 - cfg.rh4Cmpri.toNat)) % 256,
        16 - cfg.rh4Cmpre.toNat),
      ((s.rh4Start + 8 + cfg.rh4Octets (s.hopCount r)) % 256,
        (cfg.rh4Pad (UInt8.ofNat (s.hopCount r))).toNat)] := by
  unfold addrPlaces StackConfig.rh4Octets
  rw [putAllPlaces_append, flatten_rh4Hops, putAllPlaces_rh4End, ← UInt8.ofNat_add, ← UInt8.ofNat_add,
    UInt8.toNat_ofNat', UInt8.toNat_ofNat', ← Nat.add_assoc]
  rfl

/-- When the last part that is not empty has an index of eight bits, the addresses and the padding lie
behind the first eight octets of the header, in the room for it. -/
lemma addrPlaces_behind (hhops : s.srcRoutingTable.hops r ≠ [])
    (hindex : s.rh4Start + cfg.rh4Last (s.hopCount r) < 256) :
    ∀ w ∈ s.addrPlaces r, w.2 = 0 ∨
      s.rh4Start + 8 ≤ w.1 ∧ w.1 + w.2 ≤ s.rh4Start + cfg.rh4Len (s.hopCount r) := by
  have hpositive : 0 < s.hopCount r := List.length_pos_iff.mpr hhops
  have hstart : 40 ≤ s.rh4Start := by
    unfold rh4Start uipIphLen
    omega
  obtain ⟨-, hlast⟩ := cfg.rh4Len_last (s.hopCount r)
  obtain ⟨-, hpad, -⟩ := @StackConfig.rhLen_toNat cfg _ hpositive (by omega)
  have hcmpre : cfg.rh4Cmpre.toNat < 16 := cfg.cmpre_lt
  have hdest : (s.hopCount r - 1) * (16 - cfg.rh4Cmpri.toNat) + (16 - cfg.rh4Cmpre.toNat) =
    cfg.rh4Octets (s.hopCount r) := rfl
  have hlastDest : 8 + (s.hopCount r - 1) * (16 - cfg.rh4Cmpri.toNat) ≤ cfg.rh4Last (s.hopCount r) := by
    unfold StackConfig.rh4Last
    split_ifs
    · exact Nat.le_refl _
    · omega
  rw [addrPlaces_eq]
  intro w hw
  rcases List.mem_append.mp hw with hw | hw
  · have hstartNat : (UInt8.ofNat (s.rh4Start + 8)).toNat = s.rh4Start + 8 := by
      rw [UInt8.toNat_ofNat']
      omega
    have hlength := @flatten_rh4Hops cfg (s.srcRoutingTable.hops r)
    have hbetween := putAllPlaces_between (by rw [hstartNat, hlength]; show _ + (s.hopCount r - 1) * _ < _; omega) w hw
    rw [hstartNat, hlength] at hbetween
    exact .inr ⟨hbetween.1, hbetween.2.trans (by show _ + (s.hopCount r - 1) * _ ≤ _; omega)⟩
  rw [List.mem_cons, List.mem_singleton] at hw
  rcases hw with rfl | rfl
  · dsimp only
    omega
  · dsimp only
    by_cases hzero : (cfg.rh4Pad (UInt8.ofNat (s.hopCount r))).toNat = 0
    · exact .inl hzero
    · -- there is padding, so it is the last part
      have hlen := cfg.rh4Len_eq (s.hopCount r)
      have hlastPad : cfg.rh4Last (s.hopCount r) = 8 + cfg.rh4Octets (s.hopCount r) := by
        unfold StackConfig.rh4Last
        rw [if_neg (by omega)]
      omega

/-- All octets of the header lie in the room for it. -/
lemma rh4Places_inside (hhops : s.srcRoutingTable.hops r ≠ [])
    (hindex : s.rh4Start + cfg.rh4Last (s.hopCount r) < 256) :
    ∀ w ∈ s.rh4Places r, w.2 = 0 ∨
      s.rh4Start ≤ w.1 ∧ w.1 + w.2 ≤ s.rh4Start + cfg.rh4Len (s.hopCount r) := by
  rw [rh4Places_eq]
  intro w hw
  rcases List.mem_append.mp hw with hw | hw
  · right
    have hlast : 8 ≤ cfg.rh4Last (s.hopCount r) := Nat.le_add_right 8 _
    have hlen := cfg.rh4Len_pos (s.hopCount r)
    have hstartNat : (UInt8.ofNat s.rh4Start).toNat = s.rh4Start := by
      rw [UInt8.toNat_ofNat']
      omega
    have hbetween := putAllPlaces_between (by
      rw [hstartNat, List.flatten_cons, flatten_map_singleton]
      show s.rh4Start + 8 < 256
      omega) w hw
    rw [hstartNat, List.flatten_cons, flatten_map_singleton] at hbetween
    have hhigh : w.1 + w.2 ≤ s.rh4Start + 8 := hbetween.2
    omega
  · have hbehind := addrPlaces_behind hhops hindex w hw
    omega

/-- An index that wraps around does not lie in the room for the header. -/
lemma index_of_places (hhops : s.srcRoutingTable.hops r ≠ []) (hsize : cfg.rh4Len (s.hopCount r) ≤ 248)
    (h : ∀ w ∈ s.rh4Places r, w.2 = 0 ∨
      s.rh4Start ≤ w.1 ∧ w.1 + w.2 ≤ s.rh4Start + cfg.rh4Len (s.hopCount r)) :
    s.rh4Start + cfg.rh4Last (s.hopCount r) < 256 := by
  have hpositive : 0 < s.hopCount r := List.length_pos_iff.mpr hhops
  obtain ⟨-, hpad, -⟩ := StackConfig.rhLen_toNat hpositive hsize
  have hcmpre : cfg.rh4Cmpre.toNat < 16 := cfg.cmpre_lt
  have hdest : (s.hopCount r - 1) * (16 - cfg.rh4Cmpri.toNat) + (16 - cfg.rh4Cmpre.toNat) =
    cfg.rh4Octets (s.hopCount r) := rfl
  rw [rh4Places_eq, addrPlaces_eq] at h
  have hdestPlace := h _ (List.mem_append_right _ (List.mem_append_right _ List.mem_cons_self))
  have hpadPlace := h _ (List.mem_append_right _ (List.mem_append_right _
    (List.mem_cons_of_mem _ List.mem_cons_self)))
  have hlen := cfg.rh4Len_eq (s.hopCount r)
  dsimp only at hdestPlace hpadPlace
  unfold StackConfig.rh4Last
  split_ifs with hfull
  · omega
  · omega

/-! ## The header as it is read -/

/-- The two halves of the compression. -/
lemma cmpr_byte {i e : UInt8} (hi : i < 16) (he : e < 16) :
    (i <<< 4 ||| (e &&& 0x0f)) >>> 4 = i ∧ (i <<< 4 ||| (e &&& 0x0f)) &&& 0x0f = e := by
  obtain ⟨hi', -⟩ := nibble_of_lt hi
  obtain ⟨he', -⟩ := nibble_of_lt he
  rw [← hi', ← he']
  constructor
  · apply UInt8.eq_of_toBitVec_eq
    ext k hk
    interval_cases k <;> simp
  · apply UInt8.eq_of_toBitVec_eq
    ext k hk
    interval_cases k <;> simp

/-- `uip_process` computes the length of the header and the number of its addresses as they were
written. -/
lemma routingCount_of_holds {p : UipBuf} {base hops : ℕ} (hpos : 0 < hops)
    (hsize : cfg.rh4Len hops ≤ 248)
    (h : Holds p.bytes (base + 1) (rh4Fixed cfg (UInt8.ofNat hops))) :
    p.extHdrLen base = cfg.rh4Len hops ∧ p.routingCount base = p.bytes (base + 3) := by
  obtain ⟨-, hpad, hext⟩ := StackConfig.rhLen_toNat hpos hsize
  obtain ⟨hlen, -, hcount, hcmpr, hpadByte, -⟩ := h
  obtain ⟨hi, he⟩ := cmpr_byte cfg.cmpri_lt cfg.cmpre_lt
  have hcmpri : cfg.rh4Cmpri.toNat < 16 := cfg.cmpri_lt
  have hcmpre : cfg.rh4Cmpre.toNat < 16 := cfg.cmpre_lt
  have hsizeEq := cfg.rh4Len_eq hops
  have hsize8 : p.extHdrLen base = cfg.rh4Len hops := by
    unfold UipBuf.extHdrLen
    rw [hlen, hext]
  have hcmprI : p.cmprI base = cfg.rh4Cmpri.toNat := by
    unfold UipBuf.cmprI
    rw [hcmpr, hi]
  have hcmprE : p.cmprE base = cfg.rh4Cmpre.toNat := by
    unfold UipBuf.cmprE
    rw [hcmpr, he]
  have hroutingPad : p.routingPad base = (cfg.rh4Pad (UInt8.ofNat hops)).toNat := by
    have hsmall : cfg.rh4Pad (UInt8.ofNat hops) < 16 := by
      show (cfg.rh4Pad (UInt8.ofNat hops)).toNat < 16
      omega
    obtain ⟨hback, -⟩ := cmpr_byte (e := 0) hsmall (by decide)
    rw [UInt8.zero_and, UInt8.or_zero] at hback
    unfold UipBuf.routingPad
    rw [hpadByte, hback]
  have hroom : p.routingRoom base + 8 = cfg.rh4Len hops := hsize8
  refine ⟨hsize8, ?_⟩
  have hrest : cfg.rh4Octets hops = (hops - 1) * (16 - cfg.rh4Cmpri.toNat) + (16 - cfg.rh4Cmpre.toNat) :=
    rfl
  have hhops := StackConfig.hops_lt hsize
  apply UInt8.toNat_inj.mp
  rw [UipBuf.routingCount_of_le (by omega), hcmprI, hcmprE, hroutingPad, hcount]
  have hquot : p.routingRoom base + cfg.rh4Cmpre.toNat - (cfg.rh4Pad (UInt8.ofNat hops)).toNat - 16 =
      (hops - 1) * (16 - cfg.rh4Cmpri.toNat) := by omega
  rw [hquot, Nat.mul_div_cancel _ (by omega), UInt8.toNat_ofNat']
  omega

/-! ## The insertion -/

lemma addRhLen_bytes (s : IpStack cfg δ) (rhLen : UInt8) {k : ℕ} (hk : 6 ≤ k) :
    (s.addRhLen rhLen).uipBuf.bytes k = s.uipBuf.bytes k :=
  memcpy_of_notMem (.inr hk)

/-- A routing header that has its place is inserted. -/
lemma insertRh4_ok (h : s.RoutePlaced r) :
    ∃ a t, s.insertRh4 r = .ok (a, t) ∧ s.HasHeader t (cfg.rh4Len (s.hopCount r)) := by
  obtain ⟨hhops, hheaders, hroom, hindex⟩ := h
  have hpositive : 0 < s.hopCount r := List.length_pos_iff.mpr hhops
  have hstart : s.rh4Start = cfg.llhLen.toNat + uipIphLen + s.uipExtLen.toNat := rfl
  have hiph : uipIphLen = 40 := rfl
  obtain ⟨-, hlast⟩ := cfg.rh4Len_last (s.hopCount r)
  have hlastPos : 8 ≤ cfg.rh4Last (s.hopCount r) := Nat.le_add_right 8 _
  have hlenPos := cfg.rh4Len_pos (s.hopCount r)
  have hsize : cfg.rh4Len (s.hopCount r) ≤ 248 := by
    have hlen := cfg.rh4Len_eq (s.hopCount r)
    omega
  obtain ⟨hrh, -, -⟩ := StackConfig.rhLen_toNat hpositive hsize
  have hbehind := addrPlaces_behind hhops hindex
  set rhLen := cfg.rhLen (UInt8.ofNat (s.hopCount r)) with hrhLen
  set pos := UInt8.ofNat s.rh4Start with hpos
  have hposNat : pos.toNat = s.rh4Start := by
    rw [hpos, UInt8.toNat_ofNat']
    omega
  have hllh : cfg.llhLen ≤ pos := by
    rw [UInt8.le_iff_toNat_le, hposNat]
    omega
  obtain ⟨nexthop, rest, hl⟩ := List.exists_cons_of_ne_nil hhops
  -- room is made, and the first hop becomes the destination
  obtain ⟨t₀, hmake, hlen₀, hext₀, hroute₀⟩ : ∃ t₀, s.makeRoom pos rhLen = .ok t₀ ∧
      t₀.uipBuf.len = s.uipBuf.len ∧ t₀.uipExtLen = s.uipExtLen ∧
      t₀.srcRoutingTable = s.srcRoutingTable :=
    ⟨_, if_pos ⟨hheaders, hllh, by omega⟩, rfl, rfl, rfl⟩
  set t₁ := t₀.setDestipaddr nexthop with ht₁
  -- the first octet
  have hput : t₁.putAt pos [t₁.uipBuf.bytes 6] = .ok (pos + UInt8.ofNat 1,
      t₁.writeBuf (pos.toNat - cfg.llhLen.toNat) [t₁.uipBuf.bytes 6]) :=
    if_pos (.inr ⟨hllh, by rw [List.length_singleton]; omega⟩)
  set t₂ := (t₁.writeBuf (pos.toNat - cfg.llhLen.toNat) [t₁.uipBuf.bytes 6]).writeBuf 6 [43] with ht₂
  have hnext : (pos + UInt8.ofNat 1).toNat = s.rh4Start + 1 := by
    rw [add_ofNat_toNat (by omega), hposNat]
  -- the rest of the first eight
  have hfixed : putAll (pos + UInt8.ofNat 1)
      ((rh4Fixed cfg (UInt8.ofNat (s.hopCount r))).map fun b => [b]) t₂ =
      .ok (UInt8.ofNat (s.rh4Start + 8), t₂.writeBuf (s.rh4Start + 1 - cfg.llhLen.toNat)
        (rh4Fixed cfg (UInt8.ofNat (s.hopCount r)))) := by
    have hseven : (rh4Fixed cfg (UInt8.ofNat (s.hopCount r))).length = 7 := rfl
    rw [putAll_eq (by omega) (by rw [flatten_map_singleton]; omega)
      (by rw [flatten_map_singleton]; omega), flatten_map_singleton, hnext, hseven, hpos,
      ← UInt8.ofNat_add, ← UInt8.ofNat_add]
  set t₃ := t₂.writeBuf (s.rh4Start + 1 - cfg.llhLen.toNat)
    (rh4Fixed cfg (UInt8.ofNat (s.hopCount r))) with ht₃
  -- the addresses and the padding
  obtain ⟨pos', t₄, haddrs, hlen₄, hext₄, hkeep⟩ := putAll_ok (s := t₃)
    (show cfg.llhLen.toNat ≤ s.rh4Start + 8 by omega) fun w hw => (hbehind w hw).imp_right fun hw => ⟨hw.1, by omega⟩
  have hinsert : s.insertRh4 r = .ok (nexthop, t₄.addRhLen rhLen) := by
    have hall : putAll (pos + UInt8.ofNat 1) (rh4Parts cfg (s.srcRoutingTable.hops r)
        (t₂.srcRoutingTable.routes r).ipaddr) t₂ = .ok (pos', t₄) := by
      have hroute : t₂.srcRoutingTable = s.srcRoutingTable := hroute₀
      rw [rh4Parts_eq, putAll_append, hroute]
      show (putAll _ ((rh4Fixed cfg (UInt8.ofNat (s.hopCount r))).map _) _ >>= _) = _
      rw [hfixed]
      exact haddrs
    unfold insertRh4
    dsimp only
    split
    · next hnil => exact absurd hnil hhops
    · next a _ hcons =>
      obtain ⟨rfl, -⟩ := List.cons.inj (hl.symm.trans hcons)
      show (s.makeRoom pos rhLen >>= _) = _
      rw [hmake, ok_bind]
      show (t₁.putAt pos [t₁.uipBuf.bytes 6] >>= _) = _
      rw [hput, ok_bind]
      show (putAll _ _ t₂ >>= _) = _
      rw [hall]
      rfl
  have hlen : t₄.uipBuf.len = s.uipBuf.len := hlen₄.trans hlen₀
  have hext : t₄.uipExtLen = s.uipExtLen := hext₄.trans hext₀
  have hheld : Holds (t₄.addRhLen rhLen).uipBuf.bytes (uipIphLen + s.uipExtLen.toNat + 1)
      (rh4Fixed cfg (UInt8.ofNat (s.hopCount r))) := by
    have hplace : s.rh4Start + 1 - cfg.llhLen.toNat = uipIphLen + s.uipExtLen.toNat + 1 := by omega
    refine holds_of_get fun k hk => ?_
    have hseven : k < 7 := hk
    rw [addRhLen_bytes _ _ (by omega), hkeep _ (by omega)]
    show memcpy t₂.uipBuf.bytes (s.rh4Start + 1 - cfg.llhLen.toNat) _ _ = _
    rw [hplace]
    exact (holds_memcpy _ _ _).get k hk
  obtain ⟨hhdrLen, hcount⟩ := routingCount_of_holds hpositive hsize hheld
  have hlenNat : (t₄.addRhLen rhLen).uipBuf.len.toNat =
      s.uipBuf.len.toNat + cfg.rh4Len (s.hopCount r) := by
    show (t₄.uipBuf.len + rhLen.toUInt16).toNat = _
    have hsmall := cfg.bufsize.toNat_lt
    rw [UInt16.toNat_add, UInt8.toNat_toUInt16, hrh, hlen]
    omega
  refine ⟨nexthop, t₄.addRhLen rhLen, hinsert, hlenNat, by omega, ?_, hhdrLen, hcount⟩
  show (t₄.uipExtLen + rhLen).toNat = _
  rw [UInt8.toNat_add, hrh, hext]
  omega

/-- **The routing header of a source route.**  The packet stays in `uip_buf` with its routing header,
`uip_ext_len` does not wrap around, and `uip_process` computes the length of the header and the number of
its addresses as they were written, if and only if the route has a hop, the packet has its headers, there is
room behind it, and the last part of the header starts at an index of eight bits. -/
theorem insertsWell_iff (s : IpStack cfg δ) (r : Fin cfg.srcRouteNb) :
    s.InsertsWell r ↔ s.RoutePlaced r := by
  constructor
  · rintro ⟨⟨a, t, hinsert, hheader⟩, hplaces⟩
    have hsize : cfg.rh4Len (s.hopCount r) ≤ 248 := by
      have hlen := cfg.rh4Len_eq (s.hopCount r)
      have hbyte := t.uipExtLen.toNat_lt
      have hext := hheader.extLen
      omega
    unfold insertRh4 at hinsert
    dsimp only at hinsert
    split at hinsert
    · cases hinsert
    · next hcons =>
      have hhops : s.srcRoutingTable.hops r ≠ [] := by
        rw [hcons]
        exact List.cons_ne_nil _ _
      obtain ⟨t₀, hmake, -⟩ := bind_eq_ok.mp hinsert
      unfold makeRoom at hmake
      dsimp only at hmake
      split_ifs at hmake with hroom
      have hlen := hheader.len
      have hbound := hheader.room
      exact ⟨hhops, hroom.1, by omega, index_of_places hhops hsize hplaces⟩
  · intro h
    exact ⟨insertRh4_ok h, rh4Places_inside h.hops h.index⟩

/-! ## A route with one hop -/

/-- One neighbour, and a source route with one hop. -/
def smallCfg : StackConfig where
  nbrNb := 1
  defrtNb := 0
  routeNb := 0
  srcRouteNb := 1
  srcRouteAddrNb := 1
  clockWidth := 16
  llhLen := 0
  bufsize := 240
  rh4Cmpri := 15
  rh4Cmpre := 0
  cmpri_lt := by decide
  cmpre_lt := by decide

/-- A node that is not on any link, with a source route to `aa00::`. -/
def smallStack (prefixes : ℕ) : IpStack smallCfg Unit where
  node := {
    nAddr := 0
    addrList := nofun
    nMaddr := 0
    maddrList := nofun
    nPrefix := prefixes
    prefixList := fun _ => { isused := true, ipaddr := .unspecified, length := 0 }
    curHopLimit := 64
    router := true
    linkMtu := 1280 }
  uipLladdr := ⟨List.replicate 8 0, Lladdr.length_zeros⟩
  nbrCache := fun _ => {
    isused := false
    ipaddr := .unspecified
    lladdr := ⟨List.replicate 8 0, Lladdr.length_zeros⟩
    reachable := ⟨0, 0⟩
    sendns := ⟨0, 0⟩
    lastLookup := 0
    nscount := 0
    isrouter := false
    state := .incomplete
    packethandle := none }
  packetsMemb := .fresh ⟨fun _ => 0, 0, none, 0⟩
  defrtList := nofun
  routingTable := nofun
  srcRoutingTable := {
    routes := fun _ => {
      isused := true
      ipaddr := .ofBytes (0xaa :: List.replicate 15 0)
      addrList := [⟨0, Nat.zero_lt_one⟩]
      state := default }
    addrMemb := .fresh .unspecified }
  clockTime := 0
  clockSeconds := 0
  reachableTime := 0
  retransTimer := 0
  uipBuf := ⟨fun _ => 0, 0⟩
  uipExtLen := 0
  nextId := 0
  queueLog := []
  sent := []

/-- A packet of 220 octets to `aa00::` is in its buffer. -/
def longStack : IpStack smallCfg Unit :=
  { smallStack 0 with uipBuf := ⟨fun k => if k = 24 then 0xaa else 0, 220⟩ }

/-- The routing header has 24 octets, and the buffer 240. -/
theorem not_insertsWell : ¬ ∀ (cfg : StackConfig) (s : IpStack cfg Unit) (r : Fin cfg.srcRouteNb),
    s.uipBuf.len.toNat ≤ cfg.bufsize.toNat → s.srcRouteTaken = some r → s.InsertsWell r := by
  intro h
  obtain ⟨⟨a, t, hinsert, -⟩, -⟩ := h smallCfg longStack ⟨0, Nat.zero_lt_one⟩ (by decide) rfl
  have hfault : longStack.insertRh4 ⟨0, Nat.zero_lt_one⟩ = .error .bufBounds := rfl
  rw [hfault] at hinsert
  cases hinsert

end IpStack
end Contiki
