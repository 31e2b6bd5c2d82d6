import Contiki.Lib.Loop
import Contiki.Net.ParkedPackets
import Contiki.Net.RouterAdvertisement

/-!
# The options of neighbour discovery

The loops over the options of solicitations and advertisements go on by eight times the length octet of
an option, with an offset that is a byte.  The length is compared with zero only: 32 leads back to the
same option, and the end of an option is not compared with the end of the packet.

* `IpStack.nsOptions_eq`, `IpStack.naOptions_eq`, `Nd6Host.raOptions_eq` — which options the loops act
  upon.
* `Nd6Message.options_iff` — when the loops follow the options as they lie in the packet, end, and act
  upon what lies in the packet.
-/

namespace Contiki

/-- The messages whose options are processed. -/
inductive Nd6Message where
  | ns | na | ra
  deriving DecidableEq

namespace Nd6Message
variable {cfg : StackConfig} {δ : Type}

/-- `UIP_ND6_NS_LEN`, `UIP_ND6_NA_LEN` and `UIP_ND6_RA_LEN`: the offset of the first option. -/
def first : Nd6Message → UInt8
  | ns | na => 20
  | ra => 12

/-- The octets that are used of an option that is acted upon: the header and a link-layer address, an
MTU, or the information on a prefix. -/
def used : Nd6Message → UInt8 → Option ℕ
  | ns, type => if type = 1 then some 10 else none
  | na, type => if type = 2 then some 10 else none
  | ra, type =>
    if type = 1 then some 10 else if type = 5 then some 8 else if type = 3 then some 32 else none

/-- The message is discarded at an option of this type. -/
def discards (m : Nd6Message) (buf : UipBuf) (type : UInt8) : Bool :=
  m == ns && type == 1 && buf.srcipaddr.uipIsAddrUnspecified

/-- The octets of the option at an offset, as its length octet has them, where the loop goes on behind
it; the offsets count from `pos` on. -/
def sizeAt (m : Nd6Message) (buf : UipBuf) (pos offset : ℕ) : Option ℕ :=
  if pos + offset < buf.len.toNat ∧ buf.bytes (pos + offset + 1) ≠ 0 ∧
      m.discards buf (buf.bytes (pos + offset)) = false then
    some (8 * (buf.bytes (pos + offset + 1)).toNat)
  else none

/-- The octets of the options of the packet in `uip_buf`. -/
def optionSize (m : Nd6Message) (s : IpStack cfg δ) : ℕ → Option ℕ :=
  m.sizeAt s.uipBuf (s.icmpPos + 4)

/-- One turn of the loop. -/
def optionStep (m : Nd6Message) (s : IpStack cfg δ) : UInt8 → Option UInt8 :=
  byteStep (m.optionSize s)

/-- The loop comes to the offset and acts upon the option there, which is `n` octets long by its length
octet and of which `k` octets are used. -/
structure ActsUpon (m : Nd6Message) (s : IpStack cfg δ) (offset : UInt8) (n k : ℕ) : Prop where
  reached : Leads (m.optionStep s) m.first offset
  size : m.optionSize s offset.toNat = some n
  used : m.used (s.uipBuf.bytes (s.optPos offset)) = some k

variable {m : Nd6Message} {s : IpStack cfg δ} {offset : UInt8}

/-- The loop goes on behind an option inside of the packet that does not have the length zero. -/
lemma optionStep_of_lt (hpos : s.optPos offset < s.uipBuf.len.toNat)
    (hlen : s.uipBuf.bytes (s.optPos offset + 1) ≠ 0)
    (hdiscards : m.discards s.uipBuf (s.uipBuf.bytes (s.optPos offset)) = false) :
    m.optionStep s offset = some (offset + (s.uipBuf.bytes (s.optPos offset + 1) <<< 3)) := by
  have hsize : m.optionSize s offset.toNat =
      some (8 * (s.uipBuf.bytes (s.optPos offset + 1)).toNat) := if_pos ⟨hpos, hlen, hdiscards⟩
  have hshift : UInt8.ofNat (8 * (s.uipBuf.bytes (s.optPos offset + 1)).toNat) =
      s.uipBuf.bytes (s.optPos offset + 1) <<< 3 := by
    generalize s.uipBuf.bytes (s.optPos offset + 1) = len
    apply UInt8.toNat_inj.mp
    rw [UInt8.toNat_ofNat', UInt8.toNat_shiftLeft, Nat.shiftLeft_eq, Nat.mul_comm]
    rfl
  rw [optionStep, byteStep, hsize, Option.map_some, hshift]

lemma optionStep_eq_none (h : s.uipBuf.len.toNat ≤ s.optPos offset ∨
    s.uipBuf.bytes (s.optPos offset + 1) = 0 ∨
      m.discards s.uipBuf (s.uipBuf.bytes (s.optPos offset)) = true) :
    m.optionStep s offset = none := by
  have hsize : m.optionSize s offset.toNat = none := by
    refine if_neg ?_
    rintro ⟨hpos, hlen, hdiscards⟩
    rcases h with h | h | h
    · exact absurd hpos (Nat.not_lt.mpr h)
    · exact hlen h
    · exact absurd (h.symm.trans hdiscards) (by decide)
  rw [optionStep, byteStep, hsize, Option.map_none]

lemma optionStep_eq_some {next : UInt8} (h : m.optionStep s offset = some next) :
    (s.optPos offset < s.uipBuf.len.toNat ∧ s.uipBuf.bytes (s.optPos offset + 1) ≠ 0 ∧
      m.discards s.uipBuf (s.uipBuf.bytes (s.optPos offset)) = false) ∧
    offset + (s.uipBuf.bytes (s.optPos offset + 1) <<< 3) = next := by
  have hgo : s.optPos offset < s.uipBuf.len.toNat ∧ s.uipBuf.bytes (s.optPos offset + 1) ≠ 0 ∧
      m.discards s.uipBuf (s.uipBuf.bytes (s.optPos offset)) = false := by
    by_contra hnot
    rw [not_and_or, not_and_or, Nat.not_lt, not_not, Bool.not_eq_false] at hnot
    rw [optionStep_eq_none hnot] at h
    cases h
  rw [optionStep_of_lt hgo.1 hgo.2.1 hgo.2.2, Option.some.injEq] at h
  exact ⟨hgo, h⟩

lemma discards_eq_false (hm : m ≠ ns) (buf : UipBuf) (type : UInt8) :
    m.discards buf type = false := by
  simp [discards, hm]

/-- The sizes depend on the packet only. -/
lemma optionStep_congr {t : IpStack cfg δ} (hbuf : t.uipBuf = s.uipBuf)
    (hext : t.uipExtLen = s.uipExtLen) : m.optionStep t = m.optionStep s := by
  unfold optionStep optionSize IpStack.icmpPos
  rw [hbuf, hext]

end Nd6Message

/-! ## What the loops act upon -/

/-- The packet and its extension headers are the same. -/
structure SamePacket {cfg : StackConfig} {δ : Type} (s t : IpStack cfg δ) : Prop where
  uipBuf : t.uipBuf = s.uipBuf
  uipExtLen : t.uipExtLen = s.uipExtLen

namespace SamePacket
variable {cfg : StackConfig} {δ : Type} {s t t' : IpStack cfg δ}

lemma refl (s : IpStack cfg δ) : SamePacket s s := ⟨rfl, rfl⟩

lemma trans (h : SamePacket s t) (h' : SamePacket t t') : SamePacket s t' :=
  ⟨h'.uipBuf.trans h.uipBuf, h'.uipExtLen.trans h.uipExtLen⟩

lemma optPos (h : SamePacket s t) (offset : UInt8) : t.optPos offset = s.optPos offset := by
  unfold IpStack.optPos IpStack.icmpPos
  rw [h.uipExtLen]

lemma nbrRm (s : IpStack cfg δ) (i : Fin cfg.nbrNb) : SamePacket s (s.uipDs6NbrRm i) := by
  unfold IpStack.uipDs6NbrRm IpStack.uipPacketqueueFree
  split <;> exact ⟨rfl, rfl⟩

lemma nbrAddFrom (ipaddr : IpAddr) (lladdr : Option Lladdr) (isrouter : Bool) (state : NbrState)
    (calls : ℕ) (s : IpStack cfg δ) :
    SamePacket s (IpStack.nbrAddFrom ipaddr lladdr isrouter state calls s).2 := by
  induction calls generalizing s with
  | zero => exact .refl s
  | succ calls ih =>
    rw [IpStack.nbrAddFrom]
    split
    · exact ⟨rfl, rfl⟩
    · exact .refl s
    · split
      · exact (nbrRm s _).trans (ih _)
      · exact .refl s

lemma nsSllao (s : IpStack cfg δ) (lladdr : Lladdr) : SamePacket s (s.nsSllao lladdr) := by
  unfold IpStack.nsSllao
  dsimp only
  split
  · exact nbrAddFrom _ _ _ _ 2 s
  · split_ifs <;> exact ⟨rfl, rfl⟩

end SamePacket

namespace IpStack
variable {cfg : StackConfig} {δ : Type} (s : IpStack cfg δ)

/-- What the loop of `uip_nd6_ns_input` does with an option. -/
def nsOption (offset : UInt8) : IpStack cfg δ :=
  if s.uipBuf.bytes (s.optPos offset) = 1 then
    s.nsSllao (lladdrAt s.uipBuf.bytes (s.optPos offset + 2))
  else s

/-- What the loop of `uip_nd6_na_input` does with an option. -/
def naOption (offset : UInt8) (llao : Option ℕ) : Option ℕ :=
  if s.uipBuf.bytes (s.optPos offset) = 2 then some (s.optPos offset) else llao

variable {s}

lemma samePacket_nsOption (t : IpStack cfg δ) (offset : UInt8) :
    SamePacket t (t.nsOption offset) := by
  unfold nsOption
  split_ifs
  · exact .nsSllao _ _
  · exact .refl t

/-- **Solicitations.**  The options on the trail of the loop are acted upon, one after the other. -/
theorem nsOptions_eq (fuel : ℕ) (offset : UInt8) : nsOptions fuel offset s =
    (trail (Nd6Message.ns.optionStep s) fuel offset).elim (.error .hang) fun r =>
      .ok (decide (s.uipBuf.len.toNat ≤ s.optPos r.2), r.1.foldl (fun t o => t.nsOption o) s) := by
  refine loop_eq_trail (F := nsOptions) (P := SamePacket s)
    (D := fun o t => .ok (decide (s.uipBuf.len.toNat ≤ s.optPos o), t)) (fun _ _ => rfl) ?_ ?_
    (fun o t ht => ht.trans (samePacket_nsOption t o)) (.refl s) fuel offset
  · intro fuel o t ht hstep
    rw [← Nd6Message.optionStep_congr ht.uipBuf ht.uipExtLen] at hstep
    rw [← ht.uipBuf, ← ht.optPos, nsOptions]
    dsimp only
    by_cases hpos : t.optPos o < t.uipBuf.len.toNat
    · rw [if_pos hpos, decide_eq_false (Nat.not_le.mpr hpos)]
      by_cases hlen : t.uipBuf.bytes (t.optPos o + 1) = 0
      · rw [if_pos hlen]
      · rw [if_neg hlen]
        by_cases htype : t.uipBuf.bytes (t.optPos o) = 1
        · by_cases hsrc : t.uipBuf.srcipaddr.uipIsAddrUnspecified = true
          · rw [if_pos htype, if_pos hsrc]
          · rw [Nd6Message.optionStep_of_lt hpos hlen (by simp [Nd6Message.discards, hsrc])] at hstep
            cases hstep
        · rw [Nd6Message.optionStep_of_lt hpos hlen (by simp [Nd6Message.discards, htype])] at hstep
          cases hstep
    · rw [if_neg hpos, decide_eq_true (Nat.not_lt.mp hpos)]
  · intro fuel o b t ht hstep
    rw [← Nd6Message.optionStep_congr ht.uipBuf ht.uipExtLen] at hstep
    obtain ⟨⟨hpos, hlen, hdiscards⟩, rfl⟩ := Nd6Message.optionStep_eq_some hstep
    rw [nsOptions]
    dsimp only
    rw [if_pos hpos, if_neg hlen]
    unfold nsOption
    by_cases htype : t.uipBuf.bytes (t.optPos o) = 1
    · have hsrc : ¬t.uipBuf.srcipaddr.uipIsAddrUnspecified = true := by
        simpa [Nd6Message.discards, htype] using hdiscards
      rw [if_pos htype, if_neg hsrc, if_pos htype]
    · rw [if_neg htype, if_neg htype]

/-- **Advertisements of neighbours.**  Each target link-layer address option on the trail of the loop is
noted in place of the one before it. -/
theorem naOptions_eq (fuel : ℕ) (offset : UInt8) (llao : Option ℕ) : s.naOptions fuel offset llao =
    (trail (Nd6Message.na.optionStep s) fuel offset).elim (.error .hang) fun r =>
      .ok (if s.uipBuf.len.toNat ≤ s.optPos r.2 then
        some (r.1.foldl (fun llao o => s.naOption o llao) llao) else none) := by
  have hdiscards := Nd6Message.discards_eq_false (m := .na) (by decide) s.uipBuf
  refine loop_eq_trail (F := fun fuel o llao => s.naOptions fuel o llao) (P := fun _ => True)
    (D := fun o llao => .ok (if s.uipBuf.len.toNat ≤ s.optPos o then some llao else none))
    (fun _ _ => rfl) ?_ ?_ (fun _ _ _ => trivial) trivial fuel offset
  · intro fuel o llao _ hstep
    rw [naOptions]
    dsimp only
    by_cases hpos : s.optPos o < s.uipBuf.len.toNat
    · rw [if_pos hpos, if_neg (Nat.not_le.mpr hpos)]
      by_cases hlen : s.uipBuf.bytes (s.optPos o + 1) = 0
      · rw [if_pos hlen]
      · rw [Nd6Message.optionStep_of_lt hpos hlen (hdiscards _)] at hstep
        cases hstep
    · rw [if_neg hpos, if_pos (Nat.not_lt.mp hpos)]
  · intro fuel o b llao _ hstep
    obtain ⟨⟨hpos, hlen, -⟩, rfl⟩ := Nd6Message.optionStep_eq_some hstep
    show s.naOptions (fuel + 1) o llao = s.naOptions fuel _ (s.naOption o llao)
    rw [naOptions]
    dsimp only
    rw [if_pos hpos, if_neg hlen]
    rfl

end IpStack

namespace Nd6Host
variable {cfg : StackConfig} {δ : Type} {h : Nd6Host cfg δ}

lemma stack_setPrefixLifetime (h : Nd6Host cfg δ) (i : ℕ) (interval : BitVec 32) :
    (h.setPrefixLifetime i interval).stack = h.stack := by
  unfold setPrefixLifetime
  split_ifs <;> rfl

lemma samePacket_raOnlink (h : Nd6Host cfg δ) (ipaddr : IpAddr) (preflen : UInt8)
    (validlt : BitVec 32) : SamePacket h.stack (h.raOnlink ipaddr preflen validlt).stack := by
  unfold raOnlink
  split
  · split_ifs
    · exact ⟨rfl, rfl⟩
    · rw [stack_setPrefixLifetime]
      exact .refl h.stack
    · rw [stack_setPrefixLifetime]
      exact .refl h.stack
  · split_ifs
    all_goals first
      | exact .refl h.stack
      | unfold uipDs6PrefixAdd
        split
        · rw [stack_setPrefixLifetime]
          exact ⟨rfl, rfl⟩
        · exact .refl h.stack

lemma samePacket_raAutonomous (h : Nd6Host cfg δ) (ipaddr : IpAddr) (validlt : BitVec 32) :
    SamePacket h.stack (h.raAutonomous ipaddr validlt).stack := by
  have hadd : ∀ a interval, SamePacket h.stack (h.uipDs6AddrAdd a interval).stack := by
    intro a interval
    unfold uipDs6AddrAdd
    dsimp only
    split
    · exact ⟨rfl, rfl⟩
    · exact .refl h.stack
  unfold raAutonomous
  dsimp only
  split
  · split_ifs
    all_goals first
      | exact hadd _ _
      | unfold raAddrLifetime
        split_ifs <;> exact ⟨rfl, rfl⟩
  · exact hadd _ _

lemma samePacket_raOption (h : Nd6Host cfg δ) (pos : ℕ) :
    SamePacket h.stack (h.raOption pos).stack := by
  unfold raOption
  dsimp only
  split_ifs
  · unfold raSllao
    dsimp only
    split
    · exact .nbrAddFrom _ _ _ _ 2 h.stack
    · exact ⟨rfl, rfl⟩
  · exact .refl h.stack
  · unfold raPrefixInfo
    dsimp only
    split_ifs
    all_goals first
      | exact .refl h.stack
      | exact samePacket_raOnlink _ _ _ _
      | exact samePacket_raAutonomous _ _ _
      | exact (samePacket_raOnlink _ _ _ _).trans (samePacket_raAutonomous _ _ _)
  · exact .refl h.stack

/-- **Advertisements of routers.**  The options on the trail of the loop are acted upon, one after the
other. -/
theorem raOptions_eq (fuel : ℕ) (offset : UInt8) : raOptions fuel offset h =
    (trail (Nd6Message.ra.optionStep h.stack) fuel offset).elim (.error .hang) fun r =>
      .ok (decide (h.stack.uipBuf.len.toNat ≤ h.stack.optPos r.2),
        r.1.foldl (fun t o => t.raOption (h.stack.optPos o)) h) := by
  have hdiscards := Nd6Message.discards_eq_false (m := .ra) (by decide) h.stack.uipBuf
  refine loop_eq_trail (F := raOptions) (P := fun t => SamePacket h.stack t.stack)
    (D := fun o t => .ok (decide (h.stack.uipBuf.len.toNat ≤ h.stack.optPos o), t))
    (fun _ _ => rfl) ?_ ?_ (fun o t ht => ht.trans (samePacket_raOption t _)) (.refl h.stack) fuel
    offset
  · intro fuel o t ht hstep
    rw [raOptions]
    dsimp only
    rw [ht.uipBuf, ht.optPos]
    by_cases hpos : h.stack.optPos o < h.stack.uipBuf.len.toNat
    · rw [if_pos hpos, decide_eq_false (Nat.not_le.mpr hpos)]
      by_cases hlen : h.stack.uipBuf.bytes (h.stack.optPos o + 1) = 0
      · rw [if_pos hlen]
      · rw [Nd6Message.optionStep_of_lt hpos hlen (hdiscards _)] at hstep
        cases hstep
    · rw [if_neg hpos, decide_eq_true (Nat.not_lt.mp hpos)]
  · intro fuel o b t ht hstep
    obtain ⟨⟨hpos, hlen, -⟩, rfl⟩ := Nd6Message.optionStep_eq_some hstep
    rw [raOptions]
    dsimp only
    rw [ht.uipBuf, ht.optPos, if_pos hpos, if_neg hlen]

end Nd6Host
/-! ## Termination and bounds -/

namespace Nd6Message
variable {cfg : StackConfig} {δ : Type}

/-- The loop over the options ends. -/
def Terminates (m : Nd6Message) (h : Nd6Host cfg δ) : Prop :=
  match m with
  | ns => ∃ fuel, h.stack.nsOptions fuel m.first ≠ .error .hang
  | na => ∃ fuel, h.stack.naOptions fuel m.first none ≠ .error .hang
  | ra => ∃ fuel, h.raOptions fuel m.first ≠ .error .hang

lemma elim_ne_hang {α β : Type*} (o : Option α) (f : α → β) :
    o.elim (Except.error StackFault.hang) (fun a => Except.ok (f a)) ≠ Except.error .hang ↔
      o ≠ none := by
  cases o <;> simp

lemma terminates_iff (m : Nd6Message) (h : Nd6Host cfg δ) :
    m.Terminates h ↔ Ends (m.optionStep h.stack) m.first := by
  rw [← exists_trail_iff]
  cases m with
  | ns =>
    refine exists_congr fun fuel => ?_
    rw [IpStack.nsOptions_eq, elim_ne_hang]
  | na =>
    refine exists_congr fun fuel => ?_
    rw [IpStack.naOptions_eq, elim_ne_hang]
  | ra =>
    refine exists_congr fun fuel => ?_
    rw [Nd6Host.raOptions_eq, elim_ne_hang]

/-- The bound on the turns in the model of the messages leaves out no loop that ends. -/
lemma Terminates.trail_ne_none {m : Nd6Message} {h : Nd6Host cfg δ} (hends : m.Terminates h) :
    trail (m.optionStep h.stack) 257 m.first ≠ none := by
  have hrun := ((terminates_iff m h).mp hends).runLoop_byte (R := id) (show 256 ≤ 257 by omega)
  rw [runLoop_eq_trail] at hrun
  exact fun hnone => hrun (by rw [hnone]; rfl)

/-- The options as they lie end to end from the first one on, up to the end of the packet, a length of
zero, or an option for which the message is discarded: none of them reaches beyond octet 255, and those
of a handled type end in the packet, as does what is used of them. -/
structure LaidOut (m : Nd6Message) (buf : UipBuf) (pos : ℕ) : Prop where
  fits : Fits (m.sizeAt buf pos) m.first.toNat
  inside : ∀ j n k, Leads (wideStep (m.sizeAt buf pos)) m.first.toNat j →
    m.sizeAt buf pos j = some n → m.used (buf.bytes (pos + j)) = some k →
      pos + j + n ≤ buf.len.toNat ∧ pos + j + k ≤ buf.len.toNat

/-- A handled option that has octets of its length or used octets behind the packet. -/
lemma octets_inside_iff {len o n k : ℕ} (ho : o < len) :
    (∀ i, i < n ∨ i < k → o + i < len) ↔ o + n ≤ len ∧ o + k ≤ len := by
  constructor
  · intro hall
    constructor
    · rcases Nat.eq_zero_or_pos n with rfl | hn
      · exact Nat.le_of_lt ho
      · have := hall (n - 1) (.inl (by omega))
        omega
    · rcases Nat.eq_zero_or_pos k with rfl | hk
      · exact Nat.le_of_lt ho
      · have := hall (k - 1) (.inr (by omega))
        omega
  · rintro ⟨hn, hk⟩ i hi
    omega

/-- **The options of neighbour discovery.**  The loop ends, goes from each option to the one behind it,
and of each option that it acts upon all octets of its length and all that are used lie in the packet,
if and only if the options as they lie in the packet fit. -/
theorem options_iff (m : Nd6Message) (h : Nd6Host cfg δ) :
    (m.Terminates h ∧ Follows (m.optionSize h.stack) m.first ∧
      ∀ offset n k, m.ActsUpon h.stack offset n k →
        ∀ i, i < n ∨ i < k → h.stack.optPos offset + i < h.stack.uipBuf.len.toNat) ↔
    m.LaidOut h.stack.uipBuf (h.stack.icmpPos + 4) := by
  have hbegins : ∀ {offset n k}, m.ActsUpon h.stack offset n k →
      h.stack.optPos offset < h.stack.uipBuf.len.toNat := by
    intro offset n k hacts
    by_contra hnot
    have hnone : m.optionSize h.stack offset.toNat = none := if_neg fun hand => hnot hand.1
    rw [hacts.size] at hnone
    cases hnone
  constructor
  · rintro ⟨-, hfollows, hinside⟩
    refine ⟨follows_iff_fits.mp hfollows, fun j n k hj hsize hused => ?_⟩
    obtain ⟨offset, rfl, hreached⟩ := hfollows.wide hj
    have hacts : m.ActsUpon h.stack offset n k := ⟨hreached, hsize, hused⟩
    exact (octets_inside_iff (hbegins hacts)).mp (hinside offset n k hacts)
  · intro hlaid
    have hfollows : Follows (m.optionSize h.stack) m.first := follows_iff_fits.mpr hlaid.fits
    refine ⟨(terminates_iff m h).mpr hfollows.ends, hfollows, fun offset n k hacts => ?_⟩
    exact (octets_inside_iff (hbegins hacts)).mpr
      (hlaid.inside offset.toNat n k (hlaid.fits.byte hacts.reached) hacts.size hacts.used)

/-- A message with an option of an unknown type, of 256 octets by its length. -/
def wideOption : UipBuf where
  bytes i := if i = 7 then 255 else if i = 8 then 0xfe else if i = 9 then 0x80
    else if i = 56 ∨ i = 64 then 14 else if i = 57 ∨ i = 65 then 32 else 0
  len := 72

/-- It arrives at a host. -/
def wideOptionHost : Nd6Host IpStack.smallCfg Unit where
  stack := { IpStack.smallStack 0 with uipBuf := wideOption }
  nbr := none
  linkMtu := 1280
  baseReachableTime := 30000
  addrAutoconf := fun _ => false
  addrVlifetime := fun _ => ⟨0, 0⟩
  prefixVlifetime := fun _ => ⟨0, 0⟩
  prefixIsinfinite := fun _ => true

/-- Each of the loops comes back to the option at once. -/
theorem not_options : ∃ h : Nd6Host IpStack.smallCfg Unit, ∀ m : Nd6Message, ¬m.Terminates h := by
  refine ⟨wideOptionHost, fun m hends => ?_⟩
  have hback : m.optionStep wideOptionHost.stack m.first = some m.first := by cases m <;> rfl
  exact (Ends.not_returns ((terminates_iff m _).mp hends) (.refl _)) ⟨_, hback, .refl _⟩

end Nd6Message
end Contiki
