import Contiki.Lib.Walk
import Contiki.Rpl.DioBounds
import Contiki.Rpl.DroReads
import Contiki.Rpl.Retention
import Contiki.Rpl.System

/-!
# Replies without a route discovery option

The search of `dro_input` for the RDO ends at the RDO or at the end of the message, and what comes
after it does not tell the two apart.  It also takes the Rem field as it comes, whatever the length
of the RDO.  `droSafe_iff` says for which states and messages this makes no difference.
-/

namespace Contiki

open Reads

/-! ## The options of a reply -/

section Options
variable (buffer : ℕ → UInt8) (n : ℕ)

variable {buffer n}

end Options

namespace Dro

end Dro

namespace Node
variable {cfg : Config} {s s' : Node cfg}

/-! ## Nothing is done -/

/-- The stop bit concerns the DAGs and their extensions only. -/
lemma droStop_spec {dro : Dro} (h : s.droStop dro = .ok s') :
    s' = { s with dagTable := s'.dagTable, dagP2pTable := s'.dagP2pTable } := by
  unfold droStop at h
  split_ifs at h
  · split at h
    · cases h; rfl
    · obtain ⟨e, -, h⟩ := bind_eq_ok.mp h
      split_ifs at h <;> cases h <;> rfl
  · cases h; rfl

/-- The byte that counts through the address vector, after `k` addresses. -/
def vectorIndex (compr : UInt8) (i : UInt8) (k : ℕ) : UInt8 := (fun i => i + (16 - compr))^[k] i

/-- The addresses of a source route that are read: those of the vector of `addrLen` bytes for which there
is a block, and the first one for which there is none. -/
def HopsFit (n start : ℕ) (addrLen compr : UInt8) (room : ℕ) (i : UInt8) : Prop :=
  ∀ k ≤ room, (∀ j ≤ k, vectorIndex compr i j < addrLen) →
    start + (vectorIndex compr i k).toNat + (16 - compr.toNat) ≤ n

section Within
variable {buffer : ℕ → UInt8} {n : ℕ}

end Within

/-- The addresses that are read lie in the message: at the origin the target, the next hop unless the
vector is empty, or the vector that is stored; at an intermediate node the address at the position Rem
and, for a hop-by-hop route through this node, the one behind it. -/
structure RouteFits (s : Node cfg) (dro : Dro) : Prop where
  target : s.isMyAddr dro.dodagId → dro.pos + 4 + dro.step ≤ dro.length
  nexthop : s.isMyAddr dro.dodagId → dro.hopByHop → dro.pos + 4 + dro.step ≠ dro.bufferLength →
    dro.pos + 4 + 2 * dro.step ≤ dro.length
  vector : s.isMyAddr dro.dodagId → ¬dro.hopByHop → ∀ route t,
    s.srcRoutingTable.uipDs6SrcRouteAdd dro.target = (some route, t) →
      HopsFit dro.length (dro.pos + 4 + dro.step)
        (dro.buffer (dro.pos + 1) - 2 - 16 + UInt8.ofNat dro.compr) (UInt8.ofNat dro.compr)
        t.addrMemb.room 0
  rem : ¬s.isMyAddr dro.dodagId → dro.pos + 4 + (dro.rem + 1) * dro.step ≤ dro.length
  behind : ¬s.isMyAddr dro.dodagId → dro.rem ≠ 0 → s.isMyAddr (dro.address dro.rem) → dro.hopByHop →
    dro.pos + 4 + (dro.rem + 1) * dro.step < dro.bufferLength →
      dro.pos + 4 + (dro.rem + 2) * dro.step ≤ dro.length

section WithinMessage
variable (buffer : ℕ → UInt8) (n : ℕ)

end WithinMessage

/-! ## When a reply is safe -/

end Node
end Contiki
