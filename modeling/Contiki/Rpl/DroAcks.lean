import Contiki.Rpl.System

/-!
# Acknowledged replies

`dro_ack_input` stops the retransmission of a cached DRO.  It compares the two bits of the sequence
number with themselves, so that the first DRO of the discovery is taken for the acknowledged one.

* `acksOne_iff` — when an acknowledgement drops nothing but the DRO it is for.
-/

namespace Contiki
namespace DroCacheEntry
variable (entry : DroCacheEntry) (buffer : ℕ → UInt8)

/-- The DRO has the instance and the DODAGID of the acknowledgement. -/
def sameDiscovery : Bool :=
  buffer 0 == entry.buffer.getD 0 0 &&
    bytesAt buffer 4 16 == bytesAt (fun i => entry.buffer.getD i 0) 4 16

/-- The DRO has the sequence number of the acknowledgement. -/
def sameSequence : Bool := entry.buffer.getD 2 0 &&& 0xC0 == buffer 2 &&& 0xC0

end DroCacheEntry

namespace Node
variable {cfg : Config} (s : Node cfg) {s' : Node cfg} {c : Fin rplMaxDroCacheEntries}

/-- The entry `c` is taken off the cache, its timer is stopped and its block is freed; all others keep
their place, their timer and their block. -/
structure DropsDro (c : Fin rplMaxDroCacheEntries) (s s' : Node cfg) : Prop where
  place : ∃ before after, s.droCache = before ++ c :: after ∧ s'.droCache = before ++ after
  stopped : (s'.droCacheMemb.mem c).pending = false
  freed : s'.droCacheMemb.count c = s.droCacheMemb.count c - 1
  mem : ∀ c', c' ≠ c → s'.droCacheMemb.mem c' = s.droCacheMemb.mem c'
  count : ∀ c', c' ≠ c → s'.droCacheMemb.count c' = s.droCacheMemb.count c'

/-- Nothing happens, or one DRO is dropped: one with the instance, the DODAGID and the sequence number of
the acknowledgement. -/
def AcksOne (buffer : ℕ → UInt8) : Prop :=
  s.droAckInput buffer = s ∨ ∃ c, (s.droCacheMemb.mem c).sameDiscovery buffer = true ∧
    (s.droCacheMemb.mem c).sameSequence buffer = true ∧ DropsDro c s (s.droAckInput buffer)

variable {s}

/-- The first DRO of the discovery is dropped, if there is one. -/
lemma droAckInput_cases (s : Node cfg) (buffer : ℕ → UInt8) :
    s.droAckInput buffer = s ∧
        (∀ c ∈ s.droCache, (s.droCacheMemb.mem c).sameDiscovery buffer = false) ∨
      ∃ before c after, s.droCache = before ++ c :: after ∧
        (∀ c' ∈ before, (s.droCacheMemb.mem c').sameDiscovery buffer = false) ∧
        (s.droCacheMemb.mem c).sameDiscovery buffer = true ∧
        (s.droAckInput buffer).droCache = before ++ after ∧ DropsDro c s (s.droAckInput buffer) := by
  cases hfind : s.droCache.find? fun c => (s.droCacheMemb.mem c).sameDiscovery buffer with
  | none =>
    refine .inl ⟨?_, fun c hc => ?_⟩
    · unfold droAckInput
      erw [hfind]
    · exact Bool.eq_false_iff.mpr (List.find?_eq_none.mp hfind c hc)
  | some c =>
    have heq : s.droAckInput buffer = { s with
        droCache := listRemove s.droCache c
        droCacheMemb := (s.droCacheMemb.write c
          { s.droCacheMemb.mem c with pending := false }).free c } := by
      unfold droAckInput
      erw [hfind]
    obtain ⟨hsame, before, after, hsplit, hbefore⟩ := List.find?_eq_some_iff_append.mp hfind
    have hfirst : ∀ c' ∈ before, (s.droCacheMemb.mem c').sameDiscovery buffer = false := fun c' hc' => by
      simpa using hbefore c' hc'
    have hnot : c ∉ before := by
      intro hc
      rw [hfirst c hc] at hsame
      exact Bool.noConfusion hsame
    have hplace : (s.droAckInput buffer).droCache = before ++ after := by
      rw [heq]
      show s.droCache.erase c = before ++ after
      rw [hsplit, List.erase_append_right _ hnot, List.erase_cons_head]
    refine .inr ⟨before, c, after, hsplit, hfirst, hsame, hplace, ⟨before, after, hsplit, hplace⟩,
      ?_, ?_, fun c' hc' => ?_, fun c' hc' => ?_⟩ <;> rw [heq] <;> dsimp only
    · rw [Memb.free_mem, Memb.write_mem, Function.update_self]
    · rw [Memb.free_count, Function.update_self]
      rfl
    · rw [Memb.free_mem, Memb.write_mem, Function.update_of_ne hc']
    · rw [Memb.free_count, Function.update_of_ne hc']
      rfl

/-- Only one DRO can have been dropped. -/
lemma DropsDro.eq {c' : Fin rplMaxDroCacheEntries} (h : DropsDro c s s') (h' : DropsDro c' s s') :
    c = c' := by
  obtain ⟨before, after, hsplit, hplace⟩ := h.place
  obtain ⟨before', after', hsplit', hplace'⟩ := h'.place
  have hcount : (before ++ c :: after).count c = (before' ++ c' :: after').count c := by
    rw [← hsplit, hsplit']
  have hrest : (before ++ after).count c = (before' ++ after').count c := by
    rw [← hplace, hplace']
  by_contra hne
  simp only [List.count_append, List.count_cons_self, List.count_cons_of_ne (Ne.symm hne)]
    at hcount hrest
  omega

/-- **An acknowledgement drops the DRO it is for** exactly if the first cached DRO of its discovery, if
there is one, has its sequence number. -/
theorem acksOne_iff (s : Node cfg) (buffer : ℕ → UInt8) :
    s.AcksOne buffer ↔ ∀ before c after, s.droCache = before ++ c :: after →
      (∀ c' ∈ before, (s.droCacheMemb.mem c').sameDiscovery buffer = false) →
      (s.droCacheMemb.mem c).sameDiscovery buffer = true →
      (s.droCacheMemb.mem c).sameSequence buffer = true := by
  rcases droAckInput_cases s buffer with
    ⟨hnothing, hnone⟩ | ⟨before, c, after, hsplit, hfirst, hsame, hplace, hdrops⟩
  · refine iff_of_true (.inl hnothing) fun before c after hsplit _ hsame => ?_
    rw [hnone c (hsplit ▸ List.mem_append_right _ List.mem_cons_self)] at hsame
    exact Bool.noConfusion hsame
  · have hiff : s.AcksOne buffer ↔ (s.droCacheMemb.mem c).sameSequence buffer = true := by
      constructor
      · rintro (hnothing | ⟨c', -, hsequence, hdrops'⟩)
        · rw [hnothing, hsplit] at hplace
          have hlength := congrArg List.length hplace
          simp at hlength
        · rwa [hdrops.eq hdrops']
      · exact fun hsequence => .inr ⟨c, hsame, hsequence, hdrops⟩
    rw [hiff]
    constructor
    · intro hsequence before' c' after' hsplit' hfirst' hsame'
      have hfind : ∀ {b : List (Fin rplMaxDroCacheEntries)} {x a}, s.droCache = b ++ x :: a →
          (∀ y ∈ b, (s.droCacheMemb.mem y).sameDiscovery buffer = false) →
          (s.droCacheMemb.mem x).sameDiscovery buffer = true →
          (s.droCache.find? fun c => (s.droCacheMemb.mem c).sameDiscovery buffer) = some x := by
        intro b x a hb hnot hx
        exact List.find?_eq_some_iff_append.mpr ⟨hx, b, a, hb, fun y hy => by simp [hnot y hy]⟩
      have heq := (hfind hsplit hfirst hsame).symm.trans (hfind hsplit' hfirst' hsame')
      rwa [← Option.some.inj heq]
    · exact fun h => h before c after hsplit hfirst hsame

/-- A DIO of a discovery of the node 1 for the node 3, which asks for two routes, from a router. -/
def twoRoutesDio (via : UInt8) : Dio :=
  { discoveryDio 1 3 [via] with
    rank := 512
    mc := { MetricContainer.zero with obj := 128 }
    rdo := some
      { bothDirections := 0, numRoutes := 1, hopByHop := 0, lifetime := 2, maxRank := 0, target := 3
        addrs := [via] } }

/-- The acknowledgement of the second reply of the discovery. -/
def secondAck (i : ℕ) : UInt8 := ([0x81, 0, 0x40, 0] ++ (nodeAddr 1).u8).getD i 0

/-- A target that answered with two routes: the acknowledgement of the second reply silences the first
one. -/
theorem not_acksOne : ¬∀ s : Node .default, s.Reachable → ∀ buffer, s.AcksOne buffer := by
  intro h
  obtain ⟨s, hs, hobs⟩ := exists_reachable 3
    [.processDio (nodeLinkLocal 2) (twoRoutesDio 2), .processDio (nodeLinkLocal 4) (twoRoutesDio 4),
      .droTimer 0]
    (fun s => decide (s.droCache = [0, 1] ∧ (s.droAckInput secondAck).droCache = [1] ∧
      (s.droCacheMemb.mem 0).sameSequence secondAck = false)) (a := true) (by decide +kernel)
  obtain ⟨hcache, hacked, hsequence⟩ := of_decide_eq_true hobs
  rcases h s hs secondAck with hnothing | ⟨c, -, hsame, hdrops⟩
  · rw [hnothing, hcache] at hacked
    exact absurd hacked (by decide)
  · obtain ⟨before, after, hsplit, hplace⟩ := hdrops.place
    rw [hcache] at hsplit
    rw [hacked] at hplace
    have hzero : c = 0 := by
      by_contra hne
      have hcount := congrArg (List.count 0) hsplit
      have hrest := congrArg (List.count 0) hplace
      rw [List.count_append, List.count_cons_of_ne hne] at hcount
      rw [List.count_append] at hrest
      exact absurd (hcount.trans hrest.symm) (by decide)
    rw [hzero, hsequence] at hsame
    exact Bool.noConfusion hsame

end Node
end Contiki
