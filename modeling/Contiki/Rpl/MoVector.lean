import Contiki.Lib.Buffer
import Contiki.Rpl.MoMessage
import Contiki.Rpl.Slots

/-!
# The address vector of a measurement

A request for a hop-by-hop route with a local instance carries an address vector, into which every
node on the way writes its address.  The vector lies inside the message, with the metric container
right behind it; its size and the index of the next hop share one byte.  No node compares the two.

`measured_iff` says on which routes the request arrives as it should: the vector has a slot for every
node, and the index stays within its four bits.
-/

namespace Contiki

namespace Mo
variable (mo : Mo)

/-- The route to be measured is a hop-by-hop route with a local instance, and is recorded. -/
structure Recording : Prop where
  isLocal : mo.isLocal = true
  hopByHop : mo.hopByHop = true
  accumulate : mo.accumulate = true

/-- Such a message as its origin sends it. -/
structure Fresh : Prop extends mo.Recording where
  index : mo.index = 1
  pathMetric : mo.pathMetric = 0

/-- The number of recorded addresses, which the target takes the vector to have. -/
def recorded : ℕ := mo.index - 1

/-- A later form of the message in which nothing is damaged. -/
structure Intact (sent : Mo) : Prop where
  recorded : sent.recorded ≤ sent.num
  container : sent.container = mo.container
  num : sent.num = mo.num

end Mo

/-- What a node that is neither the origin nor the target of a measurement sends on. -/
def Node.moRelayed {cfg : Config} (s : Node cfg) (reachable : IpAddr → Bool)
    (requests : MoRequests) (mo : Mo) : Option Mo :=
  match s.ownAddr, mo.moInput s reachable requests with
  | .ok own, .ok (.send sent, _) =>
    if s.isMyAddr (mo.address own 0) || s.isMyAddr (mo.address own 1) then none else some sent
  | _, _ => none

/-- A node on the way of a measurement: the metric of the link over which it has received the
message, and what it has sent on. -/
structure MoHop where
  linkMetric : UInt8
  sent : Mo

/-- A measurement on its way from its origin through any number of nodes. -/
inductive MoRun (mo : Mo) : List MoHop → Mo → Prop
  | origin : MoRun mo [] mo
  | relay {hops : List MoHop} {received sent : Mo} {cfg : Config} (s : Node cfg)
      (reachable : IpAddr → Bool) (requests : MoRequests) {linkMetric : UInt8}
      (run : MoRun mo hops received) (hlink : s.nbrMetric received.src = some linkMetric)
      (hsent : s.moRelayed reachable requests received = some sent) :
      MoRun mo (hops ++ [⟨linkMetric, sent⟩]) sent

/-- The sum of the metrics of the links. -/
def linkSum (hops : List MoHop) : ℕ := (hops.map fun h => (Node.niEtxToRplEtx h.linkMetric).toNat).sum

/-! ## The origin -/

namespace Node
variable {cfg : Config} {s : Node cfg} {reachable : IpAddr → Bool} {requests requests' : MoRequests}
  {current : Option ℕ} {target own : IpAddr} {sequence : UInt8} {mo : Mo}

section
variable {nexthop : IpAddr} {instanceId flags numIndex : UInt8} {vector : List UInt8}

lemma sendMo_isLocal :
    (s.sendMo nexthop (moMessage own target sequence instanceId flags numIndex vector)).isLocal =
      decide (instanceId &&& rplLocalDefaultInstance ≠ 0) := rfl

lemma sendMo_hopByHop :
    (s.sendMo nexthop (moMessage own target sequence instanceId flags numIndex vector)).hopByHop =
      decide (((rplP2pRdoCompr <<< 4) ||| rplP2pMoTFlag ||| flags) &&& rplP2pMoHFlag ≠ 0) := rfl

lemma sendMo_accumulate :
    (s.sendMo nexthop (moMessage own target sequence instanceId flags numIndex vector)).accumulate =
      decide (((rplP2pRdoCompr <<< 4) ||| rplP2pMoTFlag ||| flags) &&& rplP2pMoAFlag ≠ 0) := rfl

lemma sendMo_index :
    (s.sendMo nexthop (moMessage own target sequence instanceId flags numIndex vector)).index =
      (rplP2pMoI numIndex).toNat := rfl

lemma sendMo_num :
    (s.sendMo nexthop (moMessage own target sequence instanceId flags numIndex vector)).num =
      (rplP2pMoN numIndex).toNat := rfl

/-- The metric behind a vector that is as long as the message says. -/
lemma sendMo_pathMetric (h : vector.length = (rplP2pMoN numIndex).toNat) :
    (s.sendMo nexthop
      (moMessage own target sequence instanceId flags numIndex vector)).pathMetric = 0 := by
  have hpos : (s.sendMo nexthop (moMessage own target sequence instanceId flags numIndex
      vector)).pos = vector.length + 6 + 6 := by
    rw [Mo.pos_eq, sendMo_num, h]
  have hcontainer : ∀ k, (s.sendMo nexthop (moMessage own target sequence instanceId flags numIndex
      vector)).buffer (vector.length + 6 + k) = moMetricContainer.getD k 0 := by
    intro k
    have hlength : ∀ b₀ b₁ b₂ b₃ b₄ b₅ : UInt8,
        ([b₀, b₁, b₂, b₃, b₄, b₅] ++ vector).length = vector.length + 6 := by simp
    change (moMessage own target sequence instanceId flags numIndex vector).getD _ 0 = _
    rw [moMessage, List.getD_append_right _ _ _ _ (by rw [hlength]; omega), hlength,
      Nat.add_sub_cancel_left]
  rw [Mo.pathMetric, hpos, get16, hcontainer 6, Nat.add_assoc _ 6 1, hcontainer 7]
  decide

end

lemma moLocal_fresh {hbhrt : Ds6Route cfg.DagRef}
    (hlocal : hbhrt.state.instanceId &&& rplLocalDefaultInstance ≠ 0)
    (h : s.moLocal own target sequence hbhrt = some mo) :
    mo.Fresh ∧ mo.num = rplP2pMoDefaultVectorSize := by
  simp only [moLocal, Option.ite_none_right_eq_some, Option.some.injEq] at h
  obtain ⟨-, rfl⟩ := h
  have hnum : (rplP2pMoN (moNumIndex rplP2pMoDefaultVectorSize)).toNat =
      rplP2pMoDefaultVectorSize := by decide
  exact ⟨⟨⟨sendMo_isLocal.trans (decide_eq_true hlocal), sendMo_hopByHop.trans (by decide),
    sendMo_accumulate.trans (by decide)⟩, sendMo_index.trans (by decide), sendMo_pathMetric (by rw [hnum, List.length_replicate])⟩,
    sendMo_num.trans hnum⟩

/-- Every measurement of a hop-by-hop route with a local instance that `mo_output` sends. -/
lemma moOutput_fresh (h : s.moOutput reachable requests current (some target) = .ok (some mo, requests'))
    (hlocal : mo.isLocal = true) (hhop : mo.hopByHop = true) :
    mo.Fresh ∧ mo.num = rplP2pMoDefaultVectorSize := by
  obtain ⟨own, -, h⟩ := bind_eq_ok.mp h
  obtain ⟨sent, hsent, h⟩ := bind_eq_ok.mp h
  simp only [Except.ok.injEq, Prod.mk.injEq] at h
  obtain ⟨rfl, -⟩ := h
  unfold moOutputTo at hsent
  split at hsent
  · -- the measurement of a source route has no H flag
    simp only at hsent
    split at hsent
    · cases hsent
    · cases hsent
      rw [sendMo_hopByHop] at hhop
      exact absurd hhop (by decide)
  · split at hsent
    · rename_i i hroute
      simp only at hsent
      split_ifs at hsent with hinstance
      · exact moLocal_fresh hinstance (Except.ok.inj hsent)
      · cases hsent
        exact absurd (of_decide_eq_true hlocal) hinstance
    · split at hsent
      · rename_i i d hdefrt hdag
        cases hsent
        have hdefault : (s.dagTable d).instanceId = rplDefaultInstance := (rplGetDag_eq_some hdag).2.1
        rw [sendMo_isLocal, hdefault] at hlocal
        exact absurd hlocal (by decide)
      · cases hsent

end Node

/-! ## One node -/

namespace Mo
variable {mo : Mo}

lemma num_eq : mo.num = (mo.buffer 3).toNat / 16 := by
  have hlt := (mo.buffer 3).toNat_lt
  have hand : (mo.buffer 3).toNat >>> 4 &&& 15 = (mo.buffer 3).toNat >>> 4 % 16 :=
    Nat.and_two_pow_sub_one_eq_mod _ 4
  rw [num, rplP2pMoN, UInt8.toNat_shiftRight, UInt8.toNat_and]
  change ((mo.buffer 3).toNat &&& 0xf0) >>> 4 = _
  rw [Nat.shiftRight_and_distrib, show (0xf0 : ℕ) >>> 4 = 15 from rfl, hand,
    Nat.shiftRight_eq_div_pow]
  omega

lemma index_eq : mo.index = (mo.buffer 3).toNat % 16 := by
  rw [index, rplP2pMoI, UInt8.toNat_and]
  exact Nat.and_two_pow_sub_one_eq_mod _ 4

lemma num_lt : mo.num < 16 := by
  have hlt := (mo.buffer 3).toNat_lt
  rw [num_eq]
  omega

lemma Recording.congr (hmo : mo.Recording) {mo' : Mo} (h0 : mo'.buffer 0 = mo.buffer 0)
    (h1 : mo'.buffer 1 = mo.buffer 1) : mo'.Recording where
  isLocal := by
    rw [Mo.isLocal, h0]
    exact hmo.isLocal
  hopByHop := by
    rw [Mo.hopByHop, h1]
    exact hmo.hopByHop
  accumulate := by
    rw [Mo.accumulate, h1]
    exact hmo.accumulate

/-- The slot that a node takes is the one behind the recorded addresses. -/
lemma moFreeSlot_eq {cfg : Config} {s : Node cfg} {own : IpAddr} {fuel i slot : ℕ}
    (hfuel : mo.index + 1 ≤ i + fuel) (h : s.moFreeSlot own mo fuel i = some slot) :
    slot = max i (mo.index + 1) := by
  induction fuel generalizing i with
  | zero =>
      cases h
      omega
  | succ fuel ih =>
      simp only [Node.moFreeSlot] at h
      split_ifs at h with hi
      · have hslot := ih (by omega) h
        omega
      · cases h
        omega

lemma record_buffer {i j : ℕ} {own : IpAddr} (h3 : j ≠ 3) (hslot : j ≠ 4 + i) :
    (mo.record i own).buffer j = mo.buffer j := by
  rw [record, write_buffer, Function.update_of_ne h3, write_buffer, Function.update_of_ne hslot]

lemma record_buffer_three (i : ℕ) (own : IpAddr) : (mo.record i own).buffer 3 = mo.buffer 3 + 1 := by
  rw [record, write_buffer, Function.update_self, write_buffer, Function.update_of_ne (by omega)]

lemma addLink_buffer_pos (linkMetric : UInt8) : (mo.addLink linkMetric).buffer mo.pos =
    ((mo.pathMetric + Node.niEtxToRplEtx linkMetric) >>> 8).toUInt8 := by
  rw [addLink, write_buffer, Function.update_of_ne (by omega), write_buffer, Function.update_self]

lemma addLink_buffer_pos_succ (linkMetric : UInt8) :
    (mo.addLink linkMetric).buffer (mo.pos + 1) =
      (mo.pathMetric + Node.niEtxToRplEtx linkMetric).toUInt8 := by
  rw [addLink, write_buffer, Function.update_self]

section
variable {cfg : Config} {s s' : Node cfg} {reachable : IpAddr → Bool} {requests : MoRequests}
  {own : IpAddr} {sent : Mo} {linkMetric : UInt8}

/-- A node in between, up to the next hop. -/
lemma moInput_between (hown : s.ownAddr = .ok own) (horigin : s.isMyAddr (mo.address own 0) = false)
    (htarget : s.isMyAddr (mo.address own 1) = false)
    (hlink : s.nbrMetric mo.src = some linkMetric) :
    mo.moInput s reachable requests =
      .ok (s.moAtIntermediate reachable own (mo.addLink linkMetric)) := by
  have htarget' : s.isMyAddr ((mo.addLink linkMetric).address own 1) = false := by
    rw [mo.addLink_address linkMetric own (by omega), htarget]
  simp [moInput, hown, horigin, hlink, htarget']

lemma moForward_send {nexthop : MoNexthop cfg} (h : s.moForward nexthop mo = (.send sent, s')) :
    sent.buffer = mo.buffer := by
  simp only [Node.moForward, Prod.mk.injEq, MoOutcome.send.injEq] at h
  rw [← h.1]

/-- A request that is recorded takes the next slot. -/
lemma moAtIntermediate_send (hmo : mo.Recording)
    (h : s.moAtIntermediate reachable own mo = (.send sent, s')) :
    sent.buffer = (mo.record (max 2 (mo.index + 1)) own).buffer := by
  have hle : mo.index < 16 := by
    rw [index_eq]
    omega
  simp only [Node.moAtIntermediate, hmo.hopByHop, if_true] at h
  split_ifs at h with hrequest
  · simp only [Node.moAlongHopByHop, hmo.isLocal, hmo.accumulate, Bool.and_self, if_true] at h
    split at h
    · cases h
    · split at h
      · cases h
      · rename_i slot hslot
        rw [← moFreeSlot_eq (by omega) hslot]
        exact moForward_send h
  · cases h

/-- What a node in between sends on: with the metric of its link added and its own address in the next
slot. -/
lemma moRelayed_eq (hmo : mo.Recording) (hlink : s.nbrMetric mo.src = some linkMetric)
    (hsent : s.moRelayed reachable requests mo = some sent) :
    ∃ own : IpAddr,
      sent.buffer = ((mo.addLink linkMetric).record (max 2 (mo.index + 1)) own).buffer := by
  have hpos := mo.pos_eq
  have h0 : (mo.addLink linkMetric).buffer 0 = mo.buffer 0 := mo.addLink_buffer _ (by omega)
  have h1 : (mo.addLink linkMetric).buffer 1 = mo.buffer 1 := mo.addLink_buffer _ (by omega)
  have h3 : (mo.addLink linkMetric).buffer 3 = mo.buffer 3 := mo.addLink_buffer _ (by omega)
  have hindex : (mo.addLink linkMetric).index = mo.index := by rw [index, index, h3]
  unfold Node.moRelayed at hsent
  split at hsent
  · rename_i own sent' s' hown hinput
    split_ifs at hsent with hbetween
    cases hsent
    simp only [Bool.or_eq_true, not_or, Bool.not_eq_true] at hbetween
    rw [moInput_between hown hbetween.1 hbetween.2 hlink] at hinput
    refine ⟨own, ?_⟩
    rw [← hindex]
    exact moAtIntermediate_send (hmo.congr h0 h1) (Except.ok.inj hinput)
  · cases hsent

/-- The bytes that a node in between leaves alone. -/
lemma moRelayed_buffer (hmo : mo.Recording) (hlink : s.nbrMetric mo.src = some linkMetric)
    (hsent : s.moRelayed reachable requests mo = some sent) {j : ℕ} (h3 : j ≠ 3)
    (hslot : j ≠ 4 + max 2 (mo.index + 1)) (hj : j < mo.pos) : sent.buffer j = mo.buffer j := by
  obtain ⟨own, hbuffer⟩ := moRelayed_eq hmo hlink hsent
  rw [hbuffer, record_buffer h3 hslot, mo.addLink_buffer _ hj]

/-- Num and Index are one byte, and it is incremented. -/
lemma moRelayed_buffer_three (hmo : mo.Recording) (hlink : s.nbrMetric mo.src = some linkMetric)
    (hsent : s.moRelayed reachable requests mo = some sent) :
    sent.buffer 3 = mo.buffer 3 + 1 := by
  have hpos := mo.pos_eq
  obtain ⟨own, hbuffer⟩ := moRelayed_eq hmo hlink hsent
  rw [hbuffer, record_buffer_three, mo.addLink_buffer _ (by omega)]

/-- While the slot lies in front of the metric, the metric of the link is added. -/
lemma moRelayed_pathMetric (hmo : mo.Recording) (hlink : s.nbrMetric mo.src = some linkMetric)
    (hsent : s.moRelayed reachable requests mo = some sent) (hslot : 4 + max 2 (mo.index + 1) < mo.pos)
    (hnum : sent.num = mo.num) :
    sent.pathMetric = mo.pathMetric + Node.niEtxToRplEtx linkMetric := by
  have hpos := mo.pos_eq
  obtain ⟨own, hbuffer⟩ := moRelayed_eq hmo hlink hsent
  rw [pathMetric, show sent.pos = mo.pos by rw [pos_eq, pos_eq, hnum], hbuffer, get16,
    record_buffer (by omega) (by omega), record_buffer (by omega) (by omega), addLink_buffer_pos,
    addLink_buffer_pos_succ]
  exact word16_of_bytes _
end

end Mo

/-! ## All nodes -/

namespace MoRun
variable {mo received : Mo} {hops : List MoHop}

lemma recording (run : MoRun mo hops received) (hmo : mo.Recording) : received.Recording := by
  induction run with
  | origin => exact hmo
  | @relay hops received sent cfg s reachable requests linkMetric run hlink hsent ih =>
      have hpos := received.pos_eq
      exact ih.congr (Mo.moRelayed_buffer ih hlink hsent (by omega) (by omega) (by omega))
        (Mo.moRelayed_buffer ih hlink hsent (by omega) (by omega) (by omega))

/-- Num and Index together count the nodes, whatever becomes of the rest. -/
lemma buffer_three (run : MoRun mo hops received) (hmo : mo.Recording) :
    received.buffer 3 = mo.buffer 3 + UInt8.ofNat hops.length := by
  induction run with
  | origin => exact (UInt8.add_zero _).symm
  | relay s reachable requests run hlink hsent ih =>
      rw [Mo.moRelayed_buffer_three (run.recording hmo) hlink hsent, ih, List.length_append,
        List.length_singleton, UInt8.ofNat_add, UInt8.add_assoc]
      rfl

/-- The run up to a node. -/
lemma take (run : MoRun mo hops received) {k : ℕ} (hk : k < hops.length) :
    MoRun mo (hops.take (k + 1)) hops[k].sent := by
  induction run with
  | origin => exact absurd hk (Nat.not_lt_zero k)
  | @relay hops received sent cfg s reachable requests linkMetric run hlink hsent ih =>
      rw [List.length_append, List.length_singleton] at hk
      rcases Nat.lt_or_ge k hops.length with hlt | hge
      · rw [List.take_append_of_le_length (by omega), List.getElem_append_left hlt]
        exact ih hlt
      · obtain rfl : k = hops.length := by omega
        rw [List.take_of_length_le (by simp), List.getElem_concat_length rfl]
        exact run.relay s reachable requests hlink hsent

lemma niEtxToRplEtx_le (linkMetric : UInt8) : (Node.niEtxToRplEtx linkMetric).toNat ≤ 2040 := by
  have hlt := linkMetric.toNat_lt
  have hdiv : rplDagMcEtxDivisor / neighborInfoEtxDivisor.toUInt16 = 8 := by decide
  rw [Node.niEtxToRplEtx, hdiv, UInt16.toNat_mul, UInt8.toNat_toUInt16]
  change linkMetric.toNat * 8 % 65536 ≤ 2040
  omega

lemma linkSum_le (hops : List MoHop) : linkSum hops ≤ 2040 * hops.length := by
  induction hops with
  | nil => exact Nat.le_refl 0
  | cons hop hops ih =>
      have hle := niEtxToRplEtx_le hop.linkMetric
      simp only [linkSum, List.map_cons, List.sum_cons, List.length_cons] at ih ⊢
      omega

lemma toNat_buffer_three (hmo : mo.Fresh) (run : MoRun mo hops received) :
    (received.buffer 3).toNat = (16 * mo.num + 1 + hops.length) % 256 := by
  have hindex := hmo.index
  rw [Mo.index_eq] at hindex
  rw [run.buffer_three hmo.toRecording, UInt8.toNat_add, Mo.num_eq, UInt8.toNat_ofNat']
  omega

/-- While the index stays within its four bits, it counts the nodes, and Num is kept. -/
lemma num_index (hmo : mo.Fresh) (run : MoRun mo hops received) (hlong : hops.length ≤ 14) :
    received.num = mo.num ∧ received.index = hops.length + 1 := by
  have h3 := run.toNat_buffer_three hmo
  have hlt := mo.num_lt
  rw [received.num_eq, Mo.index_eq, h3]
  omega

/-- While the vector has room as well, nothing is damaged. -/
lemma intact (hmo : mo.Fresh) (run : MoRun mo hops received) (hnum : hops.length ≤ mo.num)
    (hlong : hops.length ≤ 14) :
    mo.Intact received ∧ received.pathMetric.toNat = linkSum hops := by
  induction run with
  | origin =>
      refine ⟨⟨?_, rfl, rfl⟩, ?_⟩
      · rw [Mo.recorded, hmo.index]
        omega
      · rw [hmo.pathMetric]
        rfl
  | @relay hops received sent cfg s reachable requests linkMetric run hlink hsent ih =>
      obtain ⟨hnum', hindex'⟩ := (run.relay s reachable requests hlink hsent).num_index hmo hlong
      rw [List.length_append, List.length_singleton] at hnum hlong hindex'
      obtain ⟨hintact, hsum⟩ := ih (by omega) (by omega)
      obtain ⟨hnum'', hindex''⟩ := run.num_index hmo (by omega)
      have hrec := run.recording hmo.toRecording
      have hpos := received.pos_eq
      have hpos' : sent.pos = received.pos := by
        rw [Mo.pos_eq, Mo.pos_eq, hnum', hnum'']
      refine ⟨⟨?_, ?_, hnum'⟩, ?_⟩
      · rw [Mo.recorded, hindex', hnum']
        omega
      · rw [← hintact.container, Mo.container, Mo.container, hpos']
        -- the next slot lies in front of the container
        refine List.map_congr_left fun k hk => ?_
        rw [List.mem_range] at hk
        exact Mo.moRelayed_buffer hrec hlink hsent (by omega) (by omega) (by omega)
      · have hle := linkSum_le hops
        have hlinkle := niEtxToRplEtx_le linkMetric
        have hmetric := Mo.moRelayed_pathMetric hrec hlink hsent (by omega) (hnum'.trans hnum''.symm)
        have happend : linkSum (hops ++ [⟨linkMetric, sent⟩]) =
            linkSum hops + (Node.niEtxToRplEtx linkMetric).toNat := by simp [linkSum]
        rw [hmetric, UInt16.toNat_add, hsum, happend]
        apply Nat.mod_eq_of_lt
        omega

/-- The first node without a slot damages the message, and so does the one whose increment of the
index goes beyond the four bits. -/
lemma length_le_of_intact (hmo : mo.Fresh) (run : MoRun mo hops received)
    (hintact : ∀ hop ∈ hops, mo.Intact hop.sent) : hops.length ≤ mo.num ∧ hops.length ≤ 14 := by
  by_contra hlong
  have hk : min mo.num 14 < hops.length := by omega
  obtain ⟨hrecorded, -, hnum⟩ := hintact _ (List.getElem_mem hk)
  have h3 := (run.take hk).toNat_buffer_three hmo
  rw [List.length_take] at h3
  have hlt := mo.num_lt
  rw [Mo.recorded, Mo.index_eq, h3, hnum] at hrecorded
  rw [Mo.num_eq, h3] at hnum
  omega

end MoRun

/-- A request is intact after every node on the way and arrives with the sum of the link metrics,
exactly when the vector has a slot for every node and the index stays within its four bits. -/
theorem MoRun.measured_iff {mo received : Mo} {hops : List MoHop} (hmo : mo.Fresh)
    (run : MoRun mo hops received) :
    ((∀ hop ∈ hops, mo.Intact hop.sent) ∧ received.pathMetric.toNat = linkSum hops) ↔
      hops.length ≤ mo.num ∧ hops.length ≤ 14 := by
  constructor
  · rintro ⟨hintact, -⟩
    exact run.length_le_of_intact hmo hintact
  · rintro ⟨hnum, hlong⟩
    refine ⟨fun hop hmem => ?_, (run.intact hmo hnum hlong).2⟩
    obtain ⟨k, hk, rfl⟩ := List.getElem_of_mem hmem
    have htake : (hops.take (k + 1)).length = k + 1 := by
      rw [List.length_take]
      omega
    exact ((run.take hk).intact hmo (by omega) (by omega)).1

/-! ## A row of nodes -/

/-- A request through a row of nodes. -/
def Node.moThrough (reachable : IpAddr → Bool) (requests : MoRequests) :
    List (Node .default) → Mo → Option Mo
  | [], mo => some mo
  | s :: rest, mo => (s.moRelayed reachable requests mo).bind (moThrough reachable requests rest)

lemma Mo.moRelayed_link {cfg : Config} {s : Node cfg} {reachable : IpAddr → Bool}
    {requests : MoRequests} {mo sent : Mo} (h : s.moRelayed reachable requests mo = some sent) :
    ∃ linkMetric, s.nbrMetric mo.src = some linkMetric := by
  cases hlink : s.nbrMetric mo.src with
  | some linkMetric => exact ⟨linkMetric, rfl⟩
  | none =>
      unfold Node.moRelayed at h
      split at h
      · rename_i own sent' s' hown hinput
        split_ifs at h with hbetween
        simp only [Bool.or_eq_true, not_or, Bool.not_eq_true] at hbetween
        simp [moInput, hown, hbetween.1, hlink] at hinput
      · cases h

lemma MoRun.through {mo received sent : Mo} {reachable : IpAddr → Bool} {requests : MoRequests}
    {nodes : List (Node .default)} {hops : List MoHop} (run : MoRun mo hops received)
    (h : Node.moThrough reachable requests nodes received = some sent) :
    ∃ hops', MoRun mo hops' sent ∧ hops'.length = hops.length + nodes.length := by
  induction nodes generalizing hops received with
  | nil =>
      cases h
      exact ⟨hops, run, rfl⟩
  | cons s rest ih =>
      obtain ⟨next, hnext, h⟩ := Option.bind_eq_some_iff.mp h
      obtain ⟨linkMetric, hlink⟩ := Mo.moRelayed_link hnext
      obtain ⟨hops', run', hlength⟩ := ih (run.relay s reachable requests hlink hnext) h
      refine ⟨hops', run', hlength.trans ?_⟩
      simp only [List.length_append, List.length_cons, List.length_nil]
      omega

/-- The node `n` with the node behind it as its default router. -/
def rowNode (n : UInt8) : Node .default :=
  { Node.boot n with
    defrtList := fun i =>
      if i.val = 0 then ⟨⟨true, Node.nodeLinkLocal (n + 1)⟩, 0, true⟩ else default }

/-- The request of the node 1 for its route to the node 200, with the default size of the vector. -/
def rowRequest : Mo where
  src := Node.nodeLinkLocal 1
  dst := Node.nodeLinkLocal 2
  buffer := fun i =>
    [0x80, 0xfe, 1, 0xa1, 1, 200, 0, 0, 0, 0, 0, 0, 0, 0, 0, 0, 2, 6, 7, 0, 0, 2, 0, 0].getD i 0
  length := 24

lemma rowRequest_fresh : rowRequest.Fresh where
  isLocal := by decide
  hopByHop := by decide
  accumulate := by decide
  index := by decide
  pathMetric := by decide

lemma exists_row {n : ℕ} (h : (Node.moThrough (fun _ => true) ⟨0, fun _ => none⟩
    ((List.range n).map fun k => rowNode (UInt8.ofNat k + 2)) rowRequest).isSome = true) :
    ∃ hops received, MoRun rowRequest hops received ∧ hops.length = n := by
  obtain ⟨received, hreceived⟩ := Option.isSome_iff_exists.mp h
  obtain ⟨hops, run, hlength⟩ := MoRun.origin.through hreceived
  refine ⟨hops, received, run, hlength.trans ?_⟩
  simp

/-- Five nodes on the way. -/
theorem MoRun.measured_iff_five : ∃ hops received, MoRun rowRequest hops received ∧
    hops.length = 5 ∧ (∀ hop ∈ hops, rowRequest.Intact hop.sent) ∧
      received.pathMetric.toNat = linkSum hops := by
  obtain ⟨hops, received, run, hlength⟩ := exists_row (n := 5) (by decide +kernel)
  have hnum : rowRequest.num = 10 := by decide
  refine ⟨hops, received, run, hlength, (MoRun.measured_iff rowRequest_fresh run).mpr ?_⟩
  omega

/-- The eleventh node on the way writes into the metric container. -/
theorem MoRun.not_measured : ¬∀ (mo received : Mo) (hops : List MoHop), mo.Fresh →
    MoRun mo hops received →
      (∀ hop ∈ hops, mo.Intact hop.sent) ∧ received.pathMetric.toNat = linkSum hops := by
  intro hall
  obtain ⟨hops, received, run, hlength⟩ := exists_row (n := 11) (by decide +kernel)
  have hnum : rowRequest.num = 10 := by decide
  have hfits := run.length_le_of_intact rowRequest_fresh
    (hall rowRequest received hops rowRequest_fresh run).1
  omega

end Contiki
