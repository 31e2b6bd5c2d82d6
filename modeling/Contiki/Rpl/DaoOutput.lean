import Contiki.Rpl.DaoRoutes
import Contiki.Rpl.DioRoundtrip
import Contiki.Net.SourceSelection

/-!
# The sending of DAOs

`dao_output` of `rpl-icmp6.c` and the timer in `rpl-timers.c` that calls it.  A DAO has one target, the
global address of the node, and travels on as it is: `daoOptions_daoPayload` says what every receiver takes
from it.
-/

namespace Contiki

/-- A DAO that was handed to the IPv6 layer. -/
structure DaoFrame where
  src : IpAddr
  dst : IpAddr
  payload : List UInt8
deriving DecidableEq

/-- A node with `dao_sequence`. -/
structure DaoNode (cfg : Config) extends Node cfg where
  daoSequence : UInt8

def getGlobalAddr {n : ℕ} (list : Fin n → Ds6Addr) : Option IpAddr :=
  ((List.finRange n).find? fun i =>
    (list i).isused && ((list i).state == .tentative || (list i).state == .preferred) &&
      !(list i).ipaddr.uipIsAddrLinkLocal).map fun i => (list i).ipaddr

/-- The message that `dao_output` writes: a target option for an address and a transit option. -/
def daoPayload (instanceId flags sequence : UInt8) (target : IpAddr) (lifetime : UInt8) : List UInt8 :=
  [instanceId, flags, 0, sequence, rplOptionTarget, 18, 0, 128] ++ target.u8 ++
    [rplOptionTransit, 4, 0, 0, 0, lifetime]

/-- `uip_icmp6_send` of a DAO. -/
def Node.sendDao {cfg : Config} (s : Node cfg) (dst : IpAddr) (payload : List UInt8) : DaoFrame :=
  ⟨uipDs6SelectSrc s.addrList dst, dst, payload⟩

namespace DaoNode
variable {cfg : Config} (daoAck : Bool) (s : DaoNode cfg)

/-- The end of `dao_output`: a new sequence number, and the message. -/
def advertise (d : cfg.DagRef) (target dst : IpAddr) (lifetime : UInt8) : DaoFrame × DaoNode cfg :=
  let s := { s with daoSequence := s.daoSequence + 1 }
  let flags := if daoAck then rplDaoKFlag else 0
  (s.sendDao dst (daoPayload (s.dagTable d).instanceId flags s.daoSequence target lifetime), s)

/-- `dao_output`; `daoAck` is `RPL_CONF_DAO_ACK`.  Without a parent the DAO goes to all RPL nodes on the link. -/
def daoOutput (n : Option cfg.ParentRef) (lifetime : UInt8) : Except Fault (Option DaoFrame × DaoNode cfg) :=
  match getGlobalAddr s.addrList with
  | none => .ok (none, s)
  | some target =>
    match n with
    | none =>
      match s.rplGetDag rplDefaultInstance none with
      | none => .ok (none, s)
      | some d =>
        let sent := s.advertise daoAck d target linklocalRplnodesMcast lifetime
        .ok (some sent.1, sent.2)
    | some p => do
      let d ← deref (s.parent p).dag .outOfBounds
      let sent := s.advertise daoAck d target (s.parent p).addr lifetime
      .ok (some sent.1, sent.2)

/-- `handle_dao_timer`, with whether the timer is set again because there is no link-local address yet. -/
def handleDaoTimer (d : cfg.DagRef) : Except Fault (Option DaoFrame × Bool × DaoNode cfg) :=
  if !s.dioSendOk && (uipDs6GetLinkLocal s.addrList .preferred).isNone then .ok (none, true, s)
  else
    match (s.dagTable d).preferredParent with
    | none => .ok (none, false, s)
    | some p =>
      (s.daoOutput daoAck (some p) (s.dagTable d).config.defaultLifetime).map fun r => (r.1, false, r.2)

/-- `dao_input`; a DAO that goes on to the preferred parent is sent with an own address as its source. -/
def receiveDao (stack sender : IpAddr) (buffer : ℕ → UInt8) (bufferLength : UInt8) :
    Except Fault (Option DaoFrame × DaoNode cfg) :=
  (s.daoInput stack sender buffer bufferLength).map fun r =>
    (r.1.bind fun
      | .forward dst payload => some (r.2.sendDao dst payload)
      | .ack _ _ => none,
    { s with toNode := r.2 })

end DaoNode

/-! ## What a receiver takes from it -/

section Parse
variable {instanceId flags sequence lifetime : UInt8} {target : IpAddr}

lemma length_daoPayload : (daoPayload instanceId flags sequence target lifetime).length = 30 := by
  simp [daoPayload, target.length_u8]

/-- Both options are read, and then the message ends. -/
lemma parseDaoOptions_daoPayload {buffer : ℕ → UInt8}
    (hbuffer : Holds buffer 0 (daoPayload instanceId flags sequence target lifetime)) (fuel : ℕ) (o : DaoOptions) :
    parseDaoOptions buffer 30 (fuel + 3) 4 o = .ok ⟨target, 128, lifetime⟩ := by
  rw [daoPayload, holds_append, holds_append] at hbuffer
  obtain ⟨⟨hhead, htarget⟩, htransit⟩ := hbuffer
  simp only [holds_cons, holds_nil, and_true] at hhead
  obtain ⟨-, -, -, -, h4, h5, -, h7⟩ := hhead
  simp only [List.length_append, List.length_cons, List.length_nil, target.length_u8, holds_cons, holds_nil,
    and_true] at htransit htarget
  obtain ⟨h24, h25, -, -, -, h29⟩ := htransit
  have htarget' : IpAddr.ofBytes (bytesAt buffer 8 16) = target := ofBytes_bytesAt htarget
  norm_num at h4 h5 h7 h24 h25 h29
  have hfirst : parseDaoOption buffer 4 o = .ok ⟨target, 128, o.lifetime⟩ := by
    rw [parseDaoOption, if_pos h4]
    simp only [h7]
    rw [if_pos (by decide), show ((128 : UInt8).toNat + 7) / 8 = 16 from rfl, htarget']
  have hsecond : parseDaoOption buffer 24 ⟨target, 128, o.lifetime⟩ = .ok ⟨target, 128, lifetime⟩ := by
    rw [parseDaoOption, if_neg (by rw [h24]; decide), if_pos h24, h29]
  have hnext : 4 + (2 + (18 : UInt8).toNat) = 24 := rfl
  have hend : 24 + (2 + (4 : UInt8).toNat) = 30 := rfl
  have hpad : buffer 4 ≠ rplOptionPad1 := by rw [h4]; decide
  have hpad' : buffer 24 ≠ rplOptionPad1 := by rw [h24]; decide
  rw [parseDaoOptions, if_pos (by omega), hfirst, if_neg hpad, h5]
  change parseDaoOptions buffer 30 (fuel + 2) (4 + (2 + (18 : UInt8).toNat)) ⟨target, 128, o.lifetime⟩ = _
  rw [hnext, parseDaoOptions, if_pos (by omega), hsecond, if_neg hpad', h25]
  change parseDaoOptions buffer 30 (fuel + 1) (24 + (2 + (4 : UInt8).toNat)) ⟨target, 128, lifetime⟩ = _
  rw [hend, parseDaoOptions, if_neg (by omega)]

/-- The target and the lifetime are read back, whatever stands behind the message. -/
theorem daoOptions_daoPayload {buffer : ℕ → UInt8}
    (hbuffer : Holds buffer 0 (daoPayload instanceId flags sequence target lifetime))
    (hflags : flags &&& rplDaoDFlag = 0) (stack : IpAddr) (defaultLifetime : UInt8) :
    daoOptions buffer 30 stack defaultLifetime = .ok ⟨target, 128, lifetime⟩ := by
  have hflag : buffer 1 = flags := by
    rw [daoPayload, List.append_assoc, List.cons_append, List.cons_append] at hbuffer
    exact hbuffer.2.1
  have hlength : (30 : UInt8).toNat = 27 + 3 := rfl
  rw [daoOptions, if_neg (by rw [hflag, hflags]; decide), hlength]
  exact parseDaoOptions_daoPayload hbuffer 27 _

end Parse

/-! ## Addresses -/

section Addresses
variable {n : ℕ} {list : Fin n → Ds6Addr}

/-- The global address is one of the addresses of the node. -/
lemma getGlobalAddr_mine {a : IpAddr} (h : getGlobalAddr list = some a) : uipDs6IsMyAddr list a = true := by
  obtain ⟨i, hi, rfl⟩ := Option.map_eq_some_iff.mp h
  have hused := List.find?_some hi
  simp only [Bool.and_eq_true] at hused
  exact uipDs6IsMyAddr_iff.mpr ⟨i, hused.1.1, rfl⟩

/-- An interface with a link-local address and another one, both of which may be used. -/
structure Addressed (list : Fin n → Ds6Addr) : Prop where
  preferred : ∀ i, (list i).isused = true → (list i).state = .preferred
  linkLocal : ∃ i, (list i).isused = true ∧ (list i).ipaddr.uipIsAddrLinkLocal = true
  global : ∃ i, (list i).isused = true ∧ (list i).ipaddr.uipIsAddrLinkLocal = false

/-- The link-local address is found, and is an address of the node. -/
lemma Addressed.exists_linkLocal (h : Addressed list) :
    ∃ a, uipDs6GetLinkLocal list .preferred = some a ∧ uipDs6IsMyAddr list a = true := by
  obtain ⟨i, hused, hll⟩ := h.linkLocal
  let check : Fin n → Bool := fun i =>
    (list i).isused && (list i).state == .preferred && (list i).ipaddr.uipIsAddrLinkLocal
  have hcheck : check i = true := by simp [check, hused, hll, h.preferred i hused]
  obtain ⟨j, hj⟩ : ∃ j, (List.finRange n).find? check = some j :=
    Option.isSome_iff_exists.mp (List.find?_isSome.mpr ⟨i, List.mem_finRange i, hcheck⟩)
  have hj' := List.find?_some hj
  simp only [check, Bool.and_eq_true] at hj'
  refine ⟨(list j).ipaddr, congrArg (Option.map _) hj, uipDs6IsMyAddr_iff.mpr ⟨j, hj'.1.1, rfl⟩⟩

/-- The source of a message is an address of the node. -/
lemma Addressed.selectSrc_mine (h : Addressed list) (dst : IpAddr) :
    uipDs6IsMyAddr list (uipDs6SelectSrc list dst) = true := by
  by_cases hlocal : dst.uipIsAddrLinkLocal = true ∨ dst.uipIsAddrMcast = true
  · obtain ⟨a, ha, hmine⟩ := h.exists_linkLocal
    have hcond : (!dst.uipIsAddrLinkLocal && !dst.uipIsAddrMcast) = false := by
      rcases hlocal with hlocal | hlocal <;> simp [hlocal]
    have hsrc : uipDs6SelectSrc list dst = a := by
      simp only [uipDs6SelectSrc, hcond, ha]
      rfl
    rwa [hsrc]
  · rw [not_or, Bool.not_eq_true, Bool.not_eq_true] at hlocal
    obtain ⟨i, hused, hll⟩ := h.global
    obtain ⟨j, hj, hsrc, -⟩ : PicksLongest list dst := by
      rcases select_cases list hlocal.1 hlocal.2 with ⟨hnone, -⟩ | hpicks
      · exact absurd ⟨hused, h.preferred i hused, hll⟩ (hnone i)
      · exact hpicks
    rw [hsrc]
    exact uipDs6IsMyAddr_iff.mpr ⟨j, hj.1, rfl⟩

end Addresses

end Contiki
