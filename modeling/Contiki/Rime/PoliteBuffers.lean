import Contiki.Lib.History
import Contiki.Rime.QueuebufPools

/-!
# The queue buffers of polite broadcasts

`ipolite` and `polite` keep a packet in a queue buffer until a timer sends it, and drop it when copies of it
are heard.  The buffers come from pools that are shared with other protocols.

* `PoliteConn.Owns` — the counters of the pools are those of the buffers that the connection and the others hold.
* `PoliteConn.Inv` — that, and that what is kept is what was accepted last.
* `polite_buffers` — every run of either protocol.
-/

namespace Contiki
namespace Rime
variable {P : Type} {n m : ℕ}

/-- What happens to packets and buffers: packets are given to the connection, accepted, taken back or dropped,
and sent by the timer; buffers are taken and freed. -/
inductive PoliteAct (P : Type) (n m : ℕ)
  | send
  | accept (p : P)
  | cancel
  | drop
  | transmit (p : P)
  | take (b : QueuebufPtr n m)
  | free (b : QueuebufPtr n m)

namespace PoliteAct

/-- Whether a buffer is taken. -/
def takes (b : QueuebufPtr n m) : PoliteAct P n m → Bool
  | .take b' => b' = b
  | _ => false

/-- Whether a buffer is freed. -/
def frees (b : QueuebufPtr n m) : PoliteAct P n m → Bool
  | .free b' => b' = b
  | _ => false

/-- The packet that waits: the one that was accepted, until it is replaced, taken back, dropped or sent. -/
def waiting (p : Option P) : PoliteAct P n m → Option P
  | .accept p => some p
  | .take _ => p
  | .free _ => p
  | _ => none

end PoliteAct

/-- The packet that waits behind all that happened. -/
def waitingPacket (trace : List (PoliteAct P n m)) : Option P := trace.foldl PoliteAct.waiting none

/-- The timer sends the packet that waits, and none that was replaced, taken back, dropped or sent. -/
def NeverStale (trace : List (PoliteAct P n m)) : Prop :=
  Throughout (fun pre _ a => ∀ p, a = .transmit p → waitingPacket pre = some p) trace

/-- `struct ipolite_conn`, and `struct polite_conn`, which is without `dups` and `maxdups`; whether the timer
is set; the pools, the buffers that other protocols hold, and what happened so far. -/
structure PoliteConn (P : Type) (n m : ℕ) where
  q : Option (QueuebufPtr n m)
  hdrsize : UInt8
  dups : UInt8
  maxdups : UInt8
  t : Bool
  bufs : QueuebufPools P n m
  others : List (QueuebufPtr n m)
  trace : List (PoliteAct P n m)

/-- What happens to a connection: its calls, the timer that fires, packets that are received, with the bytes
that the kept packets show then, and the buffers that other protocols take and free. -/
inductive PoliteEvent (P : Type) (n m : ℕ)
  | send (interval : ℕ) (hdrsize : UInt8) (p : P) (sent : Bool)
  | cancel
  | close
  | fire
  | recv (heard : List UInt8) (bytes : P → List UInt8)
  | otherTake (p : P)
  | otherFree (b : QueuebufPtr n m)

namespace PoliteConn
variable (c : PoliteConn P n m)

/-- A connection that is opened before anything else takes a buffer. -/
def opened (blank : P) (maxdups : UInt8) : PoliteConn P n m where
  q := none
  hdrsize := 0
  dups := 0
  maxdups := maxdups
  t := false
  bufs := QueuebufPools.queuebufInit blank
  others := []
  trace := []

/-- Something happens. -/
def log (a : PoliteAct P n m) : PoliteConn P n m := { c with trace := c.trace ++ [a] }

/-- `queuebuf_free(c->q)`, if there is a buffer. -/
def freeKept : PoliteConn P n m :=
  match c.q with
  | none => c
  | some b => { c with bufs := c.bufs.queuebufFree b }.log (.free b)

/-- The buffer is freed, and `q` is cleared. -/
def dropKept : PoliteConn P n m := { c.freeKept with q := none }

/-- A packet is kept until the timer fires, if there is a buffer for it; the time is left out. -/
def keep (isReference : P → Bool) (p : P) : Bool × PoliteConn P n m :=
  match c.bufs.queuebufNew isReference p with
  | none => (false, { c with q := none })
  | some (b, bufs) => (true, ({ c with q := some b, t := true, bufs := bufs }.log (.take b)).log (.accept p))

/-- A packet with the same length and the same first bytes was heard. -/
def HeardCopy (heard kept : List UInt8) : Prop :=
  heard.length = kept.length ∧
    heard.take (min c.hdrsize.toNat heard.length) = kept.take (min c.hdrsize.toNat heard.length)

instance (heard kept : List UInt8) : Decidable (c.HeardCopy heard kept) :=
  inferInstanceAs (Decidable (_ ∧ _))

/-- `recv` of `ipolite.c`. -/
def ipoliteRecv (heard : List UInt8) (bytes : P → List UInt8) : PoliteConn P n m :=
  match c.q with
  | none => c
  | some b =>
    if c.HeardCopy heard (bytes (c.bufs.packet b)) then
      let c := { c with dups := c.dups + 1 }
      if c.dups = c.maxdups then { c.dropKept with t := false }.log .drop else c
    else c

/-- `recv` of `polite.c`. -/
def politeRecv (heard : List UInt8) (bytes : P → List UInt8) : PoliteConn P n m :=
  match c.q with
  | none => c
  | some b =>
    if c.HeardCopy heard (bytes (c.bufs.packet b)) then { c.dropKept with t := false }.log .drop else c

/-- `send`, which the timer calls. -/
def timerSend : PoliteConn P n m :=
  match c.q with
  | none => c
  | some b => c.dropKept.log (.transmit (c.bufs.packet b))

/-- The timer fires, if it is set. -/
def fire : PoliteConn P n m := if c.t then { c with t := false }.timerSend else c

/-- `ipolite_close`, `ipolite_cancel`, `polite_close` and `polite_cancel`. -/
def stop : PoliteConn P n m := { (c.log .cancel) with t := false }.dropKept

/-- `ipolite_send`; `sent` is what `broadcast_send` answers. -/
def ipoliteSend (isReference : P → Bool) (interval : ℕ) (hdrsize : UInt8) (p : P) (sent : Bool) :
    Bool × PoliteConn P n m :=
  let c := { (c.log .send).freeKept with dups := 0, hdrsize := hdrsize }
  if interval = 0 then (sent, c) else c.keep isReference p

def politeSend (isReference : P → Bool) (hdrsize : UInt8) (p : P) : Bool × PoliteConn P n m :=
  { (c.log .send).freeKept with hdrsize := hdrsize }.keep isReference p

/-- Another protocol takes a buffer. -/
def otherTake (isReference : P → Bool) (p : P) : PoliteConn P n m :=
  match c.bufs.queuebufNew isReference p with
  | none => c
  | some (b, bufs) => { c with bufs := bufs, others := b :: c.others }

/-- Another protocol frees a buffer that it holds. -/
def otherFree (b : QueuebufPtr n m) : PoliteConn P n m :=
  if b ∈ c.others then { c with bufs := c.bufs.queuebufFree b, others := c.others.erase b } else c

/-- What an event does to an `ipolite` connection. -/
def ipoliteStep (isReference : P → Bool) (c : PoliteConn P n m) : PoliteEvent P n m → PoliteConn P n m
  | .send interval hdrsize p sent => (c.ipoliteSend isReference interval hdrsize p sent).2
  | .cancel => c.stop
  | .close => c.stop
  | .fire => c.fire
  | .recv heard bytes => c.ipoliteRecv heard bytes
  | .otherTake p => c.otherTake isReference p
  | .otherFree b => c.otherFree b

/-- What an event does to a `polite` connection. -/
def politeStep (isReference : P → Bool) (c : PoliteConn P n m) : PoliteEvent P n m → PoliteConn P n m
  | .send _ hdrsize p _ => (c.politeSend isReference hdrsize p).2
  | .cancel => c.stop
  | .close => c.stop
  | .fire => c.fire
  | .recv heard bytes => c.politeRecv heard bytes
  | .otherTake p => c.otherTake isReference p
  | .otherFree b => c.otherFree b

/-- The connection owns its buffer: it is allocated and nobody else's, every buffer that was taken was freed
once, the one that is kept excepted, and no packet is sent that does not wait. -/
structure Sound : Prop where
  held : ∀ b, c.q = some b → c.bufs.count b = 1 ∧ b ∉ c.others
  balance : ∀ b, c.trace.countP (PoliteAct.takes b) =
    c.trace.countP (PoliteAct.frees b) + if c.q = some b then 1 else 0
  neverStale : NeverStale c.trace

/-- The pools are those of a connection that holds the buffer `q`. -/
structure Owns (q : Option (QueuebufPtr n m)) : Prop where
  count : ∀ b, c.bufs.count b = (if q = some b then 1 else 0) + c.others.count b
  le : ∀ b, c.bufs.count b ≤ 1
  balance : ∀ b, c.trace.countP (PoliteAct.takes b) =
    c.trace.countP (PoliteAct.frees b) + if q = some b then 1 else 0

/-- What the connection holds is what waits. -/
structure Inv : Prop where
  owns : c.Owns c.q
  waiting : waitingPacket c.trace = c.q.map c.bufs.packet
  neverStale : NeverStale c.trace

variable {c} {q : Option (QueuebufPtr n m)} {b : QueuebufPtr n m} {a : PoliteAct P n m}

@[simp] lemma waitingPacket_append (trace : List (PoliteAct P n m)) (a : PoliteAct P n m) :
    waitingPacket (trace ++ [a]) = PoliteAct.waiting (waitingPacket trace) a := by
  rw [waitingPacket, List.foldl_append]
  rfl

lemma neverStale_append {trace : List (PoliteAct P n m)} (h : NeverStale trace)
    (ha : ∀ p, a = .transmit p → waitingPacket trace = some p) : NeverStale (trace ++ [a]) :=
  h.append (fun _ _ _ h => h) ha

/-- A buffer that the connection holds is allocated, and nobody else's. -/
lemma Owns.held (h : c.Owns (some b)) : c.bufs.count b = 1 ∧ b ∉ c.others := by
  have hcount := h.count b
  have hle := h.le b
  rw [if_pos rfl] at hcount
  have hzero : c.others.count b = 0 := by omega
  exact ⟨by omega, List.count_eq_zero.mp hzero⟩

lemma Inv.sound (h : c.Inv) : c.Sound :=
  ⟨fun _ hb => (hb ▸ h.owns : c.Owns (some _)).held, h.owns.balance, h.neverStale⟩

/-! ## What the parts of the functions do -/

/-- What is neither a taking nor a freeing leaves the accounts. -/
lemma Owns.log (h : c.Owns q) (htake : ∀ b, a.takes b = false) (hfree : ∀ b, a.frees b = false) :
    (c.log a).Owns q := by
  refine ⟨h.count, h.le, fun b => ?_⟩
  show (c.trace ++ [a]).countP _ = (c.trace ++ [a]).countP _ + _
  rw [List.countP_append, List.countP_append, List.countP_singleton, List.countP_singleton, htake, hfree]
  exact h.balance b

/-- The buffer is given back. -/
lemma Owns.freeKept (h : c.Owns c.q) : c.freeKept.Owns none := by
  unfold PoliteConn.freeKept
  cases hq : c.q with
  | none =>
    rw [hq] at h
    exact h
  | some b =>
    rw [hq] at h
    have hone := h.held.1
    refine ⟨fun b' => ?_, fun b' => ?_, fun b' => ?_⟩
    · show (c.bufs.queuebufFree b).count b' = (if none = some b' then 1 else 0) + c.others.count b'
      have hcount := h.count b'
      rw [QueuebufPools.queuebufFree_count]
      simp only [reduceCtorEq, if_false, Nat.zero_add]
      by_cases hb : b' = b
      · subst hb
        rw [if_pos rfl] at hcount ⊢
        omega
      · have hne : ¬some b = some b' := fun heq => hb (Option.some.inj heq).symm
        rw [if_neg hne, Nat.zero_add] at hcount
        rw [if_neg hb]
        exact hcount
    · show (c.bufs.queuebufFree b).count b' ≤ 1
      rw [QueuebufPools.queuebufFree_count]
      by_cases hb : b' = b
      · rw [if_pos hb]
        omega
      · rw [if_neg hb]
        exact h.le b'
    · show (c.trace ++ [PoliteAct.free b]).countP _ =
        (c.trace ++ [PoliteAct.free b]).countP _ + (if none = some b' then 1 else 0)
      have hbalance := h.balance b'
      rw [List.countP_append, List.countP_append, List.countP_singleton, List.countP_singleton, hbalance]
      by_cases hb : b' = b
      · subst hb
        simp [PoliteAct.takes, PoliteAct.frees]
      · have hne : ¬b = b' := fun heq => hb heq.symm
        simp [PoliteAct.takes, PoliteAct.frees, hne]

lemma freeKept_of_some (h : c.q = some b) :
    c.freeKept.bufs = c.bufs.queuebufFree b ∧ c.freeKept.q = some b := by
  simp [PoliteConn.freeKept, PoliteConn.log, h]

lemma freeKept_trace (c : PoliteConn P n m) :
    waitingPacket c.freeKept.trace = waitingPacket c.trace ∧ (NeverStale c.trace → NeverStale c.freeKept.trace) := by
  unfold PoliteConn.freeKept
  cases c.q with
  | none => exact ⟨rfl, id⟩
  | some b => exact ⟨waitingPacket_append _ _, fun h => neverStale_append h nofun⟩

/-- The accounts of a connection that has cleared `q`, and has noted why. -/
lemma Inv.of_cleared (h : c.Owns none) (hq : c.q = none) (hwaiting : waitingPacket c.trace = none)
    (hstale : NeverStale c.trace) : c.Inv := by
  refine ⟨hq ▸ h, ?_, hstale⟩
  rw [hq, hwaiting]
  rfl

/-- The header length, the counters of copies and the timer do not matter. -/
lemma Inv.congr {c' : PoliteConn P n m} (h : c.Inv) (hq : c'.q = c.q) (hbufs : c'.bufs = c.bufs)
    (hothers : c'.others = c.others) (htrace : c'.trace = c.trace) : c'.Inv := by
  obtain ⟨⟨hcount, hle, hbalance⟩, hwaiting, hstale⟩ := h
  rw [← hq, ← hbufs, ← hothers] at hcount
  rw [← hbufs] at hle
  rw [← hq, ← htrace] at hbalance
  rw [← hq, ← hbufs, ← htrace] at hwaiting
  rw [← htrace] at hstale
  exact ⟨⟨hcount, hle, hbalance⟩, hwaiting, hstale⟩

/-- The buffer is given back, and it is noted that the packet does not wait any more. -/
lemma Inv.drop_log (h : c.Inv) (ha : ∀ p, PoliteAct.waiting p a = none) (htake : ∀ b, a.takes b = false)
    (hfree : ∀ b, a.frees b = false) (hsent : ∀ p, a = .transmit p → waitingPacket c.trace = some p) :
    (c.dropKept.log a).Inv := by
  have hkept := h.owns.freeKept
  obtain ⟨hwaiting, hstale⟩ := freeKept_trace c
  have hcleared : c.dropKept.Owns none := ⟨hkept.count, hkept.le, hkept.balance⟩
  refine Inv.of_cleared (hcleared.log htake hfree) rfl ?_ ?_
  · exact (waitingPacket_append _ _).trans (ha _)
  · refine neverStale_append (hstale h.neverStale) fun p hp => ?_
    exact hwaiting.trans (hsent p hp)

/-- A packet is kept in a fresh buffer, or not at all. -/
lemma keep_inv (h : c.Owns none) (hwaiting : waitingPacket c.trace = none) (hstale : NeverStale c.trace)
    (isReference : P → Bool) (p : P) : (c.keep isReference p).2.Inv := by
  unfold PoliteConn.keep
  cases hnew : c.bufs.queuebufNew isReference p with
  | none => exact Inv.of_cleared ⟨h.count, h.le, h.balance⟩ rfl hwaiting hstale
  | some r =>
    obtain ⟨b, bufs⟩ := r
    obtain ⟨hzero, hone, hpacket, hother⟩ := QueuebufPools.queuebufNew_spec hnew
    refine ⟨⟨fun b' => ?_, fun b' => ?_, fun b' => ?_⟩, ?_, ?_⟩
    · show bufs.count b' = (if some b = some b' then 1 else 0) + c.others.count b'
      have hcount := h.count b'
      simp only [reduceCtorEq, if_false, Nat.zero_add] at hcount
      by_cases hb : b' = b
      · subst hb
        rw [if_pos rfl]
        omega
      · rw [if_neg (fun heq => hb (Option.some.inj heq).symm), (hother b' hb).1, Nat.zero_add]
        exact hcount
    · show bufs.count b' ≤ 1
      by_cases hb : b' = b
      · subst hb
        omega
      · rw [(hother b' hb).1]
        exact h.le b'
    · show (c.trace ++ [PoliteAct.take b] ++ [PoliteAct.accept p]).countP _ =
        (c.trace ++ [PoliteAct.take b] ++ [PoliteAct.accept p]).countP _ + (if some b = some b' then 1 else 0)
      have hbalance := h.balance b'
      simp only [reduceCtorEq, if_false, Nat.add_zero] at hbalance
      by_cases hb : b' = b
      · subst hb
        simp [PoliteAct.takes, PoliteAct.frees, hbalance]
      · have hne : ¬b = b' := fun heq => hb heq.symm
        simp [PoliteAct.takes, PoliteAct.frees, hne, hbalance]
    · show waitingPacket (c.trace ++ [PoliteAct.take b] ++ [PoliteAct.accept p]) = some (bufs.packet b)
      rw [waitingPacket_append, hpacket]
      rfl
    · exact neverStale_append (neverStale_append hstale nofun) nofun

/-! ## Steps -/

lemma Inv.stop (h : c.Inv) : c.stop.Inv := by
  have hlog : (c.log .cancel).Owns c.q := h.owns.log (fun _ => rfl) fun _ => rfl
  let c' : PoliteConn P n m := { (c.log .cancel) with t := false }
  have hkept : c'.Owns c'.q := ⟨hlog.count, hlog.le, hlog.balance⟩
  have hfree := hkept.freeKept
  obtain ⟨hwaiting, hstale⟩ := freeKept_trace c'
  refine Inv.of_cleared ⟨hfree.count, hfree.le, hfree.balance⟩ rfl ?_ (hstale (neverStale_append h.neverStale nofun))
  exact hwaiting.trans (waitingPacket_append _ _)

lemma Inv.timerSend (h : c.Inv) : c.timerSend.Inv := by
  unfold PoliteConn.timerSend
  cases hq : c.q with
  | none => exact h
  | some b =>
    refine h.drop_log (fun _ => rfl) (fun _ => rfl) (fun _ => rfl) ?_
    rintro p ⟨⟩
    rw [h.waiting, hq]
    rfl

lemma Inv.fire (h : c.Inv) : c.fire.Inv := by
  unfold PoliteConn.fire
  by_cases ht : c.t = true
  · rw [if_pos ht]
    exact Inv.timerSend (h.congr rfl rfl rfl rfl)
  · rw [if_neg ht]
    exact h

lemma Inv.politeRecv (h : c.Inv) (heard : List UInt8) (bytes : P → List UInt8) :
    (c.politeRecv heard bytes).Inv := by
  unfold PoliteConn.politeRecv
  cases hq : c.q with
  | none => exact h
  | some b =>
    by_cases hcopy : c.HeardCopy heard (bytes (c.bufs.packet b))
    · simp only [if_pos hcopy]
      exact (h.drop_log (a := .drop) (fun _ => rfl) (fun _ => rfl) (fun _ => rfl) nofun).congr rfl rfl rfl rfl
    · simp only [if_neg hcopy]
      exact h

lemma Inv.ipoliteRecv (h : c.Inv) (heard : List UInt8) (bytes : P → List UInt8) :
    (c.ipoliteRecv heard bytes).Inv := by
  have hdups : ({ c with dups := c.dups + 1 } : PoliteConn P n m).Inv := h.congr rfl rfl rfl rfl
  unfold PoliteConn.ipoliteRecv
  cases hq : c.q with
  | none => exact h
  | some b =>
    by_cases hcopy : c.HeardCopy heard (bytes (c.bufs.packet b))
    · simp only [if_pos hcopy]
      by_cases hmax : c.dups + 1 = c.maxdups
      · rw [if_pos hmax, ← hq]
        exact (hdups.drop_log (a := .drop) (fun _ => rfl) (fun _ => rfl) (fun _ => rfl) nofun).congr rfl rfl rfl rfl
      · rw [if_neg hmax]
        exact hq ▸ hdups
    · simp only [if_neg hcopy]
      exact h

/-- A packet that is given to the connection takes the place of the one that waited. -/
lemma Inv.replaced (h : c.Inv) : (c.log .send).freeKept.Owns none ∧
    waitingPacket (c.log .send).freeKept.trace = none ∧ NeverStale (c.log .send).freeKept.trace := by
  have hlog : (c.log .send).Owns c.q := h.owns.log (fun _ => rfl) fun _ => rfl
  obtain ⟨hwaiting, hstale⟩ := freeKept_trace (c.log .send)
  refine ⟨hlog.freeKept, hwaiting.trans (waitingPacket_append _ _), hstale (neverStale_append h.neverStale nofun)⟩

lemma Inv.politeSend (h : c.Inv) (isReference : P → Bool) (hdrsize : UInt8) (p : P) :
    (c.politeSend isReference hdrsize p).2.Inv := by
  obtain ⟨hkept, hwaiting, hstale⟩ := h.replaced
  exact keep_inv (c := { (c.log .send).freeKept with hdrsize := hdrsize })
    ⟨hkept.count, hkept.le, hkept.balance⟩ hwaiting hstale isReference p

/-- Unless a packet is sent at once while another one is kept. -/
lemma Inv.ipoliteSend (h : c.Inv) (isReference : P → Bool) {interval : ℕ} (hdrsize : UInt8) (p : P) (sent : Bool)
    (hq : interval = 0 → c.q = none) : (c.ipoliteSend isReference interval hdrsize p sent).2.Inv := by
  obtain ⟨hkept, hwaiting, hstale⟩ := h.replaced
  unfold PoliteConn.ipoliteSend
  by_cases hinterval : interval = 0
  · rw [if_pos hinterval]
    have hnone := hq hinterval
    refine Inv.of_cleared ⟨hkept.count, hkept.le, hkept.balance⟩ ?_ hwaiting hstale
    show (c.log .send).freeKept.q = none
    have hlog : (c.log .send).q = none := hnone
    rw [PoliteConn.freeKept, hlog]
    exact hnone
  · rw [if_neg hinterval]
    exact keep_inv (c := { (c.log .send).freeKept with dups := 0, hdrsize := hdrsize })
      ⟨hkept.count, hkept.le, hkept.balance⟩ hwaiting hstale isReference p

lemma Inv.otherTake (h : c.Inv) (isReference : P → Bool) (p : P) : (c.otherTake isReference p).Inv := by
  unfold PoliteConn.otherTake
  cases hnew : c.bufs.queuebufNew isReference p with
  | none => exact h
  | some r =>
    obtain ⟨b, bufs⟩ := r
    obtain ⟨hzero, hone, -, hother⟩ := QueuebufPools.queuebufNew_spec hnew
    have hq : c.q ≠ some b := by
      intro hq
      have hheld := (hq ▸ h.owns : c.Owns (some b)).held.1
      omega
    refine ⟨⟨fun b' => ?_, fun b' => ?_, h.owns.balance⟩, ?_, h.neverStale⟩
    · show bufs.count b' = (if c.q = some b' then 1 else 0) + (b :: c.others).count b'
      have hcount := h.owns.count b'
      rw [List.count_cons]
      by_cases hb : b' = b
      · subst hb
        rw [if_neg hq] at hcount ⊢
        simp only [beq_self_eq_true, if_true]
        omega
      · have hne : (b == b') = false := beq_false_of_ne fun heq => hb heq.symm
        rw [(hother b' hb).1, hne]
        exact hcount
    · show bufs.count b' ≤ 1
      by_cases hb : b' = b
      · subst hb
        omega
      · rw [(hother b' hb).1]
        exact h.owns.le b'
    · show waitingPacket c.trace = c.q.map bufs.packet
      rw [h.waiting]
      cases hsome : c.q with
      | none => rfl
      | some b' =>
        have hne : b' ≠ b := fun heq => hq (heq ▸ hsome)
        exact congrArg some (hother b' hne).2.symm

lemma Inv.otherFree (h : c.Inv) (b : QueuebufPtr n m) : (c.otherFree b).Inv := by
  unfold PoliteConn.otherFree
  by_cases hb : b ∈ c.others
  · rw [if_pos hb]
    refine ⟨⟨fun b' => ?_, fun b' => ?_, h.owns.balance⟩, ?_, h.neverStale⟩
    · show (c.bufs.queuebufFree b).count b' = (if c.q = some b' then 1 else 0) + (c.others.erase b).count b'
      have hcount := h.owns.count b'
      rw [QueuebufPools.queuebufFree_count]
      by_cases hbb : b' = b
      · subst hbb
        have hpos := List.count_pos_iff.mpr hb
        rw [if_pos rfl, List.count_erase_self]
        omega
      · rw [if_neg hbb, List.count_erase_of_ne hbb]
        exact hcount
    · show (c.bufs.queuebufFree b).count b' ≤ 1
      rw [QueuebufPools.queuebufFree_count]
      have hle := h.owns.le
      by_cases hbb : b' = b
      · rw [if_pos hbb]
        exact (Nat.sub_le _ _).trans (hle b)
      · rw [if_neg hbb]
        exact hle b'
    · show waitingPacket c.trace = c.q.map (c.bufs.queuebufFree b).packet
      rw [QueuebufPools.queuebufFree_packet]
      exact h.waiting
  · rw [if_neg hb]
    exact h

lemma inv_opened (blank : P) (maxdups : UInt8) : (opened blank maxdups : PoliteConn P n m).Inv := by
  refine ⟨⟨fun b => ?_, fun b => ?_, fun b => rfl⟩, rfl, Throughout.nil⟩
  · exact QueuebufPools.count_init blank b
  · show (QueuebufPools.queuebufInit blank).count b ≤ 1
    rw [QueuebufPools.count_init]
    exact Nat.zero_le 1

lemma Inv.politeStep (h : c.Inv) (isReference : P → Bool) (e : PoliteEvent P n m) :
    (politeStep isReference c e).Inv := by
  cases e with
  | send interval hdrsize p sent => exact h.politeSend isReference hdrsize p
  | cancel => exact h.stop
  | close => exact h.stop
  | fire => exact h.fire
  | recv heard bytes => exact h.politeRecv heard bytes
  | otherTake p => exact h.otherTake isReference p
  | otherFree b => exact h.otherFree b

/-- A packet is not sent at once while another one is kept. -/
def SendsFree (c : PoliteConn P n m) (e : PoliteEvent P n m) : Prop :=
  ∀ hdrsize p sent, e = .send 0 hdrsize p sent → c.q = none

lemma Inv.ipoliteStep (h : c.Inv) (isReference : P → Bool) {e : PoliteEvent P n m} (he : c.SendsFree e) :
    (ipoliteStep isReference c e).Inv := by
  cases e with
  | send interval hdrsize p sent =>
    refine h.ipoliteSend isReference hdrsize p sent fun hinterval => ?_
    exact he hdrsize p sent (by rw [hinterval])
  | cancel => exact h.stop
  | close => exact h.stop
  | fire => exact h.fire
  | recv heard bytes => exact h.ipoliteRecv heard bytes
  | otherTake p => exact h.otherTake isReference p
  | otherFree b => exact h.otherFree b

/-- A packet that is sent at once leaves `q` at the buffer that it frees. -/
lemma sendsFree_of_sound (h : c.Inv) (isReference : P → Bool) {e : PoliteEvent P n m}
    (hsound : (ipoliteStep isReference c e).Sound) : c.SendsFree e := by
  rintro hdrsize p sent rfl
  cases hq : c.q with
  | none => rfl
  | some b =>
    have hone := (hq ▸ h.owns : c.Owns (some b)).held.1
    obtain ⟨hbufs, hkept⟩ := freeKept_of_some (c := c.log .send) hq
    have hheld : (c.log .send).freeKept.bufs.count b = 1 := (hsound.held b hkept).1
    have hbufs' : (c.log .send).freeKept.bufs = c.bufs.queuebufFree b := hbufs
    rw [hbufs', QueuebufPools.queuebufFree_count, if_pos rfl, hone] at hheld
    exact absurd hheld (by decide)

end PoliteConn

/-- **Polite broadcasts and their buffers.**  A `polite` connection owns its buffer in every run.  An `ipolite`
connection does just as long as it is not asked to send a packet at once while it keeps another one: it
frees that one then, and goes on holding it. -/
theorem polite_buffers (isReference : P → Bool) (blank : P) (maxdups : UInt8) (es : List (PoliteEvent P n m)) :
    (∀ pre, pre <+: es → (pre.foldl (PoliteConn.politeStep isReference) (PoliteConn.opened blank maxdups)).Sound) ∧
    ((∀ pre, pre <+: es → (pre.foldl (PoliteConn.ipoliteStep isReference) (PoliteConn.opened blank maxdups)).Sound) ↔
      ∀ pre e, pre ++ [e] <+: es →
        (pre.foldl (PoliteConn.ipoliteStep isReference) (PoliteConn.opened blank maxdups)).SendsFree e) := by
  constructor
  · intro pre _
    have hinv := forall_prefix (I := PoliteConn.Inv) (PoliteConn.inv_opened blank maxdups)
      (fun c e h => h.politeStep isReference e) pre
    exact hinv.sound
  · exact forall_prefix_iff_of_inv (PoliteConn.inv_opened blank maxdups) (fun _ => PoliteConn.Inv.sound)
      (fun _ _ h he => h.ipoliteStep isReference he) fun _ _ h => PoliteConn.sendsFree_of_sound h isReference

/-- A packet is kept, then another one is sent at once: the freed buffer is still held. -/
theorem ipolite_dangling : ¬∀ pre, pre <+: [.send 4 0 1 true, .send 0 0 2 true] →
    (pre.foldl (PoliteConn.ipoliteStep fun _ => false)
      (PoliteConn.opened 0 2 : PoliteConn ℕ 2 1)).Sound := by
  intro h
  obtain ⟨hone, -⟩ := (h _ List.prefix_rfl).held (.buf 0) (by decide)
  exact absurd hone (by decide)

end Rime
end Contiki
