import Mathlib.Tactic.Common

/-!
# Polite broadcasts

`ipolite` sends a packet at once, or keeps it for a while and drops it when enough copies of it have
been heard in between.  Two packets are copies of each other when they have the same length and start
with the same bytes.

When a packet is sent at once, the one that was kept is freed, but its address stays in `q`.
-/

namespace Contiki
namespace Rime
variable {P : Type}

/-- `struct ipolite_conn`, with the packet at `q`, whether that one was freed, and whether the timer
is set. -/
structure IpoliteConn (P : Type) where
  q : Option P
  freed : Bool
  dups : UInt8
  maxdups : UInt8
  hdrsize : UInt8
  t : Bool

/-- A queue buffer is used that was freed. -/
inductive IpoliteFault
  | useAfterFree
deriving DecidableEq

namespace IpoliteConn
variable (c : IpoliteConn P) (data : P → List UInt8)

/-- The connection after `ipolite_open`. -/
def opened (maxdups : UInt8) : IpoliteConn P := ⟨none, false, 0, maxdups, 0, false⟩

/-- The two packets have the same length and the same first `hdrsize` bytes. -/
def Copies (p q : P) : Prop :=
  (data p).length = (data q).length ∧ (data p).take c.hdrsize.toNat = (data q).take c.hdrsize.toNat

instance (p q : P) : Decidable (c.Copies data p q) := inferInstanceAs (Decidable (_ ∧ _))

/-- `recv`, as far as the packet that is kept is concerned. -/
def recv (p : P) : Except IpoliteFault (IpoliteConn P) :=
  match c.q with
  | none => .ok c
  | some q =>
    if c.freed then .error .useAfterFree
    else if c.Copies data p q then
      let c := { c with dups := c.dups + 1 }
      if c.dups = c.maxdups then .ok { c with q := none, t := false } else .ok c
    else .ok c

/-- `send`, which the timer calls, with the packet that is broadcast. -/
def send : Except IpoliteFault (IpoliteConn P × Option P) :=
  match c.q with
  | none => .ok (c, none)
  | some q => if c.freed then .error .useAfterFree else .ok ({ c with q := none }, some q)

/-- `ipolite_send`, with the packet that is broadcast at once; `room` says whether there is a queue
buffer to keep it. -/
def ipoliteSend (interval : ℕ) (hdrsize : UInt8) (p : P) (room : Bool) : IpoliteConn P × Option P :=
  let c := { c with freed := c.q.isSome, dups := 0, hdrsize := hdrsize }
  if interval = 0 then (c, some p)
  else if room then ({ c with q := some p, freed := false, t := true }, none)
  else ({ c with q := none, freed := false }, none)

/-! ## What is kept -/

variable {c data}

/-- A packet that is heard can only take away what is kept. -/
lemma recv_eq {p : P} {c' : IpoliteConn P} (h : c.recv data p = .ok c') :
    (c'.q = c.q ∨ c'.q = none) ∧ c'.freed = c.freed := by
  unfold recv at h
  cases hq : c.q with
  | none =>
      rw [hq] at h
      cases h
      exact ⟨.inl hq, rfl⟩
  | some q =>
      simp only [hq] at h
      by_cases hfreed : c.freed = true
      · rw [if_pos hfreed] at h
        cases h
      rw [if_neg hfreed] at h
      by_cases hcopies : c.Copies data p q
      · rw [if_pos hcopies] at h
        by_cases hdups : c.dups + 1 = c.maxdups
        · rw [if_pos hdups] at h
          cases h
          exact ⟨.inr rfl, rfl⟩
        · rw [if_neg hdups] at h
          cases h
          exact ⟨.inl rfl, rfl⟩
      · rw [if_neg hcopies] at h
        cases h
        exact ⟨.inl hq, rfl⟩

/-- What the timer sends is what was kept. -/
lemma send_eq {c' : IpoliteConn P} {sent : Option P} (h : c.send = .ok (c', sent)) :
    sent = c.q ∧ c'.q = none ∧ c'.freed = c.freed := by
  unfold send at h
  cases hq : c.q with
  | none =>
      rw [hq] at h
      cases h
      exact ⟨rfl, hq, rfl⟩
  | some q =>
      simp only [hq] at h
      by_cases hfreed : c.freed = true
      · rw [if_pos hfreed] at h
        cases h
      · rw [if_neg hfreed] at h
        cases h
        exact ⟨rfl, rfl, rfl⟩

/-- A packet is sent at once, kept, or lost. -/
lemma ipoliteSend_eq {interval : ℕ} {hdrsize : UInt8} {p : P} {room : Bool} {c' : IpoliteConn P}
    {sent : Option P} (h : c.ipoliteSend interval hdrsize p room = (c', sent)) :
    (interval = 0 ∧ sent = some p ∧ c'.q = c.q ∧ c'.freed = c.q.isSome) ∨
      (interval ≠ 0 ∧ sent = none ∧ (c'.q = some p ∨ c'.q = none) ∧ c'.freed = false) := by
  unfold ipoliteSend at h
  by_cases hinterval : interval = 0
  · rw [if_pos hinterval] at h
    cases h
    exact .inl ⟨hinterval, rfl, rfl, rfl⟩
  · rw [if_neg hinterval] at h
    cases room with
    | true =>
        cases h
        exact .inr ⟨hinterval, rfl, .inl rfl, rfl⟩
    | false =>
        cases h
        exact .inr ⟨hinterval, rfl, .inr rfl, rfl⟩

end IpoliteConn
end Rime
end Contiki
