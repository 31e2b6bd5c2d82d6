import Contiki.Lib.Loop
import Contiki.Net.Uip6

/-!
# The options of an extension header

`ext_hdr_options_process` goes over the options of a hop-by-hop or destination options header with an
offset that is a byte.  The offset follows the options as long as none of them reaches beyond the
octet 255 of the header; an option that ends at the octet 256 + `k` leads back to the offset `k`.

* `extHdrOptionsProcess_eq_none` — the bound on the turns of the loop leaves out no result.
* `ext_options_follow_iff` — when the loop ends and its offset advances.
-/

namespace Contiki
namespace UipBuf
variable (p : UipBuf) (base : ℕ)

/-- The octets of the option at an offset, where the loop goes on behind it. -/
def optionSize (offset : ℕ) : Option ℕ :=
  if offset < p.extHdrLen base then
    let type := p.bytes (base + offset)
    if type = 0 then some 1
    else if type &&& 0xC0 = 0 then some ((p.bytes (base + offset + 1)).toNat + 2)
    else none
  else none

/-- What the loop ends with, at an offset where it does not go on. -/
def optionsEnd (offset : UInt8) : OptionsResult :=
  if offset.toNat < p.extHdrLen base then
    match p.optionStep base offset with
    | .next _ => .proceed
    | .done res => res
  else .proceed

variable {p base}

/-- One turn of the loop, with the size of the option. -/
lemma optionStep_of_lt {offset : UInt8} (h : offset.toNat < p.extHdrLen base) :
    (∃ n, p.optionSize base offset.toNat = some n ∧
      p.optionStep base offset = .next (offset + UInt8.ofNat n)) ∨
    p.optionSize base offset.toNat = none ∧
      p.optionStep base offset = .done (p.optionsEnd base offset) := by
  have hadd : offset + p.bytes (base + offset.toNat + 1) + 2 =
      offset + UInt8.ofNat ((p.bytes (base + offset.toNat + 1)).toNat + 2) := by
    rw [UInt8.ofNat_add, UInt8.ofNat_toNat, add_assoc]
    rfl
  unfold optionsEnd optionSize optionStep
  rw [if_pos h, if_pos h]
  dsimp only
  by_cases hpad1 : p.bytes (base + offset.toNat) = 0
  · rw [if_pos hpad1, if_pos hpad1]
    exact .inl ⟨1, rfl, rfl⟩
  rw [if_neg hpad1, if_neg hpad1]
  by_cases hpadn : p.bytes (base + offset.toNat) = 1
  · rw [if_pos hpadn, if_pos (by rw [hpadn]; rfl), hadd]
    exact .inl ⟨_, rfl, rfl⟩
  rw [if_neg hpadn]
  by_cases hskip : p.bytes (base + offset.toNat) &&& 0xC0 = 0
  · rw [if_pos hskip, if_pos hskip, hadd]
    exact .inl ⟨_, rfl, rfl⟩
  rw [if_neg hskip, if_neg hskip]
  refine .inr ⟨rfl, ?_⟩
  split_ifs <;> rfl

/-- The loop goes along the sizes of the options. -/
lemma optionsFrom_eq (fuel : ℕ) (offset : UInt8) :
    p.optionsFrom base fuel offset =
      runLoop (byteStep (p.optionSize base)) (p.optionsEnd base) fuel offset := by
  induction fuel generalizing offset with
  | zero => rfl
  | succ fuel ih =>
    rw [optionsFrom, runLoop]
    by_cases hlt : offset.toNat < p.extHdrLen base
    · rw [if_pos hlt]
      rcases optionStep_of_lt hlt with ⟨n, hsize, hstep⟩ | ⟨hsize, hstep⟩
      · simp only [hstep, byteStep, hsize, Option.map_some, ih]
      · simp only [hstep, byteStep, hsize, Option.map_none]
    · rw [if_neg hlt]
      have hsize : p.optionSize base offset.toNat = none := if_neg hlt
      have hend : p.optionsEnd base offset = .proceed := if_neg hlt
      simp only [byteStep, hsize, Option.map_none, hend]

/-- The loop has no result within its turns if and only if it does not end. -/
theorem extHdrOptionsProcess_eq_none :
    p.extHdrOptionsProcess base = none ↔ ∀ fuel, p.optionsFrom base fuel 2 = none := by
  constructor
  · intro h fuel
    by_contra hfuel
    rw [optionsFrom_eq] at hfuel
    have hends := (exists_runLoop_iff _).mp ⟨fuel, hfuel⟩
    have hnone : p.optionsFrom base 257 2 = none := h
    rw [optionsFrom_eq] at hnone
    exact hends.runLoop_byte (show 256 ≤ 257 by omega) hnone
  · exact fun h => h 257

/-- **The options of a header.**  The loop over the options of an extension header ends and its offset
advances by the size of each option that is skipped, if and only if none of these reaches beyond the
octet 255 of the header when they are laid end to end. -/
theorem ext_options_follow_iff (p : UipBuf) (base : ℕ) :
    (∃ fuel, p.optionsFrom base fuel 2 ≠ none) ∧ Follows (p.optionSize base) 2 ↔
      Fits (p.optionSize base) 2 := by
  have hends : Follows (p.optionSize base) 2 → ∃ fuel, p.optionsFrom base fuel 2 ≠ none := by
    intro h
    obtain ⟨fuel, hfuel⟩ := (exists_runLoop_iff (p.optionsEnd base)).mpr h.ends
    exact ⟨fuel, by rwa [optionsFrom_eq]⟩
  exact ⟨fun h => follows_iff_fits.mp h.2, fun h => ⟨hends (follows_iff_fits.mpr h), follows_iff_fits.mpr h⟩⟩

/-- A packet with a hop-by-hop header of eight octets, whose PadN option announces 254 octets of
data. -/
def padPacket : UipBuf where
  bytes i := ([0x60, 0, 0, 0, 0, 8, 0, 64] ++ List.replicate 32 0 ++ [59, 0, 1, 254] :
    List UInt8).getD i 0
  len := 48

/-- The option leads back to itself, so that the loop does not end. -/
theorem not_ext_options_follow : ∃ p : UipBuf, ∀ fuel, p.optionsFrom 40 fuel 2 = none := by
  refine ⟨padPacket, fun fuel => ?_⟩
  induction fuel with
  | zero => rfl
  | succ fuel ih =>
    have hstep : padPacket.optionStep 40 2 = .next 2 := rfl
    rw [optionsFrom, if_pos (by decide), hstep]
    exact ih

end UipBuf
end Contiki
