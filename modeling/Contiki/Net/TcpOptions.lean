import Contiki.Lib.Loop
import Contiki.Net.Tcp

/-!
# The options of a segment

A SYN for a port that is listened on and a SYNACK in `SYN_SENT` are searched for the maximum segment
size, with an index that is a byte.  The option area is the part of the header that the data offset
announces behind the first twenty octets.

* `announceMss_eq_none` — a segment has no result exactly when the loop over its options does not end.
* `tcp_options_follow_iff` — when the loop ends and takes the maximum segment size from the options.
-/

namespace Contiki

/-- The octets of the option area. -/
def TcpHdr.optionArea (hdr : TcpHdr) : ℕ := ((hdr.tcpoffset >>> 4).toNat - 5) * 4

namespace UipConn
variable (optdata : ℕ → UInt8) (limit : ℕ)

/-- The option at an index is taken for the maximum segment size. -/
def IsMss (c : ℕ) : Prop := c < limit ∧ optdata c = 2 ∧ optdata (c + 1) = 4

/-- The octets of the option at an index, where the loop goes on behind it. -/
def tcpOptionSize (c : ℕ) : Option ℕ :=
  if c < limit then
    if optdata c = 0 then none
    else if optdata c = 1 then some 1
    else if optdata c = 2 ∧ optdata (c + 1) = 4 then none
    else if optdata (c + 1) = 0 then none
    else some (optdata (c + 1)).toNat
  else none

/-- What the loop ends with, at an index where it does not go on. -/
def mssAt (c : UInt8) : Option UInt16 :=
  if c.toNat < limit ∧ optdata c.toNat ≠ 0 ∧ optdata c.toNat = 2 ∧ optdata (c.toNat + 1) = 4 then
    some ((optdata (c.toNat + 2)).toUInt16 <<< 8 ||| (optdata (c.toNat + 3)).toUInt16)
  else none

/-- Where the loop takes the maximum segment size from, there are octets of the option area alone. -/
def MssInside : Prop :=
  ∀ c, Leads (byteStep (tcpOptionSize optdata limit)) 0 c → IsMss optdata limit c.toNat →
    c.toNat + 4 ≤ limit

variable {optdata limit}

/-- The loop goes along the sizes of the options. -/
lemma parseMss_eq (fuel : ℕ) (c : UInt8) :
    parseMss optdata limit fuel c =
      runLoop (byteStep (tcpOptionSize optdata limit)) (mssAt optdata limit) fuel c := by
  induction fuel generalizing c with
  | zero => rfl
  | succ fuel ih =>
    rw [parseMss, runLoop]
    unfold byteStep tcpOptionSize mssAt
    dsimp only
    by_cases hlt : c.toNat < limit
    · rw [if_pos hlt, if_pos hlt]
      by_cases hend : optdata c.toNat = 0
      · simp [hend]
      rw [if_neg hend, if_neg hend]
      by_cases hnoop : optdata c.toNat = 1
      · rw [if_pos hnoop, if_pos hnoop]
        exact ih _
      rw [if_neg hnoop, if_neg hnoop]
      by_cases hmss : optdata c.toNat = 2 ∧ optdata (c.toNat + 1) = 4
      · rw [if_pos hmss, if_pos hmss, Option.map_none, if_pos ⟨hlt, hend, hmss⟩]
      rw [if_neg hmss, if_neg hmss]
      by_cases hlen : optdata (c.toNat + 1) = 0
      · rw [if_pos hlen, if_pos hlen, Option.map_none, if_neg fun h => hmss h.2.2]
      rw [if_neg hlen, if_neg hlen, Option.map_some, UInt8.ofNat_toNat]
      exact ih _
    · rw [if_neg hlt, if_neg hlt, Option.map_none, if_neg fun h => hlt h.1]

/-- The loop has no result within its turns if and only if it does not end. -/
theorem announceMss_eq_none {cfg : TcpConfig} {conn : UipConn} {hdr : TcpHdr} :
    conn.announceMss cfg hdr optdata = none ↔ ∀ fuel, parseMss optdata hdr.optionArea fuel 0 = none := by
  unfold announceMss
  rw [Option.map_eq_none_iff]
  refine ⟨fun h fuel => ?_, fun h => h 257⟩
  by_contra hfuel
  rw [parseMss_eq] at hfuel h
  have hends := (exists_runLoop_iff _).mp ⟨fuel, hfuel⟩
  exact hends.runLoop_byte (show 256 ≤ 257 by omega) h

/-- **The options of a segment.**  The loop over the options ends, its index advances by the size of each
option that is skipped, and the maximum segment size is taken from octets of the option area, if and
only if, with the options laid end to end, none of those that are skipped is empty or reaches beyond
the octet 255, and the option for the maximum segment size lies in the area with all of its four
octets. -/
theorem tcp_options_follow_iff (hdr : TcpHdr) (optdata : ℕ → UInt8) :
    (∃ fuel, parseMss optdata hdr.optionArea fuel 0 ≠ none) ∧
        Follows (tcpOptionSize optdata hdr.optionArea) 0 ∧ MssInside optdata hdr.optionArea ↔
      Fits (tcpOptionSize optdata hdr.optionArea) 0 ∧
        ∀ c, Leads (wideStep (tcpOptionSize optdata hdr.optionArea)) 0 c →
          IsMss optdata hdr.optionArea c → c + 4 ≤ hdr.optionArea := by
  generalize hdr.optionArea = limit
  have hends : Follows (tcpOptionSize optdata limit) 0 →
      ∃ fuel, parseMss optdata limit fuel 0 ≠ none := by
    intro h
    obtain ⟨fuel, hfuel⟩ := (exists_runLoop_iff (mssAt optdata limit)).mpr h.ends
    exact ⟨fuel, by rwa [parseMss_eq]⟩
  constructor
  · rintro ⟨-, hfollows, hinside⟩
    refine ⟨follows_iff_fits.mp hfollows, fun c hc hmss => ?_⟩
    obtain ⟨c, rfl, hbyte⟩ := hfollows.wide hc
    exact hinside c hbyte hmss
  · rintro ⟨hfits, hmss⟩
    have hfollows : Follows (tcpOptionSize optdata limit) 0 := follows_iff_fits.mpr hfits
    exact ⟨hends hfollows, hfollows, fun c hc => hmss c.toNat (hfits.byte hc)⟩

/-- A SYN whose header has 24 octets: an option of no effect, and one that announces 255 octets. -/
def wrapOptions (i : ℕ) : UInt8 := ([1, 3, 255, 0] : List UInt8).getD i 0

/-- The header of that SYN. -/
def optionsHdr : TcpHdr where
  seqno := ⟨0, 0, 0, 0⟩
  ackno := ⟨0, 0, 0, 0⟩
  tcpoffset := 0x60
  flags := { syn := true }
  wnd := 0
  urgp := 0

/-- The second option leads back to itself by way of the first one, so that the loop does not end; and
an option that only begins in the area is taken for the maximum segment size. -/
theorem not_tcp_options_follow :
    (∃ optdata, ∀ fuel, parseMss optdata optionsHdr.optionArea fuel 0 = none) ∧
    ∃ optdata, ¬ MssInside optdata optionsHdr.optionArea := by
  constructor
  · refine ⟨wrapOptions, fun fuel => ?_⟩
    have hloop : parseMss wrapOptions optionsHdr.optionArea fuel 0 = none ∧
        parseMss wrapOptions optionsHdr.optionArea fuel 1 = none := by
      induction fuel with
      | zero => exact ⟨rfl, rfl⟩
      | succ fuel ih => exact ⟨ih.2, ih.1⟩
    exact hloop.1
  · refine ⟨fun i => ([1, 1, 2, 4] : List UInt8).getD i 0, fun h => ?_⟩
    have hleads : Leads (byteStep (tcpOptionSize (fun i => ([1, 1, 2, 4] : List UInt8).getD i 0)
        optionsHdr.optionArea)) 0 2 :=
      .head (b := 1) (by decide) (.head (b := 2) (by decide) (.refl 2))
    have hmss : IsMss (fun i => ([1, 1, 2, 4] : List UInt8).getD i 0) optionsHdr.optionArea 2 :=
      ⟨by decide, by decide, by decide⟩
    exact absurd (h 2 hleads hmss) (by decide)

end UipConn
end Contiki
