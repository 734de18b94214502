import AtomicMemory.Contract.Encoding
import AtomicMemory.Lib.TimestampOrder

-- What `_to_iso_z` writes is a form of fixed width that names the instant down to the
-- millisecond, and such texts sort by time.

open Calendar

namespace AtomicMemory.Contract

structure Denotes (s : String) (instant : ℤ) : Prop where
  length : s.length = 24
  form : DateTime.Matches "0000-00-00T00:00:00.000Z".toList s.toList
  value : ∃ d, parseRfc3339 s.toList = some d ∧ d.offset = some 0 ∧
    d.instant = instant / 1000 * 1000

theorem denotes_zText {d : DateTime} (h : d.InRange) : Denotes d.zText d.instant := by
  have hform : DateTime.Matches "0000-00-00T00:00:00.000Z".toList d.zText.toList := by
    have htext : d.zText.toList =
        (DateTime.utc d.instant.toNat (DateTime.toNat_instant_lt h)).millisText ++ ['Z'] := by
      rw [DateTime.zText, dif_pos h, String.toList_ofList]
    rw [htext]
    exact DateTime.matches_millisText _
  refine ⟨?_, hform, d.floored, DateTime.parseRfc3339_zText h, ?_, ?_⟩
  · rw [← String.length_toList, ← hform.length_eq]
    rfl
  · rw [DateTime.floored, dif_pos h]
    rfl
  · have hpos := h.1
    rw [DateTime.floored, dif_pos h]
    simp only [DateTime.floorUtc, DateTime.utc, DateTime.instant, Option.getD_some]
    simp only [DateTime.instant] at hpos
    omega

theorem toIsoZ_congr {d d' : DateTime}
    (h : (if d.offset = none then d.replaceUtc else d) =
      if d'.offset = none then d'.replaceUtc else d') : toIsoZ d = toIsoZ d' := by
  unfold toIsoZ
  rw [h]

theorem toIsoZ_naive {d : DateTime} (h : d.offset = none) : toIsoZ d = toIsoZ d.replaceUtc := by
  refine toIsoZ_congr ?_
  rw [if_pos h]
  exact (if_neg (Option.some_ne_none 0)).symm

/-- Every datetime whose instant is in range is written, the text names the instant, and
texts are ordered as the instants are. -/
theorem toIsoZ_sortable {d d' : DateTime} (h : d.InRange) (h' : d'.InRange) :
    ∃ s s', toIsoZ d = .ok s ∧ toIsoZ d' = .ok s' ∧
      Denotes s d.instant ∧ Denotes s' d'.instant ∧
      (d.offset = none → toIsoZ d = toIsoZ d.replaceUtc) ∧
      (d.instant ≤ d'.instant → s ≤ s') ∧
      (s = s' → (d.instant - d'.instant).natAbs < 1000) :=
  ⟨d.zText, d'.zText, toIsoZ_eq h, toIsoZ_eq h', denotes_zText h, denotes_zText h', toIsoZ_naive,
    DateTime.zText_le h h', DateTime.instant_lt_of_zText h h'⟩

/-- One millisecond before and one microsecond after midnight, five hours east of UTC and
naive. -/
theorem toIsoZ_sortable_midnight :
    let east : DateTime := ⟨63000000000000000 - 1000 + 18000000000, some 18000000000,
      by decide, by decide⟩
    let naive : DateTime := ⟨63000000000000000 + 1, none, by decide, by decide⟩
    ∃ s s', toIsoZ east = .ok s ∧ toIsoZ naive = .ok s' ∧ Denotes s east.instant ∧
      Denotes s' naive.instant ∧ s ≤ s' := by
  intro east naive
  have heast : east.InRange := by decide
  have hnaive : naive.InRange := by decide
  obtain ⟨s, s', hs, hs', hdenotes, hdenotes', -, hle, -⟩ := toIsoZ_sortable heast hnaive
  exact ⟨s, s', hs, hs', hdenotes, hdenotes', hle (by decide)⟩

end AtomicMemory.Contract
