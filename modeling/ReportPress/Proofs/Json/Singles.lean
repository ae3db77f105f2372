import Mathlib
import ReportPress.Json.Record
import ReportPress.Proofs.Json.Reread
import ReportPress.Proofs.Json.Values
import ReportPress.Proofs.Number.Value

/-!
# Single-precision numbers are read back

A finite number is written with the fewest digits that read as it, and is read back as itself. What
is not finite is written as `null`, which is no number.
-/

namespace ReportPress.Json

open Number BinaryFormat

theorem ofSingle_of_not_isFinite {x : Float32} (h : ¬Single.IsFinite x) : ofSingle x = .null := by
  have hnone : Single.toDecimal? .even x = none := if_neg h
  rw [ofSingle, hnone]

theorem negative_shortest {code : ℕ} (hfinite : code < single.infinityCode) (negative : Bool) :
    (single.shortest .even negative code).negative = negative := by
  rcases eq_or_ne code 0 with rfl | hcode
  · rfl
  · obtain ⟨_, _, hshortest, -⟩ := exists_shortest hcode hfinite .even negative
    rw [hshortest, Decimal.negative_normalize]

theorem exists_ofSingle_eq {x : Float32} (h : Single.IsFinite x) :
    ∃ d, ofSingle x = .decimal d ∧ Single.ofDecimalByDouble? (spelled d) = some x := by
  have hsome : Single.toDecimal? .even x
      = some (single.shortest .even (Single.isNegative x) (Single.code x)) := if_pos h
  refine ⟨_, by rw [ofSingle, hsome], ?_⟩
  have hread := codeByDouble?_spelled_shortest h (Single.isNegative x)
  rw [ofDecimalByDouble?_eq, hread, negative_spelled, negative_shortest h, Option.map_some,
    Single.ofCode_code]

/-- **A number is read back if it is finite.** -/
theorem single?_reread_ofSingle (x : Float32) :
    single? (ofSingle x).reread = if Single.IsFinite x then some x else none := by
  split
  · rename_i h
    obtain ⟨d, hd, hx⟩ := exists_ofSingle_eq h
    rw [hd]
    exact hx
  · rename_i h
    rw [ofSingle_of_not_isFinite h]
    rfl

theorem isReadable_reread_ofSingle (depth : ℕ) (x : Float32) :
    isReadable depth (ofSingle x).reread = true := by
  by_cases h : Single.IsFinite x
  · obtain ⟨d, hd, hx⟩ := exists_ofSingle_eq h
    rw [hd, reread, isReadable, hx]
    rfl
  · rw [ofSingle_of_not_isFinite h]
    simp [reread, isReadable]

theorem nullable?_reread_ofSingle? (x? : Option Float32) :
    nullable? single? (some (ofSingle? x?).reread) = some (x?.filter fun x ↦ Single.IsFinite x) := by
  cases x? with
  | none => rfl
  | some x =>
    have hread := single?_reread_ofSingle x
    by_cases h : Single.IsFinite x
    · obtain ⟨d, hd, -⟩ := exists_ofSingle_eq h
      rw [if_pos h] at hread
      rw [ofSingle?, hd, reread, nullable?, ← reread, ← hd, hread]
      · simp [Option.filter, h]
      · simp
    · rw [ofSingle?, ofSingle_of_not_isFinite h]
      simp [reread, nullable?, Option.filter, h]

theorem isReadable_reread_ofSingle? (depth : ℕ) (x? : Option Float32) :
    isReadable depth (ofSingle? x?).reread = true := by
  cases x? with
  | none => simp [ofSingle?, reread, isReadable]
  | some x => exact isReadable_reread_ofSingle depth x

end ReportPress.Json
