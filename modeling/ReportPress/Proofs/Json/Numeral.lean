import Mathlib
import ReportPress.Json.Printer
import ReportPress.Json.Reader
import ReportPress.Proofs.Number.Decimal
import ReportPress.Proofs.Number.Digits

/-!
# Numerals are read back

A number is written in one of four forms: a zero, a fraction, a whole number that keeps a fraction,
or digits with an exponent. Each is read as a decimal number of the same magnitude, digit for digit;
only the zeros that a whole number was filled up with come back as digits of its significand
(`spelled`).
-/

namespace ReportPress

open Number

namespace Json

/-! ## The parts of a numeral -/

section Parts

variable {digits rest : List Char}

/-- What may follow a numeral without being taken for a part of it. -/
def EndsNumeral (rest : List Char) : Prop :=
  ∀ c ∈ rest.head?, c.isDigit = false ∧ c ≠ '.' ∧ c ≠ 'e' ∧ c ≠ 'E'

theorem EndsNumeral.stopsAt (h : EndsNumeral rest) : StopsAt Char.isDigit rest :=
  fun c hc ↦ (h c hc).1

theorem endsNumeral_nil : EndsNumeral [] := by simp [EndsNumeral]

theorem readDigits?_append (hne : digits ≠ []) (hdigits : ∀ c ∈ digits, c.isDigit = true)
    (hrest : StopsAt Char.isDigit rest) : readDigits? (digits ++ rest) = some (digits, rest) := by
  rw [readDigits?, takeWhile_append_of_stopsAt hdigits hrest,
    dropWhile_append_of_stopsAt hdigits hrest]
  cases digits with
  | nil => exact absurd rfl hne
  | cons c digits => rfl

theorem readWhole?_append (hne : digits ≠ []) (hdigits : ∀ c ∈ digits, c.isDigit = true)
    (hzero : digits.head? ≠ some '0') (hrest : StopsAt Char.isDigit rest) :
    readWhole? (digits ++ rest) = some (digits, rest) := by
  rw [← readDigits?_append hne hdigits hrest, readWhole?]
  rintro rest' heq
  cases digits with
  | nil => exact hne rfl
  | cons c digits => simp_all

theorem readFraction?_point (hne : digits ≠ []) (hdigits : ∀ c ∈ digits, c.isDigit = true)
    (hrest : StopsAt Char.isDigit rest) :
    readFraction? ('.' :: (digits ++ rest)) = some (some digits, rest) := by
  rw [readFraction?, readDigits?_append hne hdigits hrest]
  rfl

theorem readFraction?_of_ne (h : rest.head? ≠ some '.') :
    readFraction? rest = some (none, rest) := by
  rw [readFraction?]
  rintro rest' rfl
  exact h rfl

theorem readExponent?_of_endsNumeral (h : EndsNumeral rest) :
    readExponent? rest = some (none, rest) := by
  cases rest with
  | nil => rfl
  | cons c rest =>
    obtain ⟨-, -, hsmall, hcapital⟩ := h c rfl
    rw [readExponent?, if_neg (by simp [hsmall, hcapital])]

def powerText (power : ℤ) : List Char :=
  (if power < 0 then ['-'] else ['+']) ++ Nat.toDigits 10 power.natAbs

theorem readExponent?_powerText (power : ℤ) (h : StopsAt Char.isDigit rest) :
    readExponent? ('e' :: (powerText power ++ rest)) = some (some power, rest) := by
  have hdigits := readDigits?_append Nat.toDigits_ne_nil (all_isDigit_toDigits power.natAbs) h
  have hsign : splitSign (powerText power ++ rest)
      = (decide (power < 0), Nat.toDigits 10 power.natAbs ++ rest) := by
    unfold powerText
    split <;> simp_all [splitSign]
  have hpower : (if power < 0 then -(power.natAbs : ℤ) else power.natAbs) = power := by
    split <;> omega
  rw [readExponent?, if_pos (Or.inl rfl)]
  simp only [hsign, hdigits, Option.map_some, digitsValue_toDigits, decide_eq_true_eq, hpower]

def minus (negative : Bool) : List Char := if negative then ['-'] else []

theorem readNumeral_decimal {negative : Bool} {cs whole after after' : List Char}
    {fraction : Option (List Char)} {exponent : Option ℤ}
    (hminus : cs.head? ≠ some '-') (hwhole : readWhole? cs = some (whole, after))
    (hfraction : readFraction? after = some (fraction, after'))
    (hexponent : readExponent? after' = some (exponent, rest))
    (hsome : fraction ≠ none ∨ exponent ≠ none) :
    readNumeral (minus negative ++ cs) = some (.decimal ⟨negative,
      digitsValue (whole ++ fraction.getD []), exponent.getD 0 - (fraction.getD []).length⟩,
      rest) := by
  cases negative with
  | true =>
    simp only [minus, if_true, List.cons_append, List.nil_append, readNumeral, hwhole, hfraction,
      hexponent, Option.bind_eq_bind, Option.bind_some]
    cases fraction <;> cases exponent <;> simp_all
  | false =>
    have hplain : ∀ rest, cs ≠ '-' :: rest := fun rest heq ↦ hminus (by rw [heq]; rfl)
    rw [minus, if_neg (by decide), List.nil_append, readNumeral.eq_2 cs hplain]
    simp only [hwhole, hfraction, hexponent, Option.bind_eq_bind, Option.bind_some]
    cases fraction <;> cases exponent <;> simp_all

end Parts

/-! ## The forms of a numeral -/

section Forms

variable {rest : List Char}

theorem readNumeral_point (negative : Bool) (whole fraction : List Char) (hwhole : whole ≠ [])
    (hwholeDigits : ∀ c ∈ whole, c.isDigit = true)
    (hzero : whole = ['0'] ∨ whole.head? ≠ some '0') (hfraction : fraction ≠ [])
    (hfractionDigits : ∀ c ∈ fraction, c.isDigit = true) (h : EndsNumeral rest) :
    readNumeral (minus negative ++ (whole ++ '.' :: (fraction ++ rest)))
      = some (.decimal ⟨negative, digitsValue (whole ++ fraction), -fraction.length⟩, rest) := by
  have hstop : StopsAt Char.isDigit ('.' :: (fraction ++ rest)) := by simp [StopsAt]
  have hread : readWhole? (whole ++ '.' :: (fraction ++ rest))
      = some (whole, '.' :: (fraction ++ rest)) := by
    rcases hzero with rfl | hzero
    · rfl
    · exact readWhole?_append hwhole hwholeDigits hzero hstop
  have hminus : (whole ++ '.' :: (fraction ++ rest)).head? ≠ some '-' := by
    rw [List.head?_append_of_ne_nil _ hwhole]
    intro hhead
    exact absurd (hwholeDigits _ (List.mem_of_mem_head? hhead)) (by decide)
  rw [readNumeral_decimal hminus hread (readFraction?_point hfraction hfractionDigits h.stopsAt)
    (readExponent?_of_endsNumeral h) (by simp)]
  simp

theorem readNumeral_exponentText (negative : Bool) {digits : List Char} (hne : digits ≠ [])
    (hdigits : ∀ c ∈ digits, c.isDigit = true) (hzero : digits.head? ≠ some '0') (power : ℤ)
    (h : EndsNumeral rest) :
    readNumeral (minus negative ++ (DecimalLayout.exponentText true digits power ++ rest))
      = some (.decimal ⟨negative, digitsValue digits, power - (digits.length - 1 : ℕ)⟩, rest) := by
  -- The point stands behind the first digit, and only if there are more.
  obtain ⟨first, more, rfl⟩ := List.exists_cons_of_ne_nil hne
  have htext : DecimalLayout.exponentText true (first :: more) power ++ rest
      = [first] ++ (if more = [] then 'e' :: (powerText power ++ rest)
        else '.' :: (more ++ 'e' :: (powerText power ++ rest))) := by
    rw [DecimalLayout.exponentText, powerText]
    cases more <;> simp
  have hfirst : first.isDigit = true := hdigits _ List.mem_cons_self
  have hmore : ∀ c ∈ more, c.isDigit = true := fun c hc ↦ hdigits c (List.mem_cons_of_mem _ hc)
  have hpower := readExponent?_powerText power h.stopsAt
  have hminus (after : List Char) : ([first] ++ after).head? ≠ some '-' := by
    rintro ⟨⟩
    exact absurd hfirst (by decide)
  have hwhole (after : List Char) (hafter : StopsAt Char.isDigit after) :
      readWhole? ([first] ++ after) = some ([first], after) :=
    readWhole?_append (by simp) (by simp [hfirst]) (by simpa using hzero) hafter
  rw [htext]
  by_cases hnil : more = []
  · rw [if_pos hnil, readNumeral_decimal (hminus _) (hwhole _ (by simp [StopsAt]))
      (readFraction?_of_ne (by simp)) hpower (by simp)]
    simp [hnil]
  · rw [if_neg hnil, readNumeral_decimal (hminus _) (hwhole _ (by simp [StopsAt]))
      (readFraction?_point hnil hmore (by simp [StopsAt])) hpower (by simp)]
    simp

end Forms

/-! ## Numerals -/

/-- The decimal number that the numeral of `d` is read as. -/
def spelled (d : Decimal) : Decimal :=
  let n := d.normalize
  if n.significand = 0 then ⟨d.negative, 0, -1⟩
  else if 0 ≤ n.exponent ∧ n.point ≤ 13 then
    ⟨d.negative, n.significand * 10 ^ (n.exponent.toNat + 1), -1⟩
  else n

section Positional

variable (negative : Bool) {digits rest : List Char}

/-- Digits behind the decimal point and `count` zeros. -/
theorem readNumeral_zeros_append (hne : digits ≠ []) (hdigits : ∀ c ∈ digits, c.isDigit = true)
    (count : ℕ) (h : EndsNumeral rest) :
    readNumeral (minus negative ++
        (['0'] ++ '.' :: (List.replicate count '0' ++ digits ++ rest)))
      = some (.decimal ⟨negative, digitsValue digits, -(count + digits.length : ℕ)⟩, rest) := by
  have hread := readNumeral_point negative ['0'] _ (by simp) (by simp) (Or.inl rfl)
    (by simp [hne]) (List.forall_mem_append.mpr ⟨all_isDigit_replicate count, hdigits⟩) h
  have hvalue : digitsValue (['0'] ++ (List.replicate count '0' ++ digits))
      = digitsValue digits := by
    rw [digitsValue_append, digitsValue_append, digitsValue_replicate,
      show digitsValue ['0'] = 0 by decide]
    omega
  rwa [hvalue, List.length_append, List.length_replicate] at hread

/-- Digits before `count` zeros and the decimal point, behind which one more zero is written. -/
theorem readNumeral_append_zeros (hne : digits ≠ []) (hdigits : ∀ c ∈ digits, c.isDigit = true)
    (hzero : digits.head? ≠ some '0') (count : ℕ) (h : EndsNumeral rest) :
    readNumeral (minus negative ++
        (digits ++ List.replicate count '0' ++ '.' :: (['0'] ++ rest)))
      = some (.decimal ⟨negative, digitsValue digits * 10 ^ (count + 1), -1⟩, rest) := by
  have hhead : (digits ++ List.replicate count '0').head? ≠ some '0' := by
    rwa [List.head?_append_of_ne_nil _ hne]
  have hread := readNumeral_point negative _ ['0'] (by simp [hne])
    (List.forall_mem_append.mpr ⟨hdigits, all_isDigit_replicate count⟩) (Or.inr hhead)
    (by simp) (by simp) h
  have hvalue : digitsValue (digits ++ List.replicate count '0' ++ ['0'])
      = digitsValue digits * 10 ^ (count + 1) := by
    rw [digitsValue_append, digitsValue_append, digitsValue_replicate,
      show digitsValue ['0'] = 0 by decide, List.length_replicate, List.length_singleton]
    ring
  rwa [hvalue] at hread

theorem readNumeral_take_drop (hdigits : ∀ c ∈ digits, c.isDigit = true)
    (hzero : digits.head? ≠ some '0') (count : ℕ) (hpos : 0 < count) (hlt : count < digits.length)
    (h : EndsNumeral rest) :
    readNumeral (minus negative ++ (digits.take count ++ '.' :: (digits.drop count ++ rest)))
      = some (.decimal ⟨negative, digitsValue digits, -(digits.length - count : ℕ)⟩, rest) := by
  have hne : digits ≠ [] := List.ne_nil_of_length_pos (by omega)
  have hread := readNumeral_point negative (digits.take count) (digits.drop count)
    (by rw [Ne, List.take_eq_nil_iff, or_iff_left hne]; omega)
    (fun c hc ↦ hdigits c (List.mem_of_mem_take hc))
    (Or.inr (by rwa [List.head?_take, if_neg hpos.ne']))
    (by rw [Ne, List.drop_eq_nil_iff]; omega)
    (fun c hc ↦ hdigits c (List.mem_of_mem_drop hc)) h
  rwa [List.take_append_drop, List.length_drop] at hread

theorem readNumeral_positionalText {significand : ℕ} (hs : significand ≠ 0) (exponent : ℤ)
    (h : EndsNumeral rest) :
    readNumeral (minus negative ++ (DecimalLayout.positionalText true (Nat.toDigits 10 significand)
        (exponent + decimalLength significand) ++ rest))
      = some (.decimal (if 0 ≤ exponent then
          ⟨negative, significand * 10 ^ (exponent.toNat + 1), -1⟩
        else ⟨negative, significand, exponent⟩), rest) := by
  rw [DecimalLayout.positionalText, decimalLength]
  have hvalue := digitsValue_toDigits significand
  have hne := Nat.toDigits_ne_nil (n := significand) (b := 10)
  have hdigits := all_isDigit_toDigits significand
  have hzero := head?_toDigits hs
  generalize Nat.toDigits 10 significand = digits at *
  have hlength := List.length_pos_of_ne_nil hne
  subst hvalue
  split
  · -- Zeros between the point and the digits.
    have hread := readNumeral_zeros_append negative hne hdigits
      (-(exponent + digits.length)).toNat h
    have hnegative : ¬0 ≤ exponent := by omega
    have hexponent :
        (-((-(exponent + digits.length)).toNat + digits.length : ℕ) : ℤ) = exponent := by omega
    rw [hexponent] at hread
    rw [if_neg hnegative]
    simpa using hread
  · split
    · -- Zeros between the digits and the point.
      have hpositive : 0 ≤ exponent := by omega
      have hcount : (exponent + digits.length).toNat - digits.length = exponent.toNat := by omega
      have hread := readNumeral_append_zeros negative hne hdigits hzero exponent.toNat h
      rw [if_pos hpositive, hcount]
      simpa using hread
    · -- The point among the digits.
      have hread := readNumeral_take_drop negative hdigits hzero
        (exponent + digits.length).toNat (by omega) (by omega) h
      have hnegative : ¬0 ≤ exponent := by omega
      have hexponent :
          (-(digits.length - (exponent + digits.length).toNat : ℕ) : ℤ) = exponent := by omega
      rw [hexponent] at hread
      rw [if_neg hnegative]
      simpa using hread

end Positional

/-- **A numeral is read back.** -/
theorem readNumeral_render (d : Decimal) {rest : List Char} (h : EndsNumeral rest) :
    readNumeral (numeralLayout.render d ++ rest) = some (.decimal (spelled d), rest) := by
  have hrender : numeralLayout.render d ++ rest = minus d.negative ++
      ((if d.normalize.significand = 0 then ['0', '.', '0']
        else if numeralLayout.positional d.normalize.point then
          DecimalLayout.positionalText true d.normalize.digits d.normalize.point
        else DecimalLayout.exponentText true d.normalize.digits (d.normalize.point - 1)) ++ rest) := by
    rw [DecimalLayout.render, minus, d.negative_normalize]
    split <;> rfl
  rw [hrender, spelled]
  have hpositional : numeralLayout.positional d.normalize.point
      = decide (-5 ≤ d.normalize.point ∧ d.normalize.point ≤ 13) := rfl
  have hlength : 0 < decimalLength d.normalize.significand := Nat.length_toDigits_pos
  have hpoint : d.normalize.point = d.normalize.exponent + decimalLength d.normalize.significand :=
    rfl
  have heta : (⟨d.negative, d.normalize.significand, d.normalize.exponent⟩ : Decimal) = d.normalize := by
    rw [← d.negative_normalize]
  by_cases hzero : d.normalize.significand = 0
  · have hread := readNumeral_point d.negative ['0'] ['0']
      (by simp) (by simp) (Or.inl rfl) (by simp) (by simp) h
    simpa [hzero, show digitsValue ['0', '0'] = 0 by decide] using hread
  · simp only [if_neg hzero, hpositional, decide_eq_true_eq]
    -- In the range of plain notation the point is among the digits or next to them; outside of it,
    -- it is behind the first digit.
    by_cases hplain : -5 ≤ d.normalize.point ∧ d.normalize.point ≤ 13
    · rw [if_pos hplain, hpoint, Decimal.digits, readNumeral_positionalText _ hzero _ h, heta]
      simp only [← hpoint, hplain.2, and_true]
    · have hlarge : ¬(0 ≤ d.normalize.exponent ∧ d.normalize.point ≤ 13) := by omega
      have hdigits := readNumeral_exponentText d.negative
        (Nat.toDigits_ne_nil (n := d.normalize.significand) (b := 10))
        (all_isDigit_toDigits d.normalize.significand) (head?_toDigits hzero)
        (d.normalize.point - 1) h
      have hexponent : d.normalize.point - 1
          - ((Nat.toDigits 10 d.normalize.significand).length - 1 : ℕ) = d.normalize.exponent := by
        rw [hpoint, decimalLength]
        rw [decimalLength] at hlength
        omega
      rw [digitsValue_toDigits, hexponent, heta] at hdigits
      rw [if_neg hplain, if_neg hlarge]
      exact hdigits

theorem readNumeral_integerText (n : ℤ) {rest : List Char} (h : EndsNumeral rest) :
    readNumeral (integerText n ++ rest) = some (.integer n, rest) := by
  have hdigits := all_isDigit_toDigits n.natAbs
  have hne := Nat.toDigits_ne_nil (n := n.natAbs) (b := 10)
  have hvalue := digitsValue_toDigits n.natAbs
  have hfraction : readFraction? rest = some (none, rest) :=
    readFraction?_of_ne fun hhead ↦ (h _ hhead).2.1 rfl
  have hwhole : readWhole? (Nat.toDigits 10 n.natAbs ++ rest)
      = some (Nat.toDigits 10 n.natAbs, rest) := by
    by_cases hzero : n = 0
    · subst hzero
      rfl
    · exact readWhole?_append hne hdigits (head?_toDigits (by omega)) h.stopsAt
  rw [integerText]
  by_cases hneg : n < 0
  · have hnonzero : n.natAbs ≠ 0 := by omega
    simp [hneg, readNumeral, hwhole, hfraction, readExponent?_of_endsNumeral h, hnonzero,
      abs_of_neg hneg]
  -- Digits do not begin with a minus sign, so the reader takes them as they are.
  · have hplain : ∀ rest', Nat.toDigits 10 n.natAbs ++ rest ≠ '-' :: rest' := by
      intro rest' heq
      have hhead : (Nat.toDigits 10 n.natAbs ++ rest).head? = (Nat.toDigits 10 n.natAbs).head? :=
        List.head?_append_of_ne_nil _ hne
      rw [heq] at hhead
      exact absurd (hdigits _ (List.mem_of_mem_head? hhead.symm)) (by decide)
    have habs : (n.natAbs : ℤ) = n := by omega
    rw [if_neg hneg, List.nil_append, readNumeral.eq_2 _ hplain]
    simp [hwhole, hfraction, readExponent?_of_endsNumeral h, hvalue, habs]

theorem readNumeral_cons_of_not_isDigit {c : Char} {cs : List Char} (hminus : c ≠ '-')
    (hdigit : c.isDigit = false) : readNumeral (c :: cs) = none := by
  have hwhole : readWhole? (c :: cs) = none := by
    rw [readWhole?, readDigits?, List.takeWhile_cons_of_neg (by simp [hdigit])]
    rintro rest ⟨⟩
    exact absurd hdigit (by decide)
  rw [readNumeral.eq_2 _ fun rest ↦ by rintro ⟨⟩; exact hminus rfl]
  simp [hwhole]

theorem exists_cons_of_readNumeral {cs : List Char} {result : Json × List Char}
    (h : readNumeral cs = some result) :
    ∃ c rest, cs = c :: rest ∧ (c = '-' ∨ c.isDigit = true) := by
  cases cs with
  | nil => simp [readNumeral, readWhole?, readDigits?] at h
  | cons c rest =>
    refine ⟨c, rest, rfl, ?_⟩
    by_contra hneither
    obtain ⟨hminus, hdigit⟩ := not_or.mp hneither
    rw [readNumeral_cons_of_not_isDigit hminus (by simpa using hdigit)] at h
    simp at h

end Json

end ReportPress
