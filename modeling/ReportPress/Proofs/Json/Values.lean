import Mathlib
import ReportPress.Proofs.Json.Numeral
import ReportPress.Proofs.Json.Strings

/-!
# Values are read back

A value that is written and read again is the same value, with its decimal numbers as their numerals
spell them. The induction follows the value, once for the values of an array and once for the
members of an object; the count of steps that the reader may take exceeds the length of the text
throughout.
-/

namespace ReportPress.Json

open Number

/-! ## Induction over values -/

/-- What holds of every value that is no array and no object, and of an array or object if it holds
of everything in it, holds of every value. -/
@[elab_as_elim]
theorem induction {P : Json → Prop} (null : P .null) (bool : ∀ b, P (.bool b))
    (integer : ∀ n, P (.integer n)) (decimal : ∀ d, P (.decimal d)) (string : ∀ s, P (.string s))
    (brokenString : P .brokenString)
    (array : ∀ items, (∀ item ∈ items, P item) → P (.array items))
    (object : ∀ members, (∀ member ∈ members, P member.2) → P (.object members))
    (value : Json) : P value :=
  @Json.rec P (fun items ↦ ∀ item ∈ items, P item) (fun members ↦ ∀ member ∈ members, P member.2)
    (fun member ↦ P member.2) null bool integer decimal string brokenString array object
    (by simp) (fun _ _ hitem hitems ↦ List.forall_mem_cons.mpr ⟨hitem, hitems⟩)
    (by simp) (fun _ _ hmember hmembers ↦ List.forall_mem_cons.mpr ⟨hmember, hmembers⟩)
    (fun _ _ hvalue ↦ hvalue) value

/-! ## What comes back -/

mutual

/-- A value as it is read back. -/
def reread : Json → Json
  | .decimal d => .decimal (spelled d)
  | .brokenString => .string ""
  | .array items => .array (rereadItems items)
  | .object members => .object (rereadMembers members)
  | .null => .null
  | .bool b => .bool b
  | .integer n => .integer n
  | .string s => .string s

def rereadItems : List Json → List Json
  | [] => []
  | item :: items => item.reread :: rereadItems items

def rereadMembers : List (String × Json) → List (String × Json)
  | [] => []
  | (name, value) :: members => (name, value.reread) :: rereadMembers members

end

theorem rereadItems_eq_map (items : List Json) : rereadItems items = items.map reread := by
  induction items with
  | nil => rfl
  | cons item items ih => rw [rereadItems, ih, List.map_cons]

/-! ## Blanks -/

def IsOpening (c : Char) : Prop :=
  c ∈ ['n', 't', 'f', '\x22', '[', '\x7b', '-'] ∨ c.isDigit = true

theorem skipBlanks_lineStart (level : ℕ) (cs : List Char) :
    skipBlanks (lineStart level ++ cs) = skipBlanks cs := by
  rw [skipBlanks, List.dropWhile_append_of_pos]
  · rfl
  · intro c hc
    rcases List.mem_cons.mp hc with rfl | hc
    · decide
    · rw [List.eq_of_mem_replicate hc]
      decide

theorem skipBlanks_cons {c : Char} (h : c ∉ [' ', '\t', '\n', '\r']) (cs : List Char) :
    skipBlanks (c :: cs) = c :: cs := by
  rw [skipBlanks, List.dropWhile_cons_of_neg]
  simpa [and_assoc] using h

theorem IsOpening.not_blank {c : Char} (h : IsOpening c) : c ∉ [' ', '\t', '\n', '\r', ']'] := by
  rintro hc
  simp only [List.mem_cons, List.not_mem_nil, or_false] at hc
  rcases hc with rfl | rfl | rfl | rfl | rfl <;> exact absurd h (by unfold IsOpening; decide)

theorem isOpening_of_numeral {c : Char} (h : c = '-' ∨ c.isDigit = true) : IsOpening c :=
  h.imp (by rintro rfl; decide) id

theorem exists_cons_prettyAt (level : ℕ) (value : Json) :
    ∃ c cs, prettyAt level value = c :: cs ∧ IsOpening c := by
  have hmark {c : Char} {cs : List Char} (hc : c ∈ ['n', 't', 'f', '\x22', '[', '\x7b', '-']) :
      ∃ c' cs', c :: cs = c' :: cs' ∧ IsOpening c' := ⟨c, cs, rfl, Or.inl hc⟩
  cases value with
  | null => exact hmark (by decide)
  | bool b => cases b <;> exact hmark (by decide)
  | integer n =>
    have hread := readNumeral_integerText n endsNumeral_nil
    rw [List.append_nil] at hread
    obtain ⟨c, cs, heq, hc⟩ := exists_cons_of_readNumeral hread
    exact ⟨c, cs, by rw [prettyAt, heq], isOpening_of_numeral hc⟩
  | decimal d =>
    have hread := readNumeral_render d endsNumeral_nil
    rw [List.append_nil] at hread
    obtain ⟨c, cs, heq, hc⟩ := exists_cons_of_readNumeral hread
    exact ⟨c, cs, by rw [prettyAt, heq], isOpening_of_numeral hc⟩
  | string s => exact hmark (by decide)
  | brokenString => exact hmark (by decide)
  | array items => cases items <;> exact hmark (by decide)
  | object members =>
    rcases members with - | ⟨⟨name, value⟩, members⟩ <;> exact hmark (by decide)

theorem skipBlanks_prettyAt (level : ℕ) (value : Json) (rest : List Char) :
    skipBlanks (prettyAt level value ++ rest) = prettyAt level value ++ rest := by
  obtain ⟨c, cs, heq, hc⟩ := exists_cons_prettyAt level value
  rw [heq, List.cons_append]
  exact skipBlanks_cons (fun hmem ↦ hc.not_blank (List.mem_append_left [']'] hmem)) _

/-! ## Values -/

section Read

variable {rest : List Char}

theorem readValue_numeral {c : Char} {cs : List Char} (h : c = '-' ∨ c.isDigit = true) (steps : ℕ) :
    readValue (steps + 1) (c :: cs) = readNumeral (c :: cs) := by
  have hopening := isOpening_of_numeral h
  rw [readValue, skipBlanks_cons fun hmem ↦ hopening.not_blank (List.mem_append_left [']'] hmem)]
  split
  all_goals first
    | rfl
    | (rename_i heq
       obtain ⟨rfl, -⟩ := List.cons.inj heq
       exact absurd h (by decide))

theorem readValue_of_readNumeral {cs : List Char} {result : Json × List Char}
    (h : readNumeral cs = some result) (steps : ℕ) : readValue (steps + 1) cs = some result := by
  obtain ⟨c, rest, rfl, hc⟩ := exists_cons_of_readNumeral h
  rw [readValue_numeral hc, h]

theorem stringText_append (s : String) (cs : List Char) :
    stringText s ++ cs = '\x22' :: (s.toList.flatMap escapeChar ++ '\x22' :: cs) := by
  simp [stringText]

theorem readValue_stringText (s : String) (steps : ℕ) :
    readValue (steps + 1) (stringText s ++ rest) = some (.string s, rest) := by
  rw [stringText_append, readValue, skipBlanks_cons (by decide)]
  simp [readString_stringText]

theorem readValue_bracket (steps level : ℕ) (item : Json) (more : List Char) :
    readValue (steps + 1) ('[' :: (lineStart level ++ (prettyAt level item ++ more)))
      = (readItems steps (prettyAt level item ++ more)).map
          fun (items, after) ↦ (.array items, after) := by
  have hskip := skipBlanks_prettyAt level item more
  obtain ⟨c, cs, heq, hc⟩ := exists_cons_prettyAt level item
  rw [readValue, skipBlanks_cons (by decide)]
  simp only [skipBlanks_lineStart, hskip]
  rw [heq, List.cons_append]
  split
  · rename_i hclose
    obtain ⟨rfl, -⟩ := List.cons.inj hclose
    exact absurd (by decide) hc.not_blank
  · rfl

theorem readValue_brace (steps level : ℕ) (name : String) (more : List Char) :
    readValue (steps + 1) ('\x7b' :: (lineStart level ++ (stringText name ++ more)))
      = (readMembers steps (stringText name ++ more)).map
          fun (members, after) ↦ (.object members, after) := by
  rw [readValue, skipBlanks_cons (by decide)]
  simp only [skipBlanks_lineStart, stringText, List.cons_append]
  rw [skipBlanks_cons (by decide)]
  rfl

theorem readItems_last {steps level : ℕ} {cs : List Char} {item : Json}
    (h : readValue steps cs = some (item, lineStart level ++ ']' :: rest)) :
    readItems (steps + 1) cs = some ([item], rest) := by
  simp [readItems, h, skipBlanks_lineStart, skipBlanks_cons]

theorem readItems_cons {steps : ℕ} {cs more : List Char} {item : Json} {items : List Json}
    (h : readValue steps cs = some (item, ',' :: more))
    (hmore : readItems steps more = some (items, rest)) :
    readItems (steps + 1) cs = some (item :: items, rest) := by
  simp [readItems, h, hmore, skipBlanks_cons]

theorem readValue_blank (steps : ℕ) (cs : List Char) :
    readValue steps (' ' :: cs) = readValue steps cs :=
  readValue_congr (List.dropWhile_cons_of_pos (by decide)) steps

theorem readMembers_last {steps level : ℕ} {cs : List Char} {name : String} {value : Json}
    (h : readValue steps cs = some (value, lineStart level ++ '\x7d' :: rest)) :
    readMembers (steps + 1) (stringText name ++ (':' :: ' ' :: cs)) = some ([(name, value)], rest) := by
  rw [stringText_append, readMembers, skipBlanks_cons (by decide)]
  simp [readString_stringText, readValue_blank, h, skipBlanks_lineStart, skipBlanks_cons]

theorem readMembers_cons {steps : ℕ} {cs more : List Char} {name : String} {value : Json}
    {members : List (String × Json)} (h : readValue steps cs = some (value, ',' :: more))
    (hmore : readMembers steps more = some (members, rest)) :
    readMembers (steps + 1) (stringText name ++ (':' :: ' ' :: cs))
      = some ((name, value) :: members, rest) := by
  rw [stringText_append, readMembers, skipBlanks_cons (by decide)]
  simp [readString_stringText, readValue_blank, h, hmore, skipBlanks_cons]

end Read

theorem endsNumeral_comma (cs : List Char) : EndsNumeral (',' :: cs) := by simp [EndsNumeral]

theorem endsNumeral_lineStart (level : ℕ) (cs : List Char) :
    EndsNumeral (lineStart level ++ cs) := by simp [EndsNumeral, lineStart]

/-- Whether a value is read back wherever it stands. -/
def ReadsBack (value : Json) : Prop :=
  ∀ (level steps : ℕ) (rest : List Char), (prettyAt level value).length ≤ steps →
    EndsNumeral rest →
      readValue (steps + 1) (prettyAt level value ++ rest) = some (value.reread, rest)

theorem ReadsBack.readValue {value : Json} (h : ReadsBack value) {level steps : ℕ}
    {rest : List Char} (hsteps : (prettyAt level value).length < steps) (hrest : EndsNumeral rest) :
    readValue steps (prettyAt level value ++ rest) = some (value.reread, rest) := by
  obtain ⟨steps, rfl⟩ : ∃ n, steps = n + 1 := ⟨steps - 1, by omega⟩
  exact h level steps rest (by omega) hrest

theorem readItems_prettyItems {item : Json} {items : List Json}
    (hback : ∀ value ∈ item :: items, ReadsBack value) (level outer : ℕ) {steps : ℕ}
    {rest : List Char}
    (hsteps : (prettyAt level item).length + (prettyItems level items).length + 1 < steps) :
    readItems steps (prettyAt level item ++ (prettyItems level items ++
      (lineStart outer ++ ']' :: rest))) = some (rereadItems (item :: items), rest) := by
  have hitem := hback item List.mem_cons_self
  induction items generalizing item steps with
  | nil =>
    obtain ⟨steps, rfl⟩ : ∃ n, steps = n + 1 := ⟨steps - 1, by omega⟩
    exact readItems_last (hitem.readValue (by omega) (endsNumeral_lineStart _ _))
  | cons next items ih =>
    obtain ⟨steps, rfl⟩ : ∃ n, steps = n + 1 := ⟨steps - 1, by omega⟩
    have htext : prettyItems level (next :: items) ++ (lineStart outer ++ ']' :: rest) =
        ',' :: (lineStart level ++ (prettyAt level next ++ (prettyItems level items ++
          (lineStart outer ++ ']' :: rest)))) := by
      simp [prettyItems]
    simp only [prettyItems, List.length_append, List.length_cons] at hsteps
    have hrest : ∀ value ∈ next :: items, ReadsBack value :=
      fun value hmem ↦ hback value (List.mem_cons_of_mem _ hmem)
    rw [htext]
    refine readItems_cons (hitem.readValue (by omega) (endsNumeral_comma _)) ?_
    rw [readItems_congr (skipBlanks_lineStart level _)]
    exact ih hrest (by omega) (hrest next List.mem_cons_self)

theorem readMembers_prettyMembers {name : String} {value : Json} {members : List (String × Json)}
    (hback : ∀ member ∈ (name, value) :: members, ReadsBack member.2) (level outer : ℕ) {steps : ℕ}
    {rest : List Char}
    (hsteps : (prettyAt level value).length + (prettyMembers level members).length + 1 < steps) :
    readMembers steps (stringText name ++ (':' :: ' ' :: (prettyAt level value ++
      (prettyMembers level members ++ (lineStart outer ++ '\x7d' :: rest)))))
      = some (rereadMembers ((name, value) :: members), rest) := by
  have hvalue : ReadsBack value := hback (name, value) List.mem_cons_self
  -- By induction on the members behind the first. A comma takes the reader to the next.
  induction members generalizing name value steps with
  | nil =>
    obtain ⟨steps, rfl⟩ : ∃ n, steps = n + 1 := ⟨steps - 1, by omega⟩
    exact readMembers_last (hvalue.readValue (by omega) (endsNumeral_lineStart _ _))
  | cons next members ih =>
    obtain ⟨steps, rfl⟩ : ∃ n, steps = n + 1 := ⟨steps - 1, by omega⟩
    have htext : prettyMembers level (next :: members) ++ (lineStart outer ++ '\x7d' :: rest) =
        ',' :: (lineStart level ++ (stringText next.1 ++ (':' :: ' ' ::
          (prettyAt level next.2 ++ (prettyMembers level members ++
            (lineStart outer ++ '\x7d' :: rest)))))) := by
      simp [prettyMembers]
    simp only [prettyMembers, List.length_append, List.length_cons] at hsteps
    have hrest : ∀ member ∈ (next.1, next.2) :: members, ReadsBack member.2 :=
      fun member hmem ↦ hback member (List.mem_cons_of_mem _ hmem)
    rw [htext]
    refine readMembers_cons (hvalue.readValue (by omega) (endsNumeral_comma _)) ?_
    rw [readMembers_congr (skipBlanks_lineStart level _)]
    exact ih hrest (by omega) (hrest next List.mem_cons_self)

/-- **A value is read back.** -/
theorem readsBack (value : Json) : ReadsBack value := by
  induction value using induction with
  | null =>
    intro level steps rest hsteps h
    simp [prettyAt, readValue, skipBlanks_cons, reread]
  | bool b =>
    intro level steps rest hsteps h
    cases b <;> simp [prettyAt, readValue, skipBlanks_cons, reread]
  | integer n =>
    intro level steps rest hsteps h
    exact readValue_of_readNumeral (readNumeral_integerText n h) steps
  | decimal d =>
    intro level steps rest hsteps h
    exact readValue_of_readNumeral (readNumeral_render d h) steps
  | string s =>
    intro level steps rest hsteps h
    exact readValue_stringText s steps
  | brokenString =>
    intro level steps rest hsteps h
    exact readValue_stringText "" steps
  -- What is left of the steps behind a bracket is enough for the items, whose text is shorter.
  | array items ih =>
    intro level steps rest hsteps h
    cases items with
    | nil => simp [prettyAt, readValue, skipBlanks_cons, reread, rereadItems]
    | cons item items =>
      have htext : prettyAt level (.array (item :: items)) ++ rest = '[' ::
          (lineStart (level + 1) ++ (prettyAt (level + 1) item ++
            (prettyItems (level + 1) items ++ (lineStart level ++ ']' :: rest)))) := by
        simp [prettyAt]
      simp only [prettyAt, List.length_append, List.length_cons] at hsteps
      rw [htext, readValue_bracket, readItems_prettyItems ih _ _ (by omega)]
      rfl
  | object members ih =>
    intro level steps rest hsteps h
    cases members with
    | nil => simp [prettyAt, readValue, skipBlanks_cons, reread, rereadMembers]
    | cons member members =>
      have htext : prettyAt level (.object (member :: members)) ++ rest = '\x7b' ::
          (lineStart (level + 1) ++ (stringText member.1 ++ (':' :: ' ' ::
            (prettyAt (level + 1) member.2 ++ (prettyMembers (level + 1) members ++
              (lineStart level ++ '\x7d' :: rest)))))) := by
        simp [prettyAt]
      simp only [prettyAt, List.length_append, List.length_cons] at hsteps
      rw [htext, readValue_brace, readMembers_prettyMembers ih _ _ (by omega)]
      rfl

/-- **A text is read back.** -/
theorem read?_pretty (value : Json) : read? value.pretty = some value.reread := by
  have hread := (readsBack value).readValue (show (prettyAt 0 value).length
    < 2 * (prettyAt 0 value).length + 2 by omega) endsNumeral_nil
  rw [List.append_nil] at hread
  simp [read?, pretty, hread, skipBlanks]

end ReportPress.Json
