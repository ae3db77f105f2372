import Mathlib
import ReportPress.Proofs.Markup.Keywords
import ReportPress.Proofs.Markup.Parameters

/-!
# Arguments, token by token

Every comma of a parameter text divides it, in quotes or not, so the tokens of a text are those of
its parts. Arguments take up one token after another (`Arguments.add`), and nothing that a token
changes depends on what came before it. So the arguments of a text are those of a front part with
those of the rest over them.

A token with a key trades places with every token but one of the same key (`Arguments.add_comm`). It
counts wherever it stands as if it stood at the end, unless its key comes again behind it.
-/

namespace ReportPress

open Text

variable {piece : List Char} {pieces : List (List Char)} {token : Token}
  {tokens front back others : List Token} {key value : String}

/-! ## What a text spells -/

namespace Token

/-- Whether a piece between commas spells a token. Blanks around it are no part of it. -/
inductive Spells (piece : List Char) : Token → Prop
  /-- A key, an equals sign, and a value with its blanks and one pair of quotes taken off. -/
  | keyword {key value : String} {rest : List Char} (hkey : IsKey key.toList)
      (hpiece : trim piece = key.toList ++ '=' :: rest)
      (hvalue : Unquotes (trim rest) value.toList) : Spells piece (.keyword key value)
  /-- Anything else that is there, with one pair of quotes taken off. -/
  | positional {value : String} (hpiece : trim piece ≠ [])
      (hkey : ∀ key rest, IsKey key → trim piece ≠ key ++ '=' :: rest)
      (hvalue : Unquotes (trim piece) value.toList) : Spells piece (.positional value)

/-- Whether pieces spell these tokens, one each; blank ones spell none. -/
inductive Reads : List (List Char) → List Token → Prop
  | nil : Reads [] []
  | blank {piece : List Char} {pieces : List (List Char)} {tokens : List Token}
      (hpiece : trim piece = []) (hrest : Reads pieces tokens) : Reads (piece :: pieces) tokens
  | token {piece : List Char} {pieces : List (List Char)} {token : Token} {tokens : List Token}
      (hpiece : Spells piece token) (hrest : Reads pieces tokens) :
      Reads (piece :: pieces) (token :: tokens)

theorem ofText?_of_spells (h : Spells piece token) : ofText? piece = some token := by
  cases h with
  | @keyword key value rest hkey hpiece hvalue =>
    rw [ofText?, hpiece]
    split
    · rename_i hnil
      simp at hnil
    · simp only [splitKeyword?_append hkey, ← unquotes_iff.mp hvalue, String.ofList_toList]
  | @positional value hpiece hkey hvalue =>
    rw [ofText?]
    cases htrim : trim piece with
    | nil => exact absurd htrim hpiece
    | cons first rest =>
      have hsplit : splitKeyword? (first :: rest) = none := by
        refine Option.eq_none_iff_forall_ne_some.mpr fun found hfound ↦ ?_
        obtain ⟨hisKey, hwhole⟩ := isKey_of_splitKeyword? (isBlank_of_trim_eq_cons htrim) hfound
        exact hkey _ _ hisKey (htrim.trans hwhole)
      rw [unquotes_iff, htrim] at hvalue
      simp only [hsplit, ← hvalue, String.ofList_toList]

theorem exists_spells (h : trim piece ≠ []) : ∃ token, Spells piece token := by
  by_cases hkey : ∃ key rest, IsKey key ∧ trim piece = key ++ '=' :: rest
  · obtain ⟨key, rest, hkey, hpiece⟩ := hkey
    refine ⟨.keyword (String.ofList key) (String.ofList (unquote (trim rest))),
      .keyword ?_ ?_ (unquotes_iff.mpr String.toList_ofList)⟩
    · rwa [String.toList_ofList]
    · rwa [String.toList_ofList]
  · refine ⟨.positional (String.ofList (unquote (trim piece))),
      .positional h (fun key rest hisKey hpiece ↦ hkey ⟨key, rest, hisKey, hpiece⟩) ?_⟩
    exact unquotes_iff.mpr String.toList_ofList

theorem ofText?_eq_none_iff : ofText? piece = none ↔ trim piece = [] := by
  constructor
  · intro h
    by_contra hpiece
    obtain ⟨token, hspells⟩ := exists_spells hpiece
    cases h.symm.trans (ofText?_of_spells hspells)
  · intro h
    rw [ofText?, h]

/-- What a piece spells is read from it, and nothing else. -/
theorem ofText?_eq_some_iff : ofText? piece = some token ↔ Spells piece token := by
  refine ⟨fun h ↦ ?_, ofText?_of_spells⟩
  have hpiece : trim piece ≠ [] := fun hblank ↦ by
    cases h.symm.trans (ofText?_eq_none_iff.mpr hblank)
  obtain ⟨other, hspells⟩ := exists_spells hpiece
  obtain rfl := Option.some.inj ((ofText?_of_spells hspells).symm.trans h)
  exact hspells

theorem reads_iff : Reads pieces tokens ↔ tokens = pieces.filterMap ofText? := by
  induction pieces generalizing tokens with
  | nil =>
    constructor
    · rintro ⟨⟩
      rfl
    · rintro rfl
      exact .nil
  | cons piece pieces ih =>
    constructor
    · intro h
      cases h with
      | blank hpiece hrest =>
        rw [List.filterMap_cons_none (ofText?_eq_none_iff.mpr hpiece), ih.mp hrest]
      | token hpiece hrest =>
        rw [List.filterMap_cons_some (ofText?_eq_some_iff.mpr hpiece), ih.mp hrest]
    · rintro rfl
      cases hpiece : ofText? piece with
      | none =>
        rw [List.filterMap_cons_none hpiece]
        exact .blank (ofText?_eq_none_iff.mp hpiece) (ih.mpr rfl)
      | some token =>
        rw [List.filterMap_cons_some hpiece]
        exact .token (ofText?_eq_some_iff.mp hpiece) (ih.mpr rfl)

/-- Whether tokens are these others with one more somewhere among them. -/
def StandsAmong (token : Token) (others tokens : List Token) : Prop :=
  ∃ front back, others = front ++ back ∧ tokens = front ++ token :: back

end Token

namespace Arguments

/-! ## One token after another -/

def add (args : Arguments) : Token → Arguments
  | .positional value => { args with positional := args.positional ++ [value] }
  | .keyword key value => { args with keyword := args.keyword.insert key value }

@[simp] theorem ofTokens_nil : ofTokens [] = none := rfl

theorem ofTokens_concat (tokens : List Token) (token : Token) :
    ofTokens (tokens ++ [token]) = (ofTokens tokens).add token := by
  cases token <;>
    simp only [ofTokens, add, List.filterMap_append, List.filterMap_cons, List.filterMap_nil,
      Token.positional?, Token.keyword?, List.append_nil, Keywords.ofList_concat]

theorem get?_add_keyword (args : Arguments) (key value : String) :
    (args.add (.keyword key value)).keyword.get? key = some value :=
  (Keywords.get?_insert ..).trans (if_pos rfl)

theorem get?_add_of_ne (args : Arguments) (h : ∀ other, token ≠ .keyword key other) :
    (args.add token).keyword.get? key = args.keyword.get? key := by
  cases token with
  | positional => rfl
  | keyword other held =>
    refine (Keywords.get?_insert ..).trans (if_neg ?_)
    rintro rfl
    exact h held rfl

/-- **Trading places.** It does not matter which comes first of a token with a key and any other
that has not the same. -/
theorem add_comm (args : Arguments) (value : String) (h : ∀ other, token ≠ .keyword key other) :
    (args.add (.keyword key value)).add token = (args.add token).add (.keyword key value) := by
  cases token with
  | positional => rfl
  | keyword other held =>
    have hne : key ≠ other := by
      rintro rfl
      exact h held rfl
    simp only [add, args.keyword.insert_comm hne]

/-- A token with a key counts as if it stood at the end, unless its key comes again. -/
theorem ofTokens_middle (front : List Token) (value : String)
    (h : ∀ other, .keyword key other ∉ back) :
    ofTokens (front ++ .keyword key value :: back)
      = (ofTokens (front ++ back)).add (.keyword key value) := by
  induction back using List.reverseRecOn with
  | nil => rw [ofTokens_concat, List.append_nil]
  | append_singleton back token ih =>
    have hback : ∀ other, .keyword key other ∉ back := fun other hmem ↦
      h other (List.mem_append_left _ hmem)
    have htoken : ∀ other, token ≠ .keyword key other := fun other heq ↦
      h other (heq ▸ List.mem_append_right _ (List.mem_singleton_self _))
    rw [← List.cons_append, ← List.append_assoc, ofTokens_concat, ih hback, add_comm _ _ htoken,
      ← ofTokens_concat, List.append_assoc]

/-- **The last counts.** A key has the value of the last token that has the key. -/
theorem get?_ofTokens_eq_some_iff :
    (ofTokens tokens).keyword.get? key = some value ↔
      ∃ front back, tokens = front ++ .keyword key value :: back ∧
        ∀ other, .keyword key other ∉ back := by
  constructor
  · intro h
    -- By induction from the back: the last token counts, or says nothing of the key.
    induction tokens using List.reverseRecOn with
    | nil => cases h
    | append_singleton tokens token ih =>
      rw [ofTokens_concat] at h
      by_cases htoken : ∃ other, token = .keyword key other
      · obtain ⟨other, rfl⟩ := htoken
        rw [get?_add_keyword, Option.some.injEq] at h
        subst h
        exact ⟨tokens, [], rfl, fun _ ↦ List.not_mem_nil⟩
      · have hne := not_exists.mp htoken
        rw [get?_add_of_ne _ hne] at h
        obtain ⟨front, back, rfl, hback⟩ := ih h
        refine ⟨front, back ++ [token], List.append_assoc .., fun other hmem ↦ ?_⟩
        rcases List.mem_append.mp hmem with hmem | hmem
        · exact hback other hmem
        · exact hne other (List.mem_singleton.mp hmem).symm
  · rintro ⟨front, back, rfl, hback⟩
    rw [ofTokens_middle front value hback, get?_add_keyword]

/-! ## One part after another -/

/-- Later arguments go behind earlier ones, and over those that have the same key. -/
instance : Append Arguments :=
  ⟨fun args later ↦ ⟨args.positional ++ later.positional, args.keyword.overriddenBy later.keyword⟩⟩

theorem append_def (args later : Arguments) :
    args ++ later
      = ⟨args.positional ++ later.positional, args.keyword.overriddenBy later.keyword⟩ := rfl

theorem append_none (args : Arguments) : args ++ none = args := by
  rw [append_def, none, List.append_nil, Keywords.overriddenBy_empty]

theorem append_add (args later : Arguments) (token : Token) :
    args ++ later.add token = (args ++ later).add token := by
  cases token with
  | positional value => simp [append_def, add]
  | keyword key value => simp [append_def, add, Keywords.overriddenBy_insert]

theorem ofTokens_append (front back : List Token) :
    ofTokens (front ++ back) = ofTokens front ++ ofTokens back := by
  induction back using List.reverseRecOn with
  | nil => rw [List.append_nil, ofTokens_nil, append_none]
  | append_singleton back token ih =>
    rw [← List.append_assoc, ofTokens_concat, ih, ofTokens_concat, append_add]

theorem ofParameters_append_comma (front back : String) :
    ofParameters (front ++ "," ++ back) = ofParameters front ++ ofParameters back := by
  have hall : Token.all (front ++ "," ++ back) = Token.all front ++ Token.all back := by
    rw [Token.all_eq_ofPieces, String.toList_append, String.toList_append, List.append_assoc]
    exact Token.ofPieces_append_comma front.toList back.toList
  rw [ofParameters, hall, ofTokens_append, ofParameters, ofParameters]

theorem ofTokens_of_standsAmong (h : (Token.keyword key value).StandsAmong others tokens)
    (hkey : ∀ other, .keyword key other ∉ others) :
    ofTokens tokens = (ofTokens others).add (.keyword key value) := by
  obtain ⟨front, back, rfl, rfl⟩ := h
  exact ofTokens_middle front value fun other hmem ↦ hkey other (List.mem_append_right _ hmem)

/-- **Arguments are read part by part.** At any comma a text falls into two, whose positional values
follow each other, and of whose values with keys those of the second count where it has any. Its
tokens are what its pieces spell. A key has the value of the last token with that key, and a token
whose key no other has may be moved to any place without a change. -/
theorem ofParameters_piecewise (raw : String) :
    (∀ back : String,
      (ofParameters (raw ++ "," ++ back)).positional
          = (ofParameters raw).positional ++ (ofParameters back).positional ∧
        (ofParameters (raw ++ "," ++ back)).keyword
          = (ofParameters raw).keyword.overriddenBy (ofParameters back).keyword ∧
        ∀ key, (ofParameters (raw ++ "," ++ back)).keyword.get? key
          = ((ofParameters back).keyword.get? key).or ((ofParameters raw).keyword.get? key)) ∧
      (∀ tokens, Token.Reads (raw.toList.splitOn ',') tokens ↔ tokens = Token.all raw) ∧
      (∀ key value, (ofParameters raw).keyword.get? key = some value ↔
        ∃ front back, Token.all raw = front ++ .keyword key value :: back ∧
          ∀ other, .keyword key other ∉ back) ∧
      ∀ moved key value others,
        (Token.keyword key value).StandsAmong others (Token.all raw) →
        (Token.keyword key value).StandsAmong others (Token.all moved) →
        (∀ other, .keyword key other ∉ others) → ofParameters moved = ofParameters raw := by
  refine ⟨fun back ↦ ?_, fun tokens ↦ Token.reads_iff, fun key value ↦ get?_ofTokens_eq_some_iff,
    fun moved key value others hraw hmoved hkey ↦ ?_⟩
  · rw [ofParameters_append_comma, append_def]
    exact ⟨rfl, rfl, Keywords.get?_overriddenBy _ _⟩
  · calc ofParameters moved
        = (ofTokens others).add (.keyword key value) := ofTokens_of_standsAmong hmoved hkey
      _ = ofParameters raw := (ofTokens_of_standsAmong hraw hkey).symm

/-- A quote that is open at a comma holds nothing together: the key between the marks goes to the
end, and is one like any other there. -/
theorem ofParameters_piecewise_open_quote :
    ofParameters "'a,,b',x=2, k='1'" = ofParameters " 'a , k=1, b' ,x=2" := by
  have hraw : Token.all " 'a , k=1, b' ,x=2"
      = [.positional "'a"] ++ .keyword "k" "1" :: [.positional "b'", .keyword "x" "2"] := by
    decide
  have hmoved : Token.all "'a,,b',x=2, k='1'"
      = [.positional "'a", .positional "b'", .keyword "x" "2"] ++ .keyword "k" "1" :: [] := by
    decide
  obtain ⟨-, -, -, hmove⟩ := ofParameters_piecewise " 'a , k=1, b' ,x=2"
  exact hmove _ "k" "1" [.positional "'a", .positional "b'", .keyword "x" "2"]
    ⟨_, _, rfl, hraw⟩ ⟨_, _, rfl, hmoved⟩ (by simp)

end Arguments

end ReportPress
