import Mathlib
import ReportPress.Markup.Arguments
import ReportPress.Proofs.Markup.Keywords
import ReportPress.Proofs.Text.Cut
import ReportPress.Proofs.Text.Quotes

/-!
# Parameters, written and read back

A parameter text is read piece by piece between commas, so what arguments are read back from their
own parameter text is settled argument by argument (`Token.all_toParameters`). A key is read back
whenever it was read from a text in the first place. A value is read back unless what is taken off a
value when it is read would be taken off once more: blanks around it, or a pair of quotes. The
quotation marks that are put around some of the positional values keep those as they are, but a
value that holds no equals sign and does not begin with a quote gets none.
-/

namespace ReportPress

open Text

variable {key value : String} {cs piece : List Char}

/-! ## Pieces between commas -/

namespace Token

def ofPieces (cs : List Char) : List Token := (cs.splitOn ',').filterMap ofText?

theorem all_eq_ofPieces (raw : String) : all raw = ofPieces raw.toList := rfl

@[simp] theorem ofPieces_nil : ofPieces [] = [] := rfl

theorem ofPieces_append_comma (front back : List Char) :
    ofPieces (front ++ ',' :: back) = ofPieces front ++ ofPieces back := by
  rw [ofPieces, List.splitOn_append_cons_self, List.filterMap_append, ofPieces, ofPieces]

theorem ofPieces_of_not_mem (h : ',' ∉ cs) : ofPieces cs = (ofText? cs).toList := by
  rw [ofPieces, List.splitOn_eq_singleton h, List.filterMap_cons]
  cases ofText? cs <;> rfl

theorem ofText?_cons_blank (cs : List Char) : ofText? (' ' :: cs) = ofText? cs := by
  have htrim : trim (' ' :: cs) = trim cs := by
    rw [trim, trimStart_cons_of_isBlank (by decide), trim]
  rw [ofText?, htrim, ofText?]

theorem ofPieces_cons_blank (cs : List Char) : ofPieces (' ' :: cs) = ofPieces cs := by
  have hsplit : (' ' :: cs).splitOn ',' = (cs.splitOn ',').modifyHead (' ' :: ·) := by
    rw [List.splitOn_cons_eq_if_modifyHead, if_neg (by decide)]
  rw [ofPieces, hsplit, ofPieces]
  cases cs.splitOn ',' with
  | nil => rfl
  | cons piece pieces =>
    rw [List.modifyHead_cons, List.filterMap_cons, List.filterMap_cons, ofText?_cons_blank]

theorem all_intercalate (texts : List String) :
    all (", ".intercalate texts) = texts.flatMap all := by
  rw [all_eq_ofPieces, String.toList_intercalate, show ", ".toList = [',', ' '] from rfl]
  induction texts with
  | nil => rfl
  | cons text texts ih =>
    cases texts with
    | nil => simp [List.intercalate, all_eq_ofPieces]
    | cons other others =>
      rw [List.flatMap_cons, List.map_cons, List.map_cons, List.intercalate_cons_cons,
        ← List.map_cons, List.append_assoc, List.cons_append, List.singleton_append,
        ofPieces_append_comma, ofPieces_cons_blank, ih, all_eq_ofPieces text]

/-- A token is read from a piece that holds no comma. -/
theorem exists_piece_of_mem_ofPieces {token : Token} (h : token ∈ ofPieces cs) :
    ∃ piece, (∀ c ∈ piece, c ∈ cs ∧ c ≠ ',') ∧ ofText? piece = some token := by
  obtain ⟨piece, hpiece, htoken⟩ := List.mem_filterMap.mp h
  refine ⟨piece, ?_, htoken⟩
  clear h htoken
  induction cs generalizing piece with
  | nil =>
    rw [List.splitOn_nil, List.mem_singleton] at hpiece
    simp [hpiece]
  | cons c cs ih =>
    have hrest (piece) (hpiece : piece ∈ cs.splitOn ',') : ∀ d ∈ piece, d ∈ c :: cs ∧ d ≠ ',' :=
      fun d hd ↦ (ih piece hpiece d hd).imp_left (List.mem_cons_of_mem c)
    rw [List.splitOn_cons_eq_if_modifyHead] at hpiece
    split at hpiece
    · rcases List.mem_cons.mp hpiece with rfl | hpiece
      · simp
      · exact hrest piece hpiece
    · rename_i hc
      cases hsplit : cs.splitOn ',' with
      | nil => simp at hsplit
      | cons first others =>
        rw [hsplit, List.modifyHead_cons] at hpiece
        rcases List.mem_cons.mp hpiece with rfl | hpiece
        · refine List.forall_mem_cons.mpr ⟨⟨List.mem_cons_self, by simpa using hc⟩, ?_⟩
          exact hrest first (hsplit ▸ List.mem_cons_self)
        · exact hrest piece (hsplit ▸ List.mem_cons_of_mem first hpiece)

/-! ## Keys and values -/

/-- Whether a text can be read as the key of an argument. -/
structure IsKey (key : List Char) : Prop where
  /-- It is there, and begins neither with a blank nor with a quote. -/
  head : ∃ first rest, key = first :: rest ∧ isBlank first = false ∧ isQuote first = false
  /-- The equals sign after it is the first. -/
  not_equals : '=' ∉ key
  /-- It has no space in it. -/
  not_space : ' ' ∉ key

theorem isKey_iff {key : List Char} :
    IsKey key ↔ key ≠ [] ∧ '=' ∉ key ∧ ' ' ∉ key ∧
      ∀ first, key.head? = some first → isBlank first = false ∧ isQuote first = false := by
  constructor
  · rintro ⟨⟨first, rest, rfl, hfirst⟩, hequals, hspace⟩
    refine ⟨List.cons_ne_nil first rest, hequals, hspace, ?_⟩
    rintro _ ⟨⟩
    exact hfirst
  · rintro ⟨hne, hequals, hspace, hhead⟩
    obtain ⟨first, rest, rfl⟩ := List.exists_cons_of_ne_nil hne
    exact ⟨⟨first, rest, rfl, hhead first rfl⟩, hequals, hspace⟩

theorem splitKeyword?_of_not_mem (h : '=' ∉ cs) : splitKeyword? cs = none := by
  cases cs with
  | nil => rfl
  | cons first rest =>
    rw [splitKeyword?, dropWhile_ne_of_not_mem h]

theorem splitKeyword?_of_isQuote {first : Char} (h : isQuote first = true) (rest : List Char) :
    splitKeyword? (first :: rest) = none := by
  rw [splitKeyword?]
  simp only [h, true_or, or_true, if_true]
  split <;> rfl

theorem splitKeyword?_append {key : List Char} (h : IsKey key) (value : List Char) :
    splitKeyword? (key ++ '=' :: value) = some (key, value) := by
  obtain ⟨⟨first, rest, rfl, -, hquote⟩, hequals, hspace⟩ := h
  have hfirst : first ≠ '=' := fun heq ↦ hequals (heq ▸ List.mem_cons_self)
  have htake := takeWhile_ne_append hequals value
  have hdrop := dropWhile_ne_append hequals value
  rw [List.cons_append] at htake hdrop ⊢
  rw [splitKeyword?]
  simp only [htake, hdrop]
  exact if_neg (by simp [hfirst, hquote, hspace])

theorem isKey_of_splitKeyword? {first : Char} {rest key value : List Char}
    (hblank : isBlank first = false) (h : splitKeyword? (first :: rest) = some (key, value)) :
    IsKey key ∧ first :: rest = key ++ '=' :: value := by
  rw [splitKeyword?] at h
  cases hdrop : (first :: rest).dropWhile (· ≠ '=') with
  | nil =>
    simp only [hdrop] at h
    cases h
  | cons equals back =>
    obtain ⟨hequals, hsplit⟩ := eq_append_of_dropWhile_ne hdrop
    simp only [hdrop] at h
    split at h
    · cases h
    · rename_i hkey
      obtain ⟨rfl, rfl⟩ := Prod.ext_iff.mp (Option.some.inj h)
      simp only [not_or, Bool.not_eq_true] at hkey
      obtain ⟨hfirst, hquote, hspace⟩ := hkey
      have hhead : (first :: rest).takeWhile (· ≠ '=') = first :: rest.takeWhile (· ≠ '=') := by
        rw [List.takeWhile_cons, if_pos (decide_eq_true hfirst)]
      exact ⟨⟨⟨first, _, hhead, hblank, hquote⟩, hequals, hspace⟩, hsplit⟩

theorem ofText?_of_isKey {key : List Char} (h : IsKey key) (value : List Char) :
    ofText? (key ++ '=' :: value)
      = some (.keyword (String.ofList key) (String.ofList (unquote (trim value)))) := by
  obtain ⟨first, rest, hkey, hblank, -⟩ := h.head
  have htrim : trim (key ++ '=' :: value) = key ++ '=' :: trimEnd value := by
    rw [trim, hkey, List.cons_append, trimStart_cons_of_not_isBlank hblank, ← List.cons_append]
    exact trimEnd_append_cons (by decide) _ _
  have hsplit := splitKeyword?_append h (trimEnd value)
  rw [ofText?, htrim]
  split
  · rename_i hnil
    simp at hnil
  · simp only [hsplit, trim_trimEnd]

theorem ofText?_quoted {mark : Char} (h : isQuote mark = true) (cs : List Char) :
    ofText? (mark :: (cs ++ [mark])) = some (.positional (String.ofList cs)) := by
  rw [ofText?, trim_quoted h]
  simp only [splitKeyword?_of_isQuote h, unquote_quoted h]

theorem ofText?_of_not_mem (h : '=' ∉ cs) :
    ofText? cs = if trim cs = [] then none
      else some (.positional (String.ofList (unquote (trim cs)))) := by
  have hsplit := splitKeyword?_of_not_mem fun hmem : '=' ∈ trim cs ↦ h ((trim_sublist cs).mem hmem)
  rw [ofText?]
  cases htrim : trim cs with
  | nil => rfl
  | cons first rest =>
    rw [htrim] at hsplit
    simp [hsplit]

/-- The texts in a token stand in the piece that it is read from, and a key there is one. -/
theorem ofText?_eq_some {token : Token} (h : ofText? piece = some token) :
    match token with
    | .positional value => ∀ c ∈ value.toList, c ∈ piece
    | .keyword key value =>
      IsKey key.toList ∧ (∀ c ∈ key.toList, c ∈ piece) ∧ ∀ c ∈ value.toList, c ∈ piece := by
  cases htrim : trim piece with
  | nil => simp [ofText?, htrim] at h
  | cons first rest =>
    have hmem {c : Char} (hc : c ∈ first :: rest) : c ∈ piece :=
      (trim_sublist piece).mem (htrim ▸ hc)
    simp only [ofText?, htrim] at h
    cases hsplit : splitKeyword? (first :: rest) with
    | none =>
      simp only [hsplit, Option.some.injEq] at h
      subst h
      simpa using fun c hc ↦ hmem ((unquote_sublist _).mem hc)
    | some found =>
      obtain ⟨key, value⟩ := found
      obtain ⟨hkey, hwhole⟩ := isKey_of_splitKeyword? (isBlank_of_trim_eq_cons htrim) hsplit
      simp only [hsplit, Option.some.injEq] at h
      subst h
      simp only [String.toList_ofList]
      refine ⟨hkey, fun c hc ↦ hmem (hwhole ▸ List.mem_append_left _ hc), fun c hc ↦ ?_⟩
      have hvalue := (trim_sublist value).mem ((unquote_sublist _).mem hc)
      exact hmem (hwhole ▸ List.mem_append_right _ (List.mem_cons_of_mem _ hvalue))

end Token

/-! ## Arguments -/

namespace Arguments

variable {args : Arguments}

/-- **Whether a value that was given by its place is read back.** It is if it is written in
quotation marks; otherwise it must be there, without blanks around it. -/
def PlaceReadsBack (value : String) : Prop :=
  '=' ∈ value.toList ∨ value.toList.head?.any isQuote ∨
    value ≠ "" ∧ trim value.toList = value.toList

/-- **Whether a value that was given by its key is read back.** There must be neither blanks nor a
pair of quotes around it. -/
def KeyReadsBack (value : String) : Prop :=
  trim value.toList = value.toList ∧ unquote value.toList = value.toList

/-- Whether no comma divides the arguments and every key can be read as one, as is so for arguments
that were read from a text. -/
structure Bound (args : Arguments) : Prop where
  /-- No comma divides a value. -/
  place : ∀ value ∈ args.positional, ',' ∉ value.toList
  /-- No comma divides a key or its value, and the key is one. -/
  key : ∀ entry ∈ args.keyword.entries,
    Token.IsKey entry.1.toList ∧ ',' ∉ entry.1.toList ∧ ',' ∉ entry.2.toList

theorem bound_ofParameters (raw : String) : Bound (ofParameters raw) := by
  -- Every token is read from a piece between commas.
  have hpiece {token : Token} (h : token ∈ Token.all raw) :
      ∃ piece, ',' ∉ piece ∧ Token.ofText? piece = some token := by
    obtain ⟨piece, hcs, htoken⟩ := Token.exists_piece_of_mem_ofPieces h
    exact ⟨piece, fun hcomma ↦ (hcs _ hcomma).2 rfl, htoken⟩
  constructor
  · intro value hvalue
    obtain ⟨token, htoken, hpositional⟩ := List.mem_filterMap.mp hvalue
    obtain ⟨piece, hcomma, hofText⟩ := hpiece htoken
    cases token with
    | keyword => cases hpositional
    | positional found =>
      obtain rfl := Option.some.inj hpositional
      exact fun hmem ↦ hcomma (Token.ofText?_eq_some hofText _ hmem)
  · intro entry hentry
    obtain ⟨token, htoken, hkeyword⟩ := List.mem_filterMap.mp (Keywords.mem_of_mem_ofList hentry)
    obtain ⟨piece, hcomma, hofText⟩ := hpiece htoken
    cases token with
    | positional => cases hkeyword
    | keyword key value =>
      obtain rfl := Option.some.inj hkeyword
      obtain ⟨hkey, hkeyChars, hvalueChars⟩ := Token.ofText?_eq_some hofText
      exact ⟨hkey, fun hmem ↦ hcomma (hkeyChars _ hmem), fun hmem ↦ hcomma (hvalueChars _ hmem)⟩

/-- The token that is read from the text of a positional value. -/
def rereadPlace (value : String) : Option Token := Token.ofText? (positionalText value).toList

def rereadKey (entry : String × String) : String × String :=
  (entry.1, String.ofList (unquote (trim entry.2.toList)))

/-- What is read from the text of a positional value is no argument with a key, and the value itself
only when it is read back. -/
theorem rereadPlace_bind (value : String) :
    (rereadPlace value).bind Token.keyword? = Option.none ∧
      ((rereadPlace value).bind Token.positional? = some value ↔ PlaceReadsBack value) := by
  simp only [rereadPlace, positionalText, PlaceReadsBack]
  -- In quotation marks every value survives; without them blanks are trimmed, and a value of blanks
  -- only is none.
  split
  · rename_i hquoted
    have hread := Token.ofText?_quoted (show isQuote '"' = true by decide) value.toList
    simp [hread, ← or_assoc, hquoted, Token.keyword?, Token.positional?]
  · rename_i hplain
    obtain ⟨hequals, hhead⟩ := not_or.mp hplain
    have hunquote := unquote_eq_self (Bool.eq_false_iff.mpr hhead)
    rw [Token.ofText?_of_not_mem hequals]
    split
    · rename_i hblank
      have hne : ¬(value ≠ "" ∧ trim value.toList = value.toList) := by
        rintro ⟨hne, hself⟩
        exact hne (String.toList_eq_nil_iff.mp (hself.symm.trans hblank))
      simp [hequals, hhead, hne]
    · rename_i hblank
      have hself := ofList_unquote_trim_eq_iff value
      rw [and_iff_left hunquote] at hself
      have hne (htrim : trim value.toList = value.toList) : value ≠ "" := by
        rintro rfl
        exact hblank htrim
      simp only [Option.bind_some, Token.keyword?, Token.positional?, Option.some.injEq, hequals,
        hhead, false_or, hself, true_and, Bool.false_eq_true]
      exact ⟨fun htrim ↦ ⟨hne htrim, htrim⟩, And.right⟩

theorem toList_keywordText (entry : String × String) :
    (keywordText entry).toList = entry.1.toList ++ '=' :: entry.2.toList := by
  simp [keywordText, show "=".toList = ['='] from rfl]

theorem rereadKey_eq_self_iff {entry : String × String} :
    rereadKey entry = entry ↔ KeyReadsBack entry.2 := by
  rw [KeyReadsBack, ← ofList_unquote_trim_eq_iff, rereadKey, Prod.ext_iff]
  simp only [true_and]

/-- What is read from the text of an argument with a key, if the key is one. -/
theorem ofText?_keywordText {entry : String × String} (h : Token.IsKey entry.1.toList) :
    Token.ofText? (keywordText entry).toList
      = some (.keyword (rereadKey entry).1 (rereadKey entry).2) := by
  rw [toList_keywordText, Token.ofText?_of_isKey h, String.ofList_toList, rereadKey]

theorem not_mem_positionalText (h : ',' ∉ value.toList) : ',' ∉ (positionalText value).toList := by
  simp only [positionalText]
  split
  · simp [h, show "\x22".toList = ['"'] from rfl]
  · exact h

theorem not_mem_keywordText {entry : String × String} (hkey : ',' ∉ entry.1.toList)
    (hvalue : ',' ∉ entry.2.toList) : ',' ∉ (keywordText entry).toList := by
  simp [toList_keywordText, hkey, hvalue]

theorem all_toParameters (h : args.Bound) :
    Token.all args.toParameters = args.positional.filterMap rereadPlace ++
      (args.keyword.entries.map rereadKey).map fun entry ↦ .keyword entry.1 entry.2 := by
  have hplace : ∀ value ∈ args.positional, Token.all (positionalText value)
      = (rereadPlace value).toList :=
    fun value hvalue ↦ Token.ofPieces_of_not_mem (not_mem_positionalText (h.place value hvalue))
  have hkey : ∀ entry ∈ args.keyword.entries, Token.all (keywordText entry)
      = [.keyword (rereadKey entry).1 (rereadKey entry).2] := by
    intro entry hentry
    obtain ⟨hisKey, hkey, hvalue⟩ := h.key entry hentry
    rw [Token.all_eq_ofPieces, Token.ofPieces_of_not_mem (not_mem_keywordText hkey hvalue),
      ofText?_keywordText hisKey, Option.toList_some]
  rw [toParameters, Token.all_intercalate, List.flatMap_append, List.flatMap_map, List.flatMap_map,
    List.flatMap_congr hplace, List.flatMap_congr hkey, List.filterMap_eq_flatMap_toList,
    List.map_map, List.map_eq_flatMap]
  rfl

theorem ofParameters_toParameters (h : args.Bound) :
    ofParameters args.toParameters =
      ⟨args.positional.filterMap fun value ↦ (rereadPlace value).bind Token.positional?,
        .ofList (args.keyword.entries.map rereadKey)⟩ := by
  have hnone : (args.positional.filterMap fun value ↦ (rereadPlace value).bind Token.keyword?) = [] :=
    List.filterMap_eq_nil_iff.mpr fun value _ ↦ (rereadPlace_bind value).1
  rw [ofParameters, ofTokens, all_toParameters h]
  simp only [List.filterMap_append, List.filterMap_filterMap, List.filterMap_map, hnone,
    List.nil_append]
  simp [Function.comp_def, Token.positional?, Token.keyword?]

theorem ofParameters_toParameters_eq_iff (h : args.Bound) :
    ofParameters args.toParameters = args ↔
      (∀ value ∈ args.positional, PlaceReadsBack value) ∧
        ∀ entry ∈ args.keyword.entries, KeyReadsBack entry.2 := by
  have hplace : (args.positional.filterMap fun value ↦ (rereadPlace value).bind Token.positional?)
      = args.positional ↔ ∀ value ∈ args.positional, PlaceReadsBack value := by
    have hself := List.filterMap_eq_map_iff_forall_eq_some (l := args.positional) (g := id)
      (f := fun value ↦ (rereadPlace value).bind Token.positional?)
    rw [List.map_id] at hself
    rw [hself]
    exact forall₂_congr fun value _ ↦ (rereadPlace_bind value).2
  have hkey : Keywords.ofList (args.keyword.entries.map rereadKey) = args.keyword ↔
      ∀ entry ∈ args.keyword.entries, KeyReadsBack entry.2 := by
    have hsorted : (args.keyword.entries.map rereadKey).Pairwise fun a b ↦ a.1 < b.1 :=
      List.pairwise_map.mpr args.keyword.sorted
    have hself := List.map_inj_left (l := args.keyword.entries) (f := rereadKey) (g := id)
    rw [List.map_id] at hself
    rw [Keywords.eq_iff, Keywords.entries_ofList hsorted, hself]
    exact forall₂_congr fun entry _ ↦ rereadKey_eq_self_iff
  -- Positional arguments and those with a key are read back apart from each other.
  rw [ofParameters_toParameters h, ← hplace, ← hkey]
  constructor
  · intro heq
    exact ⟨congrArg positional heq, congrArg keyword heq⟩
  · rintro ⟨hpositional, hkeyword⟩
    rw [hpositional, hkeyword]

/-- **When arguments are read back.** The parameter text of arguments that were read from a text
gives those arguments exactly when each of their values is read back. -/
theorem reread_eq_self_iff (raw : String) :
    ofParameters (ofParameters raw).toParameters = ofParameters raw ↔
      (∀ value ∈ (ofParameters raw).positional, PlaceReadsBack value) ∧
        ∀ entry ∈ (ofParameters raw).keyword.entries, KeyReadsBack entry.2 :=
  ofParameters_toParameters_eq_iff (bound_ofParameters raw)

/-- Blanks in quotes are read as part of a value, which is then written without the quotes. -/
theorem reread_ne_self_of_quoted_blanks :
    ofParameters (ofParameters "' a '").toParameters ≠ ofParameters "' a '" := by
  decide +kernel

/-- **Which arguments are read back at all.** Whatever the arguments, their parameter text gives
them exactly when no comma is in them, every positional value is written in quotation marks or is
there without blanks around it, every key is one, and no value of a key has blanks or quotes around
it. -/
theorem ofParameters_toParameters_eq_self_iff (args : Arguments) :
    ofParameters args.toParameters = args ↔
      (∀ value ∈ args.positional, ',' ∉ value.toList ∧
        ('=' ∈ value.toList ∨ value.toList.head?.any isQuote = true ∨
          value ≠ "" ∧ trim value.toList = value.toList)) ∧
      ∀ entry ∈ args.keyword.entries,
        (',' ∉ entry.1.toList ∧ ',' ∉ entry.2.toList) ∧
        (entry.1 ≠ "" ∧ '=' ∉ entry.1.toList ∧ ' ' ∉ entry.1.toList ∧
          ∀ first, entry.1.toList.head? = some first →
            isBlank first = false ∧ isQuote first = false) ∧
        trim entry.2.toList = entry.2.toList ∧ ¬InQuotes entry.2.toList := by
  have hkey (entry : String × String) : Token.IsKey entry.1.toList ↔ entry.1 ≠ "" ∧
      '=' ∉ entry.1.toList ∧ ' ' ∉ entry.1.toList ∧ ∀ first, entry.1.toList.head? = some first →
        isBlank first = false ∧ isQuote first = false := by
    rw [Token.isKey_iff, ne_eq, String.toList_eq_nil_iff]
  simp only [← hkey, ← unquote_eq_self_iff]
  constructor
  · intro h
    -- Arguments that are read back were read from a text.
    have hbound : args.Bound := h ▸ bound_ofParameters args.toParameters
    obtain ⟨hplace, hkeys⟩ := (ofParameters_toParameters_eq_iff hbound).mp h
    refine ⟨fun value hvalue ↦ ⟨hbound.place value hvalue, hplace value hvalue⟩,
      fun entry hentry ↦ ?_⟩
    obtain ⟨hisKey, hcommas⟩ := hbound.key entry hentry
    exact ⟨hcommas, hisKey, hkeys entry hentry⟩
  · rintro ⟨hplace, hkeys⟩
    have hbound : args.Bound :=
      ⟨fun value hvalue ↦ (hplace value hvalue).1,
        fun entry hentry ↦ ⟨(hkeys entry hentry).2.1, (hkeys entry hentry).1⟩⟩
    exact (ofParameters_toParameters_eq_iff hbound).mpr
      ⟨fun value hvalue ↦ (hplace value hvalue).2, fun entry hentry ↦ (hkeys entry hentry).2.2⟩

end Arguments

end ReportPress
