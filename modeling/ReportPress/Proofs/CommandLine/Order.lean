import Mathlib
import ReportPress.CommandLine.Options

/-!
# The order of words on a command line

The words of a command line that is accepted fall into items in one way only: flags that stand
alone, titles and configurations with their flags, and files. Items of different kinds do not get in
each other's way (`carryOut_comm`), and neither do flags that stand alone. So a command line asks
for the same in whatever order its items stand, as long as files, titles and configurations keep
their order among their own kind: of two titles the last one counts, and what a file is for depends
on how many files there are before it.
-/

namespace ReportPress.CommandLine

/-! ## Items -/

def switches : List String :=
  ["--landscape", "-l", "--legacy-size", "--dump-commands", "--dump-draw", "--verbose", "-v", "--debug"]

def titleFlags : List String := ["--title", "-t"]

def configFlags : List String := ["--config", "-c"]

inductive Kind where
  /-- Files. -/
  | file
  | title
  | config
  deriving DecidableEq

/-- A part of a command line that stands for itself. -/
inductive Item where
  | switch (word : String)
  | title (flag value : String)
  | config (flag value : String)
  /-- A file, or a lone dash in its place. -/
  | file (word : String)
  deriving DecidableEq

namespace Item

def words : Item → List String
  | switch word => [word]
  | title flag value => [flag, value]
  | config flag value => [flag, value]
  | file word => [word]

/-- Whether the words of an item are right for it. -/
def Fits : Item → Prop
  | switch word => word ∈ switches
  | title flag _ => flag ∈ titleFlags
  | config flag _ => flag ∈ configFlags
  | file word => word = "-" ∨ word.toList.head? ≠ some '-'

/-- The kind of an item, if its order matters. -/
def kind? : Item → Option Kind
  | switch _ => none
  | title _ _ => some .title
  | config _ _ => some .config
  | file _ => some .file

end Item

/-- Whether words fall into these items. -/
structure Groups (words : List String) (items : List Item) : Prop where
  /-- The words are those of the items. -/
  words_eq : words = items.flatMap Item.words
  fits : ∀ item ∈ items, item.Fits

/-- Whether items are the same in another order, in which files, titles and configurations keep
theirs. -/
structure Rearranges (items items' : List Item) : Prop where
  perm : items'.Perm items
  /-- Those of a kind keep their order. -/
  order : ∀ kind, items'.filter (·.kind? = some kind) = items.filter (·.kind? = some kind)

/-! ## What an item asks for -/

/-- The options with a flag that stands alone. -/
def Options.withSwitch (options : Options) (word : String) : Options :=
  { options with
    landscape := options.landscape || word ∈ ["--landscape", "-l"]
    legacySize := options.legacySize || word = "--legacy-size"
    dumpCommands := options.dumpCommands || word = "--dump-commands"
    dumpDraw := options.dumpDraw || word = "--dump-draw"
    level :=
      if word ∈ ["--verbose", "-v"] then options.level.max .info
      else if word = "--debug" then .debug
      else options.level }

/-- The options with an item, or why it is refused. -/
def Item.carryOut (options : Options) : Item → Except Refusal Options
  | switch word => .ok (options.withSwitch word)
  | title _ value => .ok { options with title := some value }
  | config _ value => .ok { options with config := some ⟨value⟩ }
  | file word =>
    if word = "-" ∧ options.files ≠ 0 then .error (.unknownFlag word) else options.addFile word

section Reading

variable {options options' : Options} {word flag value : String} {words rest : List String}
  {item : Item}

theorem readOnto_switch (h : word ∈ switches) :
    options.readOnto (word :: rest) = (options.withSwitch word).readOnto rest := by
  rw [Options.readOnto.eq_def]
  simp only [switches, List.mem_cons, List.not_mem_nil, or_false] at h
  rcases h with rfl | rfl | rfl | rfl | rfl | rfl | rfl | rfl <;> simp [Options.withSwitch]

theorem readOnto_title (h : flag ∈ titleFlags) :
    options.readOnto (flag :: value :: rest)
      = Options.readOnto { options with title := some value } rest := by
  simp only [titleFlags, List.mem_cons, List.not_mem_nil, or_false] at h
  rcases h with rfl | rfl <;> simp [Options.readOnto]

theorem readOnto_config (h : flag ∈ configFlags) :
    options.readOnto (flag :: value :: rest)
      = Options.readOnto { options with config := some ⟨value⟩ } rest := by
  simp only [configFlags, List.mem_cons, List.not_mem_nil, or_false] at h
  rcases h with rfl | rfl <;> simp [Options.readOnto]

/-- A word that is no flag with a meaning asks for help, is refused, or is taken for a file. -/
theorem readOnto_other (h : word ∉ switches ++ titleFlags ++ configFlags) :
    options.readOnto (word :: rest) =
      if word = "--help" ∨ word = "-h" then .error .help
      else if word.toList.head? = some '-' ∧ ¬(word = "-" ∧ options.files = 0) then
        .error (.unknownFlag word)
      else (options.addFile word).bind fun options ↦ options.readOnto rest := by
  simp only [switches, titleFlags, configFlags, List.cons_append, List.nil_append, List.mem_cons,
    List.not_mem_nil, or_false, not_or] at h
  rw [Options.readOnto.eq_def]
  simp only [h, or_self, if_false]
  cases options.addFile word <;> rfl

theorem not_mem_flags (h : word = "-" ∨ word.toList.head? ≠ some '-') :
    word ∉ switches ++ titleFlags ++ configFlags ∧ ¬(word = "--help" ∨ word = "-h") := by
  have hflags : ∀ flag ∈ switches ++ titleFlags ++ configFlags ++ ["--help", "-h"],
      flag ≠ "-" ∧ flag.toList.head? = some '-' := by
    decide
  have hword : word ∉ switches ++ titleFlags ++ configFlags ++ ["--help", "-h"] := by
    intro hmem
    obtain ⟨hne, hhead⟩ := hflags word hmem
    exact h.elim hne (absurd hhead)
  rw [List.mem_append, not_or] at hword
  exact ⟨hword.1, by simpa using hword.2⟩

theorem readOnto_file (h : word = "-" ∨ word.toList.head? ≠ some '-') :
    options.readOnto (word :: rest)
      = ((Item.file word).carryOut options).bind fun options ↦ options.readOnto rest := by
  have hdash : (word.toList.head? = some '-' ∧ ¬(word = "-" ∧ options.files = 0)) ↔
      word = "-" ∧ options.files ≠ 0 := by
    rcases h with rfl | h
    · simp
    · have hne : word ≠ "-" := by
        rintro rfl
        exact h rfl
      simp [h, hne]
  obtain ⟨hflags, hhelp⟩ := not_mem_flags h
  rw [readOnto_other hflags, if_neg hhelp, Item.carryOut]
  by_cases hrefused : word = "-" ∧ options.files ≠ 0
  · rw [if_pos (hdash.mpr hrefused), if_pos hrefused]
    rfl
  · rw [if_neg (mt hdash.mp hrefused), if_neg hrefused]

/-- **Reading an item.** Its words are read as it is carried out, whatever follows. -/
theorem readOnto_words (h : item.Fits) :
    options.readOnto (item.words ++ rest)
      = (item.carryOut options).bind fun options ↦ options.readOnto rest := by
  cases item with
  | switch word => exact readOnto_switch h
  | title flag value => exact readOnto_title h
  | config flag value => exact readOnto_config h
  | file word => exact readOnto_file h

/-- Words that are accepted begin with those of an item. -/
theorem exists_item (h : options.readOnto (word :: rest) = .ok options') :
    ∃ item others, Item.Fits item ∧ word :: rest = item.words ++ others := by
  by_cases hswitch : word ∈ switches
  · exact ⟨.switch word, rest, hswitch, rfl⟩
  by_cases htitle : word ∈ titleFlags
  · cases rest with
    | nil =>
      simp only [titleFlags, List.mem_cons, List.not_mem_nil, or_false] at htitle
      rcases htitle with rfl | rfl <;> simp [Options.readOnto] at h
    | cons value others => exact ⟨.title word value, others, htitle, rfl⟩
  by_cases hconfig : word ∈ configFlags
  · cases rest with
    | nil =>
      simp only [configFlags, List.mem_cons, List.not_mem_nil, or_false] at hconfig
      rcases hconfig with rfl | rfl <;> simp [Options.readOnto] at h
    | cons value others => exact ⟨.config word value, others, hconfig, rfl⟩
  rw [readOnto_other (by simp [hswitch, htitle, hconfig])] at h
  split_ifs at h with hhelp hdash
  refine ⟨.file word, rest, ?_, rfl⟩
  rw [Item.Fits]
  tauto

end Reading

/-! ## Words fall into items in one way -/

namespace Item

variable {item item' : Item} {items items' : List Item} {words rest rest' : List String}

/-- The item that words begin with, and the words behind it. -/
def next? : List String → Option (Item × List String)
  | [] => none
  | word :: rest =>
    if word ∈ switches then some (switch word, rest)
    else if word ∈ titleFlags then rest.head?.map fun value ↦ (title word value, rest.tail)
    else if word ∈ configFlags then rest.head?.map fun value ↦ (config word value, rest.tail)
    else some (file word, rest)

theorem next?_words (h : item.Fits) (rest : List String) :
    next? (item.words ++ rest) = some (item, rest) := by
  have htitles : ∀ flag ∈ titleFlags, flag ∉ switches := by decide
  have hconfigs : ∀ flag ∈ configFlags, flag ∉ switches ∧ flag ∉ titleFlags := by decide
  cases item with
  | switch word => exact if_pos h
  | title flag value => exact (if_neg (htitles flag h)).trans (if_pos h)
  | config flag value =>
    obtain ⟨hswitch, htitle⟩ := hconfigs flag h
    exact (if_neg hswitch).trans ((if_neg htitle).trans (if_pos h))
  | file word =>
    have hflags := (not_mem_flags h).1
    simp only [List.mem_append, not_or] at hflags
    simp [words, next?, hflags]

theorem words_append_inj (h : item.Fits) (h' : item'.Fits)
    (heq : item.words ++ rest = item'.words ++ rest') : item = item' ∧ rest = rest' := by
  have hnext := next?_words h rest
  rw [heq, next?_words h' rest', Option.some.injEq, Prod.mk.injEq] at hnext
  exact ⟨hnext.1.symm, hnext.2.symm⟩

theorem words_ne_nil (item : Item) : item.words ≠ [] := by
  cases item <;> exact List.cons_ne_nil _ _

end Item

section Grouping

variable {options options' : Options} {items items' : List Item} {words : List String}

theorem Groups.unique (h : Groups words items) (h' : Groups words items') : items' = items := by
  induction items generalizing words items' with
  | nil =>
    cases items' with
    | nil => rfl
    | cons item' items' =>
      have hnil := h.words_eq.symm.trans h'.words_eq
      simp [Item.words_ne_nil] at hnil
  | cons item items ih =>
    cases items' with
    | nil =>
      have hnil := h'.words_eq.symm.trans h.words_eq
      simp [Item.words_ne_nil] at hnil
    | cons item' items' =>
      obtain ⟨hitem, hitems⟩ := List.forall_mem_cons.mp h.fits
      obtain ⟨hitem', hitems'⟩ := List.forall_mem_cons.mp h'.fits
      have heq := h'.words_eq.symm.trans h.words_eq
      rw [List.flatMap_cons, List.flatMap_cons] at heq
      obtain ⟨rfl, hrest⟩ := Item.words_append_inj hitem' hitem heq
      rw [ih ⟨rfl, hitems⟩ ⟨hrest.symm, hitems'⟩]

theorem readOnto_flatMap (h : ∀ item ∈ items, item.Fits) (options : Options) :
    options.readOnto (items.flatMap Item.words) = items.foldlM Item.carryOut options := by
  induction items generalizing options with
  | nil => simp [Options.readOnto, pure, Except.pure]
  | cons item items ih =>
    obtain ⟨hitem, hitems⟩ := List.forall_mem_cons.mp h
    rw [List.flatMap_cons, readOnto_words hitem, List.foldlM_cons]
    simp only [ih hitems]
    rfl

theorem exists_groups (h : options.readOnto words = .ok options') : ∃ items, Groups words items := by
  -- By induction on the number of words, of which an item may take two.
  induction hn : words.length using Nat.strong_induction_on generalizing options words with
  | h n ih =>
    cases words with
    | nil => exact ⟨[], rfl, by simp⟩
    | cons word rest =>
      obtain ⟨item, others, hitem, heq⟩ := exists_item h
      rw [heq, readOnto_words hitem] at h
      have hlt : others.length < n := by
        rw [← hn, heq, List.length_append]
        have := List.length_pos_iff.mpr item.words_ne_nil
        omega
      cases hcarried : item.carryOut options with
      | error e =>
        rw [hcarried] at h
        cases h
      | ok next =>
        rw [hcarried] at h
        obtain ⟨items, rfl, hfits⟩ := ih _ hlt h rfl
        exact ⟨item :: items, heq, List.forall_mem_cons.mpr ⟨hitem, hfits⟩⟩

end Grouping

/-! ## Items that trade places -/

theorem Options.withSwitch_comm (options : Options) (word word' : String) :
    (options.withSwitch word).withSwitch word' = (options.withSwitch word').withSwitch word := by
  -- Of all they change, only the level is changed in more than one way.
  have hlevel : (options.level.max .info).max .info = options.level.max .info
      ∧ Level.debug.max .info = .debug := by
    cases options.level <;> decide
  simp only [withSwitch, Options.mk.injEq, true_and, and_true]
  refine ⟨Bool.or_right_comm _ _ _, Bool.or_right_comm _ _ _, Bool.or_right_comm _ _ _,
    Bool.or_right_comm _ _ _, ?_⟩
  split_ifs <;> simp [hlevel]

namespace Item

variable {item item' : Item} {front back items items' : List Item}

theorem carryOut_file_comm (options : Options) (word : String) (h : item.kind? ≠ some .file) :
    (item.carryOut options >>= (file word).carryOut)
      = ((file word).carryOut options >>= item.carryOut) := by
  -- What a file is for depends on how many there are before it, which no other item changes.
  by_cases hdash : word = "-" <;> rcases hfiles : options.files with _ | _ | n <;>
    cases item <;> first
      | exact absurd rfl h
      | simp [carryOut, Options.addFile, Options.withSwitch, bind, Except.bind, hfiles, hdash]

/-- **Trading places.** It does not matter which of two items comes first, unless both are files,
titles or configurations. -/
theorem carryOut_comm (options : Options) (h : item.kind? = none ∨ item.kind? ≠ item'.kind?) :
    (item.carryOut options >>= item'.carryOut) = (item'.carryOut options >>= item.carryOut) := by
  cases item with
  | file word => exact (carryOut_file_comm options word (h.elim nofun Ne.symm)).symm
  | switch word =>
    cases item' with
    | switch word' => exact congrArg Except.ok (options.withSwitch_comm word word')
    | title | config => rfl
    | file word' => exact carryOut_file_comm options word' nofun
  | title flag value =>
    cases item' with
    | switch | config => rfl
    | title => exact absurd rfl (h.resolve_left nofun)
    | file word' => exact carryOut_file_comm options word' (by simp [kind?])
  | config flag value =>
    cases item' with
    | switch | title => rfl
    | config => exact absurd rfl (h.resolve_left nofun)
    | file word' => exact carryOut_file_comm options word' (by simp [kind?])

/-- An item may come first if it may trade places with each before it. -/
theorem foldlM_middle (h : ∀ other ∈ front, item.kind? = none ∨ item.kind? ≠ other.kind?)
    (options : Options) :
    (front ++ item :: back).foldlM carryOut options = (item :: (front ++ back)).foldlM carryOut options := by
  induction front generalizing options with
  | nil => rfl
  | cons other front ih =>
    obtain ⟨hother, hfront⟩ := List.forall_mem_cons.mp h
    calc (other :: (front ++ item :: back)).foldlM carryOut options
        = (other.carryOut options >>= fun options ↦ (front ++ item :: back).foldlM carryOut options) := rfl
      _ = (other.carryOut options >>= item.carryOut) >>= fun options ↦
            (front ++ back).foldlM carryOut options := by
        simp only [ih hfront, List.foldlM_cons, bind_assoc]
      _ = (item :: (other :: front ++ back)).foldlM carryOut options := by
        rw [← carryOut_comm options hother]
        simp only [List.foldlM_cons, List.cons_append, bind_assoc]

end Item

namespace Rearranges

variable {item : Item} {items items' : List Item}

/-- The first item after a change of order was free to come first before it. -/
theorem exists_split (h : Rearranges items (item :: items')) : ∃ front back,
    items = front ++ item :: back ∧ Rearranges (front ++ back) items'
      ∧ ∀ other ∈ front, item.kind? = none ∨ item.kind? ≠ other.kind? := by
  obtain ⟨front, back, rfl, hfree⟩ : ∃ front back, items = front ++ item :: back
      ∧ ∀ other ∈ front, item.kind? = none ∨ item.kind? ≠ other.kind? := by
    -- An item without a kind may stand anywhere; one with a kind is the first of its kind on both
    -- sides.
    cases hkind : item.kind? with
    | none =>
      obtain ⟨front, back, rfl⟩ := List.append_of_mem (h.perm.subset List.mem_cons_self)
      exact ⟨front, back, rfl, fun _ _ ↦ .inl rfl⟩
    | some kind =>
      have horder := (h.order kind).symm
      rw [List.filter_cons_of_pos (by simp [hkind]), List.filter_eq_cons_iff] at horder
      obtain ⟨front, back, rfl, hfront, -, -⟩ := horder
      refine ⟨front, back, rfl, fun other hother ↦ .inr ?_⟩
      simpa using Ne.symm (by simpa using hfront other hother)
  refine ⟨front, back, rfl, ⟨?_, fun kind ↦ ?_⟩, hfree⟩
  · exact (h.perm.trans List.perm_middle).cons_inv
  · have horder := h.order kind
    rw [List.filter_append, List.filter_cons, List.filter_cons] at horder
    rw [List.filter_append]
    split_ifs at horder with hkind
    · have hfront : front.filter (·.kind? = some kind) = [] := by
        refine List.filter_eq_nil_iff.mpr fun other hother ↦ ?_
        have hne := hfree other hother
        simp only [of_decide_eq_true hkind] at hne
        simpa [eq_comm] using hne
      rw [hfront] at horder ⊢
      exact (List.cons.inj horder).2
    · exact horder

/-- **Changing the order.** Items are carried out alike in an order in which files, titles and
configurations keep theirs. -/
theorem foldlM_eq (h : Rearranges items items') (options : Options) :
    items'.foldlM Item.carryOut options = items.foldlM Item.carryOut options := by
  induction items' generalizing items options with
  | nil => rw [List.nil_perm.mp h.perm]
  | cons item items' ih =>
    obtain ⟨front, back, rfl, hrest, hfree⟩ := h.exists_split
    rw [Item.foldlM_middle hfree, List.foldlM_cons, List.foldlM_cons]
    simp only [ih hrest]

end Rearranges

/-! ## Other orders of the words -/

/-- **What the words ask for does not depend on their order.** Words that are accepted fall into
items in one way, and in every order of these in which files, titles and configurations keep theirs
they are accepted and ask for the same. -/
theorem read_rearranged {words : List String} {options : Options} (h : Options.read words = .ok options) :
    (∃! items, Groups words items) ∧
      ∀ items items', Groups words items → Rearranges items items' →
        Options.read (items'.flatMap Item.words) = .ok options := by
  obtain ⟨items, hgroups⟩ := exists_groups h
  refine ⟨⟨items, hgroups, fun items' ↦ hgroups.unique⟩, fun items items' hgroups hrearranges ↦ ?_⟩
  have hfits : ∀ item ∈ items', item.Fits := fun item hitem ↦
    hgroups.fits item (hrearranges.perm.subset hitem)
  calc Options.read (items'.flatMap Item.words)
      = items'.foldlM Item.carryOut {} := readOnto_flatMap hfits {}
    _ = items.foldlM Item.carryOut {} := hrearranges.foldlM_eq {}
    _ = Options.read (items.flatMap Item.words) := (readOnto_flatMap hgroups.fits {}).symm
    _ = .ok options := by rw [← hgroups.words_eq, h]

/-- Standard input, a file, two titles and two flags of the level in another order. The later title
counts, and the log is at the debug level although the other flag now stands behind. -/
theorem read_rearranged_titles :
    Options.read ["--debug", "--title", "A", "-", "-t", "B", "-v", "out.pdf"]
      = .ok { output := some ⟨"out.pdf"⟩, title := some "B", level := .debug, files := 2 } := by
  have hread : Options.read ["-", "--title", "A", "out.pdf", "-v", "-t", "B", "--debug"]
      = .ok { output := some ⟨"out.pdf"⟩, title := some "B", level := .debug, files := 2 } := by
    simp [Options.read, Options.readOnto, Options.addFile]
  have hgroups : Groups ["-", "--title", "A", "out.pdf", "-v", "-t", "B", "--debug"]
      [.file "-", .title "--title" "A", .file "out.pdf", .switch "-v", .title "-t" "B",
        .switch "--debug"] :=
    ⟨rfl, by simp [Item.Fits, switches, titleFlags]⟩
  have hrearranges : Rearranges
      [.file "-", .title "--title" "A", .file "out.pdf", .switch "-v", .title "-t" "B",
        .switch "--debug"]
      [.switch "--debug", .title "--title" "A", .file "-", .title "-t" "B", .switch "-v",
        .file "out.pdf"] :=
    ⟨by decide, fun kind ↦ by cases kind <;> decide⟩
  simpa only [List.flatMap_cons, List.flatMap_nil, Item.words, List.cons_append, List.nil_append] using
    (read_rearranged hread).2 _ _ hgroups hrearranges

end ReportPress.CommandLine
