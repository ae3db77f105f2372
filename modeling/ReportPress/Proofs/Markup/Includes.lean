import Mathlib
import ReportPress.Proofs.Markup.Pieces

/-!
# Includes are substituted

To include a file is to put what the file compiles to in the place of the tag, and nothing besides.
The compiler that leaves include tags alone, as commands, is the one to compare with
(`Markup.compileReference`): its commands become those of the compiler that expands them when every
include command is replaced by the commands of its file, compiled with one level of includes less.

Whether an include succeeds depends on the depth that is left, and neither on the line of the tag
nor on the depth that was allowed at first (`result_expandInclude_eq_ok`); those are for messages
only.
-/

namespace ReportPress

open Text Markup

variable {resources : Resources} {limit left : ℕ} {commands : List Command}

/-- Whether an include with these arguments stands for these commands, with some depth left. -/
def Includes (resources : Resources) (left : ℕ) (args : Arguments) (part : List Command) : Prop :=
  ∃ file others deeper path bytes, args.positional = file :: others ∧ left = deeper + 1 ∧
    (resources.locate file).result = .ok path ∧ resources.files.read path = .ok bytes ∧
    (compile resources deeper (Utf8.decodeInput bytes)).result = .ok part

/-- An include that succeeds does so by the depth that is left. -/
theorem result_expandInclude_eq_ok (line : ℕ) (tag : Tag) (part : List Command) :
    (expandInclude resources limit left line tag).result = .ok part ↔
      Includes resources left tag.args part := by
  -- By induction on the depth that is left. For the file, which has one level less, the hypothesis is
  -- used twice: at the limit of the whole, and at its own.
  induction left generalizing limit line tag part with
  | zero =>
    rw [expandInclude]
    cases hargs : tag.args.positional <;> simp [Includes, Traced.fail, hargs]
  | succ left ih =>
    have hcompile (bytes : ByteArray) :
        (compileLines (expandInclude resources limit left)
            (lines (Utf8.decodeInput bytes).toList)).result = .ok part ↔
          (compile resources left (Utf8.decodeInput bytes)).result = .ok part := by
      rw [compile, result_compileLines_eq_ok fun line tag part ↦ ih line tag part,
        result_compileLines_eq_ok fun line tag part ↦ ih line tag part]
    rw [expandInclude]
    cases hargs : tag.args.positional with
    | nil => simp [Includes, Traced.fail, hargs]
    | cons file others =>
      simp [Includes, Traced.result_bind_eq_ok, Traced.note, Traced.ofExcept, hargs, hcompile]

namespace Markup

theorem result_compile_eq_ok {source : String} :
    (compile resources limit source).result = .ok commands ↔
      Assembles (Piece.Compiles fun tag ↦ Includes resources limit tag.args)
        (Piece.ofLines (lines source.toList)) commands :=
  result_compileLines_eq_ok fun line tag part ↦ result_expandInclude_eq_ok line tag part

def leftAlone (tag : Tag) (part : List Command) : Prop := part = [.invoke tag.name tag.args]

/-- Compiles a text and leaves its include tags as commands. -/
def compileReference (source : String) : Traced CompileError (List Command) :=
  compileLines (fun _ tag ↦ pure [.invoke tag.name tag.args]) (lines source.toList)

theorem result_compileReference_eq_ok {source : String} :
    (compileReference source).result = .ok commands ↔
      Assembles (Piece.Compiles leftAlone) (Piece.ofLines (lines source.toList)) commands :=
  result_compileLines_eq_ok fun line tag part ↦ by simp [leftAlone, eq_comm]

/-- Whether a command of the reference is replaced by these commands: an include command by what its
file compiles to, any other command by itself. -/
def Substitutes (resources : Resources) (limit : ℕ) : Command → List Command → Prop
  | .invoke name args, part =>
    if name = Tag.includeName then Includes resources limit args part
    else part = [.invoke name args]
  | command, part => part = [command]

theorem exists_command_of_leftAlone (piece : Piece) (part : List Command)
    (h : piece.Compiles leftAlone part) : ∃ command, part = [command] := by
  cases h with
  | text content => exact ⟨_, rfl⟩
  | lineEnd => exact ⟨_, rfl⟩
  | invoke htag hname => exact ⟨_, rfl⟩
  | expand htag hname hpart => exact ⟨_, hpart⟩

/-- What a piece compiles to is substituted for its command. -/
theorem compiles_includes_iff (piece : Piece) (part : List Command) :
    piece.Compiles (fun tag ↦ Includes resources limit tag.args) part ↔
      ∃ command, piece.Compiles leftAlone [command] ∧ Substitutes resources limit command part := by
  constructor
  · intro h
    cases h with
    | text content => exact ⟨_, .text content, rfl⟩
    | lineEnd => exact ⟨_, .lineEnd, rfl⟩
    | invoke htag hname => exact ⟨_, .invoke htag hname, (if_neg hname).mpr rfl⟩
    | expand htag hname hpart => exact ⟨_, .expand htag hname rfl, (if_pos hname).mpr hpart⟩
  · rintro ⟨command, h, hpart⟩
    -- The list of one command has to be a variable for the cases below.
    generalize hsingle : [command] = single at h
    cases h with
    | text content =>
      obtain rfl := List.singleton_inj.mp hsingle
      obtain rfl : part = _ := hpart
      exact .text content
    | lineEnd =>
      obtain rfl := List.singleton_inj.mp hsingle
      obtain rfl : part = _ := hpart
      exact .lineEnd
    | invoke htag hname =>
      obtain rfl := List.singleton_inj.mp hsingle
      obtain rfl := (if_neg hname).mp hpart
      exact .invoke htag hname
    | expand htag hname hleft =>
      obtain rfl := List.singleton_inj.mp (hsingle.trans hleft)
      exact .expand htag hname ((if_pos hname).mp hpart)

/-- **To include is to substitute.** Markup compiles, with so many levels of includes allowed,
exactly when the reference does and every include command of the reference has a file to be replaced
by: a level is left, the file is found and can be read, and its text compiles with one level less.
The commands are then those of the reference, with every include command replaced by those of its
file. -/
theorem compile_eq_ok_iff_substitutes {source : String} :
    (compile resources limit source).result = .ok commands ↔
      ∃ reference parts, (compileReference source).result = .ok reference ∧
        List.Forall₂ (Substitutes resources limit) reference parts ∧ commands = parts.flatten := by
  rw [result_compile_eq_ok, Assembles.comp_iff exists_command_of_leftAlone compiles_includes_iff]
  constructor
  · rintro ⟨reference, hreference, parts, hparts, rfl⟩
    exact ⟨reference, parts, result_compileReference_eq_ok.mpr hreference, hparts, rfl⟩
  · rintro ⟨reference, parts, hreference, hparts, rfl⟩
    exact ⟨reference, result_compileReference_eq_ok.mp hreference, parts, hparts, rfl⟩

end Markup

end ReportPress
