import ReportPress.Text.Blank

/-!
# Lines and their segments

A text is cut after every line feed. A line is cleaned of controls other than tabs and of blanks at
its end, and then read from left to right as segments: text, tags, and an opening mark that is never
closed, which is always the last segment. A tag ends at the first closing brace, so braces and
opening marks inside a tag are part of it.
-/

namespace ReportPress.Markup

open Text

/-- The lines of a text that begins with `c` and goes on with the given lines. -/
def consLines (c : Char) : List (List Char) → List (List Char)
  | [] => [[c]]
  | first :: others => if c = '\n' then ['\n'] :: first :: others else (c :: first) :: others

/-- The lines of a text, each with the line feed that ends it; only the last may lack one, and none
is empty. -/
def lines (cs : List Char) : List (List Char) := cs.foldr consLines []

/-- Whether a character is dropped from a line: every control but the tab. -/
def isStripped (c : Char) : Bool := isControl c && c ≠ '\t'

/-- A line without stripped characters and without blanks at its end. -/
def clean (line : List Char) : List Char := trimEnd (line.filter fun c ↦ !isStripped c)

inductive Segment where
  /-- Text between tags, never empty. -/
  | text (content : List Char)
  /-- What stands between the braces of a tag, after the dollar sign. -/
  | tag (body : List Char)
  /-- An opening mark without a closing brace, at this column, counted from one. -/
  | unclosed (column : Nat)
  deriving DecidableEq, Repr

namespace Segment

/-- What stands before the first opening mark, and what follows the mark if there is one. -/
def breakOpen : List Char → List Char × Option (List Char)
  | [] => ([], none)
  | '\x7b' :: '$' :: rest => ([], some rest)
  | c :: rest =>
    let (before, after) := breakOpen rest
    (c :: before, after)

theorem length_breakOpen {cs before rest : List Char} (h : breakOpen cs = (before, some rest)) :
    rest.length < cs.length := by
  fun_induction breakOpen cs generalizing before with
  | case1 => simp at h
  | case2 r =>
    simp only [Prod.mk.injEq, Option.some.injEq] at h
    simp only [← h.2, List.length_cons]
    omega
  | case3 c r _ b a hba ih =>
    simp only [Prod.mk.injEq] at h
    have hlt : rest.length < r.length := ih (by rw [hba, h.2])
    simp only [List.length_cons]
    omega

def ofText : List Char → List Segment
  | [] => []
  | content => [.text content]

/-- The segments of a cleaned line whose first character stands at `column`. -/
def scan (column : Nat) (cs : List Char) : List Segment :=
  match _hopen : breakOpen cs with
  | (before, none) => ofText before
  | (before, some rest) =>
    let body := rest.takeWhile (· ≠ '\x7d')
    match _hclose : rest.dropWhile (· ≠ '\x7d') with
    | [] => ofText before ++ [.unclosed (column + before.length)]
    | _ :: after =>
      ofText before ++ .tag body :: scan (column + before.length + 2 + body.length + 1) after
termination_by cs.length
decreasing_by
  have hopen := length_breakOpen _hopen
  have hdrop := (List.dropWhile_sublist (p := (· ≠ '\x7d')) (l := rest)).length_le
  rw [_hclose] at hdrop
  simp only [List.length_cons] at hdrop
  omega

end Segment

end ReportPress.Markup
