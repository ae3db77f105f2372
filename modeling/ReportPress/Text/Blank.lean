/-!
# Blanks and controls

The two character classes that reading texts depends on. A *blank* is a character with the Unicode
property `White_Space`; a *control* is one of general category `Cc`. Line ends and tabs are both.
Trimming removes blanks only, and only at the ends.
-/

namespace ReportPress.Text

/-- The ranges of the Unicode property `White_Space`. -/
def blankRanges : List (Nat × Nat) :=
  [(0x09, 0x0D), (0x20, 0x20), (0x85, 0x85), (0xA0, 0xA0), (0x1680, 0x1680), (0x2000, 0x200A),
   (0x2028, 0x2029), (0x202F, 0x202F), (0x205F, 0x205F), (0x3000, 0x3000)]

/-- Whether a character separates words. -/
def isBlank (c : Char) : Bool := blankRanges.any fun (first, last) ↦ first ≤ c.toNat && c.toNat ≤ last

/-- Whether a character is a control: below the space, or among the delete character and the
thirty-two that follow it. -/
def isControl (c : Char) : Bool := c.toNat < 0x20 || (0x7F ≤ c.toNat && c.toNat ≤ 0x9F)

def trimStart (cs : List Char) : List Char := cs.dropWhile isBlank

def trimEnd (cs : List Char) : List Char := (cs.reverse.dropWhile isBlank).reverse

def trim (cs : List Char) : List Char := trimEnd (trimStart cs)

end ReportPress.Text
