/-!
# The encoding of built-in faces

Text in a built-in face is shown one byte per character. ASCII and the upper half of Latin-1 keep
their numbers, the common typographic marks have theirs from the block between, and a no-break space
is shown as a space. Everything else becomes a question mark.
-/

namespace ReportPress.Text.WinAnsi

/-- The typographic marks that have a byte between `0x80` and `0x9F`, each with its byte. -/
def marks : List (Char × UInt8) :=
  [('€', 0x80), ('…', 0x85), ('‘', 0x91), ('’', 0x92), ('“', 0x93), ('”', 0x94), ('•', 0x95),
   ('–', 0x96), ('—', 0x97)]

def encodeChar (c : Char) : UInt8 :=
  match marks.lookup c with
  | some byte => byte
  | none =>
    if c.toNat = 0xA0 then 0x20
    else if c.toNat < 0x80 ∨ (0xA0 ≤ c.toNat ∧ c.toNat ≤ 0xFF) then UInt8.ofNat c.toNat
    else 0x3F

def encode (s : String) : List UInt8 := s.toList.map encodeChar

end ReportPress.Text.WinAnsi
