import ReportPress.Text.Unprintable

/-!
# Quoted texts

How messages show a text that came from outside: between quotation marks, with the marks and the
backslash escaped, the common controls by a letter, and every other unprintable character by its
number. Apostrophes and all printable characters stand for themselves.
-/

namespace ReportPress.Text

def escapeChar (c : Char) : List Char :=
  if c = '\x22' then ['\x5c', '\x22']
  else if c = '\x5c' then ['\x5c', '\x5c']
  else if c = '\t' then ['\x5c', 't']
  else if c = '\r' then ['\x5c', 'r']
  else if c = '\n' then ['\x5c', 'n']
  else if c = '\x00' then ['\x5c', '0']
  else if isUnprintable c then
    ['\x5c', 'u', '\x7b'] ++ Nat.toDigits 16 c.toNat ++ ['\x7d']
  else [c]

/-- A text between quotation marks. -/
def quote (s : String) : String :=
  String.ofList ('\x22' :: s.toList.flatMap escapeChar ++ ['\x22'])

end ReportPress.Text
