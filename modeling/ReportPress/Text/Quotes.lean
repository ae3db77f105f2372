/-!
# Surrounding quotes

Names and values may be written in quotes. One pair is removed, and only when the same mark stands
at both ends; a lone mark and a mismatched pair are part of the text.
-/

namespace ReportPress.Text

def isQuote (c : Char) : Bool := c = '\x22' || c = '\x27'

/-- A text without one pair of matching quotes around it. -/
def unquote : List Char → List Char
  | [] => []
  | first :: rest =>
    if isQuote first && rest.getLast? = some first then rest.dropLast else first :: rest

def unquoted (s : String) : String := String.ofList (unquote s.toList)

end ReportPress.Text
