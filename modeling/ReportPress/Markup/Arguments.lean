import ReportPress.Markup.Keywords
import ReportPress.Number.Numeral
import ReportPress.Text.Blank
import ReportPress.Text.Quoted
import ReportPress.Text.Quotes

/-!
# The arguments of a tag

The parameter text of a tag is split at every comma; nothing nests and nothing escapes a comma. A
token is a keyword argument when it has an equals sign, does not begin with one or with a quote, and
has no space before it. Everything else is positional, since free text may well contain an equals
sign. No number is read here: commands read their arguments when they are carried out.

`Arguments.toParameters` is the way back. A positional argument that a reader would take for a
keyword, or would take quotes off, is written between quotation marks.
-/

namespace ReportPress

open Number Text

/-! ## Tokens -/

/-- What a piece of parameter text between commas says. -/
inductive Token where
  | positional (value : String)
  | keyword (key value : String)
  deriving DecidableEq, Repr

namespace Token

/-- The key and the value of a keyword argument. -/
def splitKeyword? (token : List Char) : Option (List Char × List Char) :=
  match token with
  | [] => none
  | first :: _ =>
    let key := token.takeWhile (· ≠ '=')
    match token.dropWhile (· ≠ '=') with
    | [] => none
    | _ :: value => if first = '=' ∨ isQuote first ∨ ' ' ∈ key then none else some (key, value)

/-- The token in a piece of text; none when the piece is blank. Surrounding blanks and one pair of
quotes are not part of a value. -/
def ofText? (piece : List Char) : Option Token :=
  match trim piece with
  | [] => none
  | token =>
    match splitKeyword? token with
    | some (key, value) =>
      some (.keyword (String.ofList key) (String.ofList (unquote (trim value))))
    | none => some (.positional (String.ofList (unquote token)))

def all (raw : String) : List Token := (raw.toList.splitOn ',').filterMap ofText?

def positional? : Token → Option String
  | .positional value => some value
  | .keyword _ _ => none

def keyword? : Token → Option (String × String)
  | .positional _ => none
  | .keyword key value => some (key, value)

end Token

/-! ## Arguments -/

structure Arguments where
  positional : List String
  keyword : Keywords
  deriving DecidableEq, Inhabited

namespace Arguments

def none : Arguments := ⟨[], .empty⟩

def ofTokens (tokens : List Token) : Arguments :=
  ⟨tokens.filterMap Token.positional?, .ofList (tokens.filterMap Token.keyword?)⟩

def ofParameters (raw : String) : Arguments := ofTokens (Token.all raw)

def isEmpty (args : Arguments) : Bool := args.positional.isEmpty && args.keyword.entries.isEmpty

def positionalText (value : String) : String :=
  let cs := value.toList
  if '=' ∈ cs ∨ cs.head?.any isQuote then "\x22" ++ value ++ "\x22" else value

def keywordText (entry : String × String) : String := entry.1 ++ "=" ++ entry.2

/-- The parameter text of arguments: the positional ones, then the others by key. -/
def toParameters (args : Arguments) : String :=
  ", ".intercalate (args.positional.map positionalText ++ args.keyword.entries.map keywordText)

end Arguments

/-! ## Reading an argument -/

inductive Complaint where
  | numeral (e : NumeralError)
  | fontSize
  | lineWidth
  deriving DecidableEq, Repr

def Complaint.message : Complaint → String
  | .numeral e => e.message
  | .fontSize => "font size must be positive"
  | .lineWidth => "line width cannot be negative"

inductive ArgumentError where
  | missing (command name : String)
  | invalid (command value : String) (complaint : Complaint)
  deriving DecidableEq, Repr

def ArgumentError.message : ArgumentError → String
  | .missing command name => command ++ ": missing argument " ++ quote name
  | .invalid command value complaint =>
    command ++ ": invalid argument " ++ quote value ++ " (" ++ complaint.message ++ ")"

namespace Arguments

/-- The value of a key, or else of a place. An empty value counts as none, and an empty value of the
key hides the one of the place. -/
def value? (args : Arguments) (place : Nat) (key : String) : Option String :=
  match args.keyword.get? key <|> args.positional[place]? with
  | some "" => Option.none
  | found => found

def text (args : Arguments) (command : String) (place : Nat) (key : String) :
    Except ArgumentError String :=
  match args.value? place key with
  | some value => .ok value
  | Option.none => .error (.missing command key)

/-- Reads a value as a number of some kind, blanks around it aside. -/
def readWith {α : Type} (read : List Char → Except NumeralError α) (command value : String) :
    Except ArgumentError α :=
  (read (trim value.toList)).mapError fun e ↦ .invalid command value (.numeral e)

def number? (args : Arguments) (command : String) (place : Nat) (key : String) :
    Except ArgumentError (Option Float32) :=
  match args.value? place key with
  | some value => (readWith readSingle command value).map some
  | Option.none => .ok Option.none

def number (args : Arguments) (command : String) (place : Nat) (key : String) :
    Except ArgumentError Float32 :=
  (args.text command place key).bind (readWith readSingle command)

/-- An integer that may be missing. No operation has such an argument; it is there for callers of
the library, like the other three. -/
def integer? (args : Arguments) (command : String) (place : Nat) (key : String) :
    Except ArgumentError (Option Int) :=
  match args.value? place key with
  | some value => (readWith readInteger command value).map some
  | Option.none => .ok Option.none

def integer (args : Arguments) (command : String) (place : Nat) (key : String) :
    Except ArgumentError Int :=
  (args.text command place key).bind (readWith readInteger command)

end Arguments

end ReportPress
