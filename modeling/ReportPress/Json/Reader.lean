import ReportPress.Json.Value
import ReportPress.Number.Numeral

/-!
# Reading JSON texts

A reader for the JSON grammar over lists of characters. Each piece reads from the front and hands
back what follows. The nesting of values is bounded by a count of steps, which `read?` takes from
the length of the text, so that it never cuts off a text that has the form.
-/

namespace ReportPress.Json

open Number

def skipBlanks (cs : List Char) : List Char :=
  cs.dropWhile fun c ↦ c = ' ' || c = '\t' || c = '\n' || c = '\r'

/-! ## Strings -/

/-- A piece of a string: a character that stands for itself or has a short escape, or a sixteen-bit
unit given by number. -/
inductive StringPart where
  | char (c : Char)
  /-- A unit given by four hexadecimal digits. -/
  | unit (n : Nat)

def hexValue? (c : Char) : Option Nat :=
  if c.isDigit then some (digitValue c)
  else if 'a' ≤ c ∧ c ≤ 'f' then some (c.toNat - 'a'.toNat + 10)
  else if 'A' ≤ c ∧ c ≤ 'F' then some (c.toNat - 'A'.toNat + 10)
  else none

def hexUnit? (a b c d : Char) : Option Nat := do
  let a ← hexValue? a
  let b ← hexValue? b
  let c ← hexValue? c
  let d ← hexValue? d
  return ((a * 16 + b) * 16 + c) * 16 + d

def shortEscape? (c : Char) : Option Char :=
  [('\x22', '\x22'), ('\x5c', '\x5c'), ('/', '/'), ('b', '\x08'), ('f', '\x0c'), ('n', '\n'),
   ('r', '\r'), ('t', '\t')].lookup c

/-- Reads the pieces of a string up to its closing mark, which is taken too. Controls below the
space may not stand in a string. -/
def readParts : List Char → Option (List StringPart × List Char)
  | '\x22' :: rest => some ([], rest)
  | '\x5c' :: 'u' :: a :: b :: c :: d :: rest => do
    let n ← hexUnit? a b c d
    let (parts, after) ← readParts rest
    return (.unit n :: parts, after)
  | '\x5c' :: e :: rest => do
    let c ← shortEscape? e
    let (parts, after) ← readParts rest
    return (.char c :: parts, after)
  | c :: rest =>
    if c.toNat < 0x20 ∨ c = '\x5c' then none
    else do
      let (parts, after) ← readParts rest
      return (.char c :: parts, after)
  | [] => none

/-- Joins the pieces of a string; two units that form a surrogate pair are one character, and half a
pair on its own denotes no text. -/
def joinParts? : List StringPart → Option (List Char)
  | [] => some []
  | .char c :: rest => (joinParts? rest).map (c :: ·)
  | .unit high :: .unit low :: rest =>
    if 0xD800 ≤ high ∧ high < 0xDC00 then
      if 0xDC00 ≤ low ∧ low < 0xE000 then
        (joinParts? rest).map (Char.ofNat (0x10000 + (high - 0xD800) * 0x400 + (low - 0xDC00)) :: ·)
      else none
    else if 0xDC00 ≤ high ∧ high < 0xE000 then none
    else (joinParts? (.unit low :: rest)).map (Char.ofNat high :: ·)
  | .unit n :: rest =>
    if 0xD800 ≤ n ∧ n < 0xE000 then none else (joinParts? rest).map (Char.ofNat n :: ·)

/-- Reads a string after its opening mark; the text is none when the string denotes none. -/
def readString (cs : List Char) : Option (Option String × List Char) :=
  (readParts cs).map fun (parts, rest) ↦ ((joinParts? parts).map String.ofList, rest)

/-! ## Numerals -/

def readDigits? (cs : List Char) : Option (List Char × List Char) :=
  match cs.takeWhile Char.isDigit with
  | [] => none
  | digits => some (digits, cs.dropWhile Char.isDigit)

/-- The whole part of a numeral: a zero on its own, or digits that do not begin with zero. -/
def readWhole? : List Char → Option (List Char × List Char)
  | '0' :: rest => some (['0'], rest)
  | cs => readDigits? cs

/-- The fraction of a numeral; none when a point has no digit after it. -/
def readFraction? : List Char → Option (Option (List Char) × List Char)
  | '.' :: rest => (readDigits? rest).map fun (digits, after) ↦ (some digits, after)
  | cs => some (none, cs)

/-- The exponent of a numeral; none when the mark has no digit after it. -/
def readExponent? : List Char → Option (Option Int × List Char)
  | c :: rest =>
    if c = 'e' ∨ c = 'E' then
      let (negative, digits) := splitSign rest
      (readDigits? digits).map fun (digits, after) ↦
        (some (if negative then -(digitsValue digits : Int) else digitsValue digits), after)
    else some (none, c :: rest)
  | [] => some (none, [])

def readNumeral (cs : List Char) : Option (Json × List Char) := do
  let (negative, unsigned) := match cs with
    | '-' :: rest => (true, rest)
    | _ => (false, cs)
  let (whole, rest) ← readWhole? unsigned
  let (fraction, rest) ← readFraction? rest
  let (exponent, rest) ← readExponent? rest
  let value := digitsValue whole
  match fraction, exponent with
  | none, none =>
    if negative then
      return (if value = 0 then .decimal ⟨true, 0, 0⟩ else .integer (-(value : Int)), rest)
    else return (.integer value, rest)
  | fraction, exponent =>
    let fraction := fraction.getD []
    return (.decimal ⟨negative, digitsValue (whole ++ fraction),
      exponent.getD 0 - fraction.length⟩, rest)

/-! ## Values -/

mutual

/-- Reads a value, taking at most `steps` steps into it. -/
def readValue : (steps : Nat) → List Char → Option (Json × List Char)
  | 0, _ => none
  | steps + 1, cs =>
    match skipBlanks cs with
    | '\x7b' :: rest =>
      match skipBlanks rest with
      | '\x7d' :: after => some (.object [], after)
      | inside => (readMembers steps inside).map fun (members, after) ↦ (.object members, after)
    | '[' :: rest =>
      match skipBlanks rest with
      | ']' :: after => some (.array [], after)
      | inside => (readItems steps inside).map fun (items, after) ↦ (.array items, after)
    | '\x22' :: rest =>
      (readString rest).map fun (text, after) ↦ (text.elim .brokenString .string, after)
    | 'n' :: 'u' :: 'l' :: 'l' :: rest => some (.null, rest)
    | 't' :: 'r' :: 'u' :: 'e' :: rest => some (.bool true, rest)
    | 'f' :: 'a' :: 'l' :: 's' :: 'e' :: rest => some (.bool false, rest)
    | rest => readNumeral rest

/-- Reads one or more values with commas between them, and the closing bracket. -/
def readItems : (steps : Nat) → List Char → Option (List Json × List Char)
  | 0, _ => none
  | steps + 1, cs => do
    let (item, rest) ← readValue steps cs
    match skipBlanks rest with
    | ']' :: after => return ([item], after)
    | ',' :: more =>
      let (items, after) ← readItems steps more
      return (item :: items, after)
    | _ => none

/-- Reads one or more named values with commas between them, and the closing brace. A name always
denotes a text. -/
def readMembers : (steps : Nat) → List Char → Option (List (String × Json) × List Char)
  | 0, _ => none
  | steps + 1, cs =>
    match skipBlanks cs with
    | '\x22' :: inside => do
      let (name?, rest) ← readString inside
      let name ← name?
      match skipBlanks rest with
      | ':' :: rest =>
        let (value, rest) ← readValue steps rest
        match skipBlanks rest with
        | '\x7d' :: after => return ([(name, value)], after)
        | ',' :: more =>
          let (members, after) ← readMembers steps more
          return ((name, value) :: members, after)
        | _ => none
      | _ => none
    | _ => none

end

/-- Reads a text that is one JSON value and nothing else. -/
def read? (text : String) : Option Json :=
  let cs := text.toList
  match readValue (2 * cs.length + 2) cs with
  | some (value, rest) => if skipBlanks rest = [] then some value else none
  | none => none

/-! ## What reading comes to -/

theorem readParts_shortEscape (rest : List Char) {mark c : Char} (hmark : mark ≠ 'u')
    (h : shortEscape? mark = some c) :
    readParts ('\x5c' :: mark :: rest)
      = (readParts rest).map fun (parts, after) ↦ (.char c :: parts, after) := by
  rw [readParts.eq_3]
  · rw [h]
    cases readParts rest <;> rfl
  · rintro a b c d rest' rfl
    exact fun _ ↦ hmark rfl

theorem readParts_plain (rest : List Char) {c : Char} (hquote : c ≠ '\x22')
    (hescape : c ≠ '\x5c') (h : ¬c.toNat < 0x20) :
    readParts (c :: rest)
      = (readParts rest).map fun (parts, after) ↦ (.char c :: parts, after) := by
  rw [readParts.eq_4 _ _ hquote (fun _ _ _ _ _ heq ↦ absurd heq hescape)
    (fun _ _ heq ↦ absurd heq hescape), if_neg (by simp [h, hescape])]
  cases readParts rest <;> rfl

theorem readValue_congr {cs cs' : List Char} (h : skipBlanks cs = skipBlanks cs') (steps : Nat) :
    readValue steps cs = readValue steps cs' := by
  cases steps with
  | zero => rfl
  | succ steps => rw [readValue, readValue, h]

theorem readItems_congr {cs cs' : List Char} (h : skipBlanks cs = skipBlanks cs') (steps : Nat) :
    readItems steps cs = readItems steps cs' := by
  cases steps with
  | zero => rfl
  | succ steps => rw [readItems, readItems, readValue_congr h]

theorem readMembers_congr {cs cs' : List Char} (h : skipBlanks cs = skipBlanks cs') (steps : Nat) :
    readMembers steps cs = readMembers steps cs' := by
  cases steps with
  | zero => rfl
  | succ steps => rw [readMembers, readMembers, h]

end ReportPress.Json
