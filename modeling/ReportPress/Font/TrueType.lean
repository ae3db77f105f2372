import ReportPress.File.Bytes
import ReportPress.File.Decoders

/-!
# TrueType files

What measuring text needs of a font file: how many units make an em, which glyph shows a character,
and how far each glyph advances. A file is a directory of tables. The tables with the units, the
number of advances and the number of glyphs have to be there; the character map and the advances may
be missing, and then no character has a glyph or no glyph an advance.
-/

namespace ReportPress

-- Files are compared as in the core library, whatever else is in scope.
attribute [local instance (2000)] ByteArray.instDecidableEq

inductive FontFault where
  | unknownMagic
  | malformed
  | head
  | horizontalHeader
  | maximumProfile
  deriving DecidableEq, Repr

def FontFault.message : FontFault → String
  | .unknownMagic => "unknown magic"
  | .malformed => "malformed font"
  | .head => "the head table is missing or malformed"
  | .horizontalHeader => "the hhea table is missing or malformed"
  | .maximumProfile => "the maxp table is missing or malformed"

namespace TrueType

open Bytes

/-! ## Character maps -/

/-- Characters from `first` to `last`, with the way to their glyphs. -/
structure Segment where
  first : Nat
  last : Nat
  /-- What is added to a character, or to the number found for it, modulo two bytes. -/
  delta : Nat
  /-- Zero, or how far behind its own place the number of the first character stands. -/
  rangeOffset : Nat
  /-- Where `rangeOffset` itself stands. -/
  place : Nat
  deriving Repr

/-- Characters from `first` to `last`, their glyphs following one another. -/
structure Group where
  first : Nat
  last : Nat
  glyph : Nat
  deriving Repr

/-- A map from characters to glyphs. -/
inductive CharacterMap where
  /-- For two-byte characters, by segments of the table in `bytes`. -/
  | segments (bytes : ByteArray) (items : List Segment)
  /-- For all characters, by groups. -/
  | groups (items : List Group)

namespace CharacterMap

def readSegments? (bytes : ByteArray) : Option CharacterMap := do
  let doubled ← u16? bytes 6
  let count := doubled / 2
  if count = 0 then none
  let items ← (List.range count).mapM fun i ↦ do
    return {
      last := ← u16? bytes (14 + 2 * i)
      first := ← u16? bytes (16 + 2 * count + 2 * i)
      delta := ← u16? bytes (16 + 4 * count + 2 * i)
      rangeOffset := ← u16? bytes (16 + 6 * count + 2 * i)
      place := 16 + 6 * count + 2 * i : Segment }
  return .segments bytes items

def readGroups? (bytes : ByteArray) : Option CharacterMap := do
  let count ← u32? bytes 12
  if bytes.size < 16 + 12 * count then none
  let items ← (List.range count).mapM fun i ↦ do
    return {
      first := ← u32? bytes (16 + 12 * i)
      last := ← u32? bytes (20 + 12 * i)
      glyph := ← u32? bytes (24 + 12 * i) : Group }
  return .groups items

/-- The glyph that a segment gives a character of its range. -/
def Segment.glyph? (bytes : ByteArray) (segment : Segment) (c : Nat) : Option Nat :=
  if segment.rangeOffset = 0 then some ((c + segment.delta) % 65536)
  else if segment.rangeOffset = 0xFFFF then none
  else
    let ahead := 2 * (c - segment.first)
    if 65535 < ahead then none
    else match u16? bytes ((segment.place + ahead + segment.rangeOffset) % 65536) with
      | none => none
      | some 0 => none
      | some n =>
        let glyph := (n + segment.delta) % 65536
        if glyph < 32768 then some glyph else none

def glyph? (map : CharacterMap) (c : Nat) : Option Nat :=
  match map with
  | .segments bytes items =>
    if 65535 < c then none
    else match items.find? fun segment ↦ decide (c ≤ segment.last) with
      | none => none
      | some segment => if segment.first ≤ c then Segment.glyph? bytes segment c else none
  | .groups items =>
    match items.find? fun group ↦ decide (group.first ≤ c ∧ c ≤ group.last) with
    | none => none
    | some group =>
      let glyph := group.glyph + c - group.first
      if glyph < 65536 then some glyph else none

/-- The character maps in the table of them that speak of Unicode. Reading ends at the first that
has no form known here. -/
def readAll (table : ByteArray) : List CharacterMap :=
  let count := (u16? table 2).getD 0
  if table.size < 4 + 8 * count then []
  else go table (List.range count)
where
  go (table : ByteArray) : List Nat → List CharacterMap
    | [] => []
    | i :: rest =>
      match u16? table (4 + 8 * i), u16? table (6 + 8 * i), u32? table (8 + 8 * i) with
      | some platform, some encoding, some offset =>
        let subtable := table.extract offset table.size
        let read := match u16? subtable 0 with
          | some 4 => (readSegments? subtable).map fun map ↦ (map, false)
          | some 12 => (readGroups? subtable).map fun map ↦ (map, true)
          | _ => none
        match read with
        | none => []
        | some (map, isFull) =>
          let speaksUnicode := platform = 0 ∨ (platform = 3 ∧ encoding = 1) ∨
            (platform = 3 ∧ encoding = 10 ∧ isFull)
          if speaksUnicode then map :: go table rest else go table rest
      | _, _, _ => []

end CharacterMap

/-! ## Advances -/

/-- The advances of the glyphs: one each for the first glyphs, the last of them for the others. -/
structure Advances where
  listed : Array Nat
  glyphs : Nat
  deriving Repr

def Advances.read? (table : ByteArray) (listed glyphs : Nat) : Option Advances := do
  if listed = 0 ∨ table.size < 4 * listed then none
  let items ← (List.range listed).mapM fun i ↦ u16? table (4 * i)
  return ⟨items.toArray, max listed glyphs⟩

def Advances.advance? (advances : Advances) (glyph : Nat) : Option Nat :=
  if advances.glyphs ≤ glyph then none
  else advances.listed[glyph]? <|> advances.listed.back?

end TrueType

open TrueType in
structure TrueType where
  unitsPerEm : Nat
  maps : List CharacterMap
  advances : Option Advances

namespace TrueType

open Bytes

/-- A table by its name; of several the last counts. -/
def table? (bytes : ByteArray) (count : Nat) (name : String) : Option ByteArray :=
  let found := (List.range count).reverse.find? fun i ↦
    (slice? bytes (12 + 16 * i) 4).any fun tag ↦ tag = name.toUTF8
  match found with
  | none => none
  | some i => do slice? bytes (← u32? bytes (20 + 16 * i)) (← u32? bytes (24 + 16 * i))

def readUnitsPerEm? (table : ByteArray) : Option Nat := do
  if table.size < 54 then none
  let units ← u16? table 18
  let locationFormat ← u16? table 50
  if 16 ≤ units ∧ units ≤ 16384 ∧ locationFormat ≤ 1 then some units else none

/-- The number of glyphs, which is not zero. -/
def readGlyphCount? (table : ByteArray) : Option Nat := do
  let version ← u32? table 0
  let count ← u16? table 4
  if (version = 0x5000 ∨ version = 0x10000) ∧ count ≠ 0 then some count else none

def read (bytes : ByteArray) : Except FontFault TrueType := do
  let some magic := u32? bytes 0 | throw .unknownMagic
  unless magic = 0x00010000 ∨ magic = 0x4F54544F ∨ magic = 0x74727565 do throw .unknownMagic
  let some count := u16? bytes 4 | throw .malformed
  if bytes.size < 12 + 16 * count then throw .malformed
  let some units := (table? bytes count "head").bind readUnitsPerEm? | throw .head
  let some listed := (table? bytes count "hhea").bind (u16? · 34) | throw .horizontalHeader
  let some glyphs := (table? bytes count "maxp").bind readGlyphCount? | throw .maximumProfile
  return {
    unitsPerEm := units
    maps := ((table? bytes count "cmap").map CharacterMap.readAll).getD []
    advances := (table? bytes count "hmtx").bind fun table ↦ Advances.read? table listed glyphs }

def glyph? (font : TrueType) (c : Char) : Option Nat :=
  font.maps.findSome? (·.glyph? c.toNat)

def toFace (font : TrueType) : FontFace where
  unitsPerEm := font.unitsPerEm
  glyph? := font.glyph?
  advance? glyph := font.advances.bind (·.advance? glyph)

end TrueType

end ReportPress
