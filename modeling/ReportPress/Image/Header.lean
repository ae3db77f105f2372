import ReportPress.File.Bytes
import ReportPress.File.Decoders

/-!
# Image files

The size of an image in pixels, and whether its file is whole. The kind of file is told by its first
bytes, not by its name. A PNG file is a row of chunks, the first with the size and the last a mark
of the end; a JPEG file is a row of segments, one of which has the size.
-/

namespace ReportPress

-- Files are compared as in the core library, whatever else is in scope.
attribute [local instance (2000)] ByteArray.instDecidableEq

namespace PixelSize

open Bytes

def pngSignature : ByteArray := ⟨#[0x89, 0x50, 0x4E, 0x47, 0x0D, 0x0A, 0x1A, 0x0A]⟩

/-- Whether whole chunks follow one another from an offset up to the mark of the end, looking at no
more than `fuel` chunks. -/
def hasWholeChunks (bytes : ByteArray) : (fuel offset : Nat) → Bool
  | 0, _ => false
  | fuel + 1, offset =>
    match u32? bytes offset, u32? bytes (offset + 4) with
    | some length, some kind =>
      decide (offset + 12 + length ≤ bytes.size) &&
        (kind = 0x49454E44 || hasWholeChunks bytes fuel (offset + 12 + length))
    | _, _ => false

def ofPng? (bytes : ByteArray) : Option PixelSize := do
  let kind ← u32? bytes 12
  let width ← u32? bytes 16
  let height ← u32? bytes 20
  if kind = 0x49484452 ∧ hasWholeChunks bytes bytes.size 8 then some ⟨width, height⟩ else none

def isFrame (marker : Nat) : Bool :=
  0xC0 ≤ marker && marker ≤ 0xCF && marker ≠ 0xC4 && marker ≠ 0xC8 && marker ≠ 0xCC

/-- Where the segment with the size begins, among the segments from an offset on, looking at no more
than `fuel` segments. -/
def frame? (bytes : ByteArray) : (fuel offset : Nat) → Option Nat
  | 0, _ => none
  | fuel + 1, offset => do
    let marker ← u16? bytes offset
    let length ← u16? bytes (offset + 2)
    if marker < 0xFF00 then none
    else if isFrame (marker % 256) then some offset
    else frame? bytes fuel (offset + 2 + length)

def ofJpeg? (bytes : ByteArray) : Option PixelSize := do
  let frame ← frame? bytes bytes.size 2
  return ⟨← u16? bytes (frame + 7), ← u16? bytes (frame + 5)⟩

def jpegComponents? (bytes : ByteArray) : Option Nat := do
  let frame ← frame? bytes bytes.size 2
  return (← bytes.data[frame + 9]?).toNat

/-- The size in an image file; none when the file is of no known kind or not whole. -/
def ofBytes? (bytes : ByteArray) : Option PixelSize :=
  if bytes.extract 0 8 = pngSignature then ofPng? bytes
  else if bytes.extract 0 3 = ⟨#[0xFF, 0xD8, 0xFF]⟩ then ofJpeg? bytes
  else none

end PixelSize

end ReportPress
