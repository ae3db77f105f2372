/-!
# Numbers in bytes

Font and image files hold their numbers high byte first. Reading past the end gives nothing.
-/

namespace ReportPress.Bytes

def u16? (bytes : ByteArray) (offset : Nat) : Option Nat := do
  let high ← bytes[offset]?
  let low ← bytes[offset + 1]?
  return high.toNat * 256 + low.toNat

def u32? (bytes : ByteArray) (offset : Nat) : Option Nat := do
  let high ← u16? bytes offset
  let low ← u16? bytes (offset + 2)
  return high * 65536 + low

def slice? (bytes : ByteArray) (offset length : Nat) : Option ByteArray :=
  if offset + length ≤ bytes.size then some (bytes.extract offset (offset + length)) else none

end ReportPress.Bytes
