/-!
# Reading bytes as text

Bytes are read as UTF-8. What is not well formed is cut into maximal invalid parts: a byte that
begins no character stands alone, and a character that breaks off takes with it the bytes that were
still right. `decodeLossy` puts a replacement character for each part; input texts have those
removed, so that invalid bytes vanish and everything around them is kept.
-/

namespace ReportPress.Text.Utf8

-- Powers are those of the core library, whatever else is in scope.
attribute [local instance (2000)] instPowNat

/-- What the first byte of a character promises: how many bytes follow, and the range of the next
one. The bytes after that range over all continuation bytes. -/
structure Lead where
  /-- The number of bytes that follow. -/
  count : Nat
  /-- The least value of the second byte. -/
  least : UInt8
  /-- The greatest value of the second byte. -/
  greatest : UInt8

/-- The promise of a first byte; none for a byte that begins no character. The second byte is
narrowed where a longer form than needed, a surrogate or a number past the last character would
result. -/
def lead? (b : UInt8) : Option Lead :=
  if b < 0x80 then some ⟨0, 0, 0⟩
  else if b < 0xC2 then none
  else if b < 0xE0 then some ⟨1, 0x80, 0xBF⟩
  else if b = 0xE0 then some ⟨2, 0xA0, 0xBF⟩
  else if b = 0xED then some ⟨2, 0x80, 0x9F⟩
  else if b < 0xF0 then some ⟨2, 0x80, 0xBF⟩
  else if b = 0xF0 then some ⟨3, 0x90, 0xBF⟩
  else if b < 0xF4 then some ⟨3, 0x80, 0xBF⟩
  else if b = 0xF4 then some ⟨3, 0x80, 0x8F⟩
  else none

/-- The bytes of `bytes` that continue a character which still misses `count` of them. -/
def continuation : (count : Nat) → (least greatest : UInt8) → (bytes : List UInt8) → List UInt8
  | count + 1, least, greatest, b :: rest =>
    if least ≤ b ∧ b ≤ greatest then b :: continuation count 0x80 0xBF rest else []
  | _, _, _, _ => []

/-- The character that a first byte and its continuation encode: the low bits of the first byte,
then six bits of each byte after it. -/
def assemble (first : UInt8) (tail : List UInt8) : Char :=
  let high := first.toNat % 2 ^ (if tail.length = 0 then 7 else 6 - tail.length)
  Char.ofNat (tail.foldl (fun n b ↦ n * 64 + b.toNat % 64) high)

def replacement : Char := Char.ofNat 0xFFFD

/-- The text of bytes behind the text already read, which is given backwards. -/
def decodeOnto (done : List Char) : List UInt8 → List Char
  | [] => done.reverse
  | b :: rest =>
    match lead? b with
    | none => decodeOnto (replacement :: done) rest
    | some lead =>
      let tail := continuation lead.count lead.least lead.greatest rest
      let c := if tail.length = lead.count then assemble b tail else replacement
      decodeOnto (c :: done) (rest.drop tail.length)
termination_by bytes => bytes.length

/-- Bytes as text, with a replacement character for each maximal invalid part. -/
def decodeLossy (bytes : List UInt8) : List Char := decodeOnto [] bytes

/-- Bytes as text, or none when some byte is not part of a well-formed character. -/
def decodeStrict? : List UInt8 → Option (List Char)
  | [] => some []
  | b :: rest =>
    match lead? b with
    | none => none
    | some lead =>
      let tail := continuation lead.count lead.least lead.greatest rest
      if tail.length = lead.count then
        (decodeStrict? (rest.drop tail.length)).map (assemble b tail :: ·)
      else none
termination_by bytes => bytes.length

/-- Bytes as input text: invalid parts are dropped, and so is a replacement character that was
there to begin with. -/
def decodeInput (bytes : ByteArray) : String :=
  String.ofList ((decodeLossy bytes.data.toList).filter (· ≠ replacement))

end ReportPress.Text.Utf8
