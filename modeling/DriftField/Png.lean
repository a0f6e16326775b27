import DriftField.Canvas
import DriftField.Fault
/-!
Pictures as image files: which format a file name asks for, and the PNG form of a picture, whose data is
stored without compression.
-/

namespace DriftField

namespace ImageName

def lastPart (path : String) : List Char :=
  match ((Text.pieces '/' path.toList).filter fun part => part ≠ [] && part ≠ ['.']).getLast? with
  | some part => part
  | none => []

/-- What follows the last dot of a file name, unless the dot is its first character. -/
def extension? (name : List Char) : Option (List Char) :=
  if name = ['.', '.'] then none
  else match name.reverse.span (· ≠ '.') with
  | (_, []) => none
  | (_, [_]) => none
  | (after, _) => some after.reverse

def others : List (String × String) :=
  [("avif", "Avif"), ("jpg", "Jpeg"), ("jpeg", "Jpeg"), ("jfif", "Jpeg"), ("gif", "Gif"),
    ("webp", "WebP"), ("tif", "Tiff"), ("tiff", "Tiff"), ("tga", "Tga"), ("dds", "Dds"), ("bmp", "Bmp"),
    ("ico", "Ico"), ("hdr", "Hdr"), ("exr", "OpenExr"), ("pbm", "Pnm"), ("pam", "Pnm"), ("ppm", "Pnm"),
    ("pgm", "Pnm"), ("pnm", "Pnm"), ("ff", "Farbfeld"), ("qoi", "Qoi")]

/-- Why no picture can be written under a name, if that is so. -/
def fault? (path : String) : Option FileCause :=
  match extension? (lastPart path) with
  | none => some .noImageFormat
  | some letters =>
      let name := String.ofList (letters.map Char.toLower)
      if name = "png" || name = "apng" then none
      else match others.lookup name with
      | some format => some (.unsupportedImageFormat format)
      | none => some (.unknownImageFormat (String.ofList letters))

end ImageName

namespace Png

def wordBytes (w : UInt32) : List UInt8 :=
  [(w >>> 24).toUInt8, (w >>> 16).toUInt8, (w >>> 8).toUInt8, w.toUInt8]

def checkBit (c : UInt32) : UInt32 := if c &&& 1 = 1 then (c >>> 1) ^^^ 0xedb88320 else c >>> 1

def checkByte (c : UInt32) (b : UInt8) : UInt32 :=
  Nat.repeat checkBit 8 (c ^^^ b.toUInt32)

def check (bytes : List UInt8) : UInt32 := ~~~bytes.foldl checkByte 0xffffffff

def sums (bytes : List UInt8) : UInt32 × UInt32 :=
  bytes.foldl (fun (a, b) byte =>
    let a := (a + byte.toUInt32) % 65521
    (a, (b + a) % 65521)) (1, 0)

def checksum (bytes : List UInt8) : UInt32 :=
  let (a, b) := sums bytes
  (b <<< 16) ||| a

def chunk (kind : List UInt8) (data : List UInt8) : List UInt8 :=
  wordBytes data.length.toUInt32 ++ kind ++ data ++ wordBytes (check (kind ++ data))

def blockSize : Nat := 65535

def lowFirst (n : Nat) : List UInt8 := [n.toUInt8, (n / 256).toUInt8]

def block (isLast : Bool) (data : List UInt8) : List UInt8 :=
  (if isLast then 1 else 0) :: lowFirst data.length ++ lowFirst (65535 - data.length) ++ data

def blocks (data : List UInt8) : List UInt8 :=
  if _h : data.length ≤ blockSize then block true data
  else block false (data.take blockSize) ++ blocks (data.drop blockSize)
termination_by data.length
decreasing_by simp only [List.length_drop, blockSize] at *; omega

/-- Data in the form that a PNG file holds. -/
def stored (data : List UInt8) : List UInt8 := [0x78, 0x01] ++ blocks data ++ wordBytes (checksum data)

/-- The bytes of the rows, each after the mark that it is not filtered. -/
def rows (c : Canvas) : List UInt8 :=
  (List.range c.height).flatMap fun y =>
    0 :: (c.pixels.extract (y * c.width) ((y + 1) * c.width)).toList.flatMap fun p => p.bytes ++ [255]

def encode (c : Canvas) : List UInt8 :=
  [0x89, 0x50, 0x4e, 0x47, 0x0d, 0x0a, 0x1a, 0x0a]
    ++ chunk [0x49, 0x48, 0x44, 0x52]
      (wordBytes c.width.toUInt32 ++ wordBytes c.height.toUInt32 ++ [8, 6, 0, 0, 0])
    ++ chunk [0x49, 0x44, 0x41, 0x54] (stored (rows c))
    ++ chunk [0x49, 0x45, 0x4e, 0x44] []

end Png

end DriftField
