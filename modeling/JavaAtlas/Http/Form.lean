import JavaAtlas.Text.Hex
import JavaAtlas.Text.Utf8

/-!
# Query strings

The fields of a query string in the encoding of web forms: fields stand between ampersands, a name ends at
the first equals sign, a plus sign stands for a blank, and a percent sign with two hexadecimal digits for a
byte. The decoded bytes are read as UTF-8, leniently.
-/

namespace JavaAtlas.Http.Form

open JavaAtlas.Text

def plusAsBlank (bytes : List UInt8) : List UInt8 :=
  bytes.map fun byte => if byte == 0x2b then 0x20 else byte

def byteOf? (high low : UInt8) : Option UInt8 := do
  let high ← hexValue? (Char.ofNat high.toNat)
  let low ← hexValue? (Char.ofNat low.toNat)
  return UInt8.ofNat (high * 16 + low)

/-- Bytes in which percent signs with two digits have become bytes; other percent signs stay. -/
def unescape : List UInt8 → List UInt8
  | [] => []
  | [byte] => [byte]
  | [byte, next] => [byte, next]
  | byte :: high :: low :: rest =>
    if byte == 0x25 then
      match byteOf? high low with
      | some spelled => spelled :: unescape rest
      | none => byte :: unescape (high :: low :: rest)
    else byte :: unescape (high :: low :: rest)

def decode (bytes : List UInt8) : String :=
  Utf8.decode (unescape (plusAsBlank bytes))

/-- A field cut at its first equals sign. Without one its value is empty. -/
def splitField (field : List UInt8) : String × String :=
  (decode (field.takeWhile (· != 0x3d)), decode ((field.dropWhile (· != 0x3d)).drop 1))

def fields (query : String) : List (String × String) :=
  ((query.toUTF8.toList.splitOnP (· == 0x26)).filter fun field => !field.isEmpty).map splitField

end JavaAtlas.Http.Form
