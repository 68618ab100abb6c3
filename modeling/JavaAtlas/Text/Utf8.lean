/-!
# Lenient reading of UTF-8

Bytes read as UTF-8, one at a time. Where they spell no character, the replacement character stands for the
longest run of bytes that could have been the start of one, or for a single byte that could not.
-/

namespace JavaAtlas.Text.Utf8

/-- What has been read of a character of several bytes: the bits so far, the number of bytes that are still
owed, and the least and the greatest byte that may come next. -/
structure Fragment where
  bits : Nat
  owed : Nat
  least : Nat
  greatest : Nat
deriving DecidableEq, Repr

/-- What the first byte of a character says: it is the character, it opens a longer one, or it is none. -/
inductive Opening where
  | whole (c : Char)
  | partly (read : Fragment)
  | invalid
deriving DecidableEq, Repr

def replacement : Char := '\ufffd'

/-- The opening that a byte makes. The bounds leave out overlong forms, surrogates, and what lies beyond the
last character. -/
def opening (byte : Nat) : Opening :=
  if byte < 0x80 then .whole (Char.ofNat byte)
  else if byte < 0xc2 then .invalid
  else if byte < 0xe0 then .partly ⟨byte - 0xc0, 1, 0x80, 0xbf⟩
  else if byte < 0xf0 then
    .partly ⟨byte - 0xe0, 2, if byte == 0xe0 then 0xa0 else 0x80, if byte == 0xed then 0x9f else 0xbf⟩
  else if byte < 0xf5 then
    .partly ⟨byte - 0xf0, 3, if byte == 0xf0 then 0x90 else 0x80, if byte == 0xf4 then 0x8f else 0xbf⟩
  else .invalid

/-- A character after one more byte of it: complete, or with one byte less owed. -/
def Fragment.extend (read : Fragment) (byte : Nat) : Opening :=
  let bits := read.bits * 64 + (byte - 0x80)
  if read.owed ≤ 1 then .whole (Char.ofNat bits) else .partly ⟨bits, read.owed - 1, 0x80, 0xbf⟩

/-- The characters that bytes spell after the start of a character, if one has been read. -/
def decodeAfter : Option Fragment → List UInt8 → List Char
  | none, [] => []
  | some _, [] => [replacement]
  | some read, byte :: rest =>
    if read.least ≤ byte.toNat && byte.toNat ≤ read.greatest then
      match read.extend byte.toNat with
      | .whole c => c :: decodeAfter none rest
      | .partly next => decodeAfter (some next) rest
      | .invalid => replacement :: decodeAfter none rest
    else
      match opening byte.toNat with
      | .whole c => replacement :: c :: decodeAfter none rest
      | .partly next => replacement :: decodeAfter (some next) rest
      | .invalid => replacement :: replacement :: decodeAfter none rest
  | none, byte :: rest =>
    match opening byte.toNat with
    | .whole c => c :: decodeAfter none rest
    | .partly next => decodeAfter (some next) rest
    | .invalid => replacement :: decodeAfter none rest

/-- The text that bytes spell, leniently. -/
def decode (bytes : List UInt8) : String :=
  String.ofList (decodeAfter none bytes)

end JavaAtlas.Text.Utf8
