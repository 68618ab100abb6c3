import JavaAtlas.Text.Hex

/-!
# Socket addresses

Which texts name an address with a port: four decimal numbers and a port, or an IPv6 address in brackets,
perhaps with a zone, and a port. Readers take what they read off the front of a text and give the rest.
-/

namespace JavaAtlas.CommandLine.Address

open JavaAtlas.Text

/-- The value of a digit in a base of at most sixteen. -/
def digit? (base : Nat) (c : Char) : Option Nat :=
  (hexValue? c).filter (· < base)

def valueOf (base : Nat) (digits : List Char) : Nat :=
  digits.foldl (fun value c => value * base + (digit? base c).getD 0) 0

/-- What follows the digits at the front of a text, if there are any and they pass a test. -/
def afterDigits? (base : Nat) (accept : List Char → Bool) (text : List Char) : Option (List Char) :=
  let isDigit := fun c => (digit? base c).isSome
  let digits := text.takeWhile isDigit
  if !digits.isEmpty && accept digits then some (text.dropWhile isDigit) else none

def afterChar? (c : Char) : List Char → Option (List Char)
  | first :: rest => if first == c then some rest else none
  | [] => none

def afterNumber? (bound : Nat) : List Char → Option (List Char) :=
  afterDigits? 10 fun digits => valueOf 10 digits < bound

/-- What follows one part of an IPv4 address, which has no zeros in front. -/
def afterOctet? : List Char → Option (List Char) :=
  afterDigits? 10 fun digits =>
    digits.length ≤ 3 && valueOf 10 digits < 256 && (digits.length == 1 || digits.head? != some '0')

def afterIpv4? (text : List Char) : Option (List Char) := do
  let text ← afterChar? '.' (← afterOctet? text)
  let text ← afterChar? '.' (← afterOctet? text)
  let text ← afterChar? '.' (← afterOctet? text)
  afterOctet? text

def afterGroup? : List Char → Option (List Char) :=
  afterDigits? 16 fun digits => digits.length ≤ 4

/-- The groups at the front of a text: their number, whether the last two are written as an IPv4 address,
and what follows them. There are at most as many as given, and colons stand between them. -/
def groups : Nat → Bool → List Char → Nat × Bool × List Char
  | 0, _, text => (0, false, text)
  | left + 1, isFirst, text =>
    match if isFirst then some text else afterChar? ':' text with
    | none => (0, false, text)
    | some group =>
      match if 0 < left then afterIpv4? group else none with
      | some rest => (2, true, rest)
      | none =>
        match afterGroup? group with
        | some rest =>
          let found := groups left false rest
          (found.1 + 1, found.2)
        | none => (0, false, text)

/-- What follows an IPv6 address, in which two colons may stand for groups of zeros. -/
def afterIpv6? (text : List Char) : Option (List Char) :=
  match groups 8 true text with
  | (count, endsInIpv4, rest) =>
    if count == 8 then some rest
    else if endsInIpv4 then none
    else do
      let rest ← afterChar? ':' (← afterChar? ':' rest)
      return (groups (7 - count) true rest).2.2

/-- What follows the zone of an IPv6 address, if it has one. -/
def afterZone? : List Char → Option (List Char)
  | '%' :: text => afterNumber? UInt32.size text
  | text => some text

def afterPort? (text : List Char) : Option (List Char) := do
  afterNumber? 65536 (← afterChar? ':' text)

def afterIpv4Port? (text : List Char) : Option (List Char) := do
  afterPort? (← afterIpv4? text)

/-- What follows an IPv6 address in brackets with a port. -/
def afterIpv6Port? (text : List Char) : Option (List Char) := do
  let text ← afterZone? (← afterIpv6? (← afterChar? '[' text))
  afterPort? (← afterChar? ']' text)

def isAddress (text : String) : Bool :=
  (afterIpv4Port? text.toList <|> afterIpv6Port? text.toList) == some []

end JavaAtlas.CommandLine.Address
