import Mathlib.Algebra.Group.Nat.Defs
import SaasFabric.Core.Text

/-!
# Address literals

`identity/redirect_uri/host_kind/ip_literal.rs`, with the parts of the standard library's address
parser it asks first.  A slice of text is the list of its characters.
-/

namespace SaasFabric
namespace ClientModel

/-! ## The standard library's parser -/

/-- `IpAddr`: four octets, or eight segments. -/
inductive IpAddr where
  | v4 (octets : Nat × Nat × Nat × Nat)
  | v6 (segments : List Nat)
deriving DecidableEq

/-- `char::to_digit`, up to sixteen. -/
def toDigit (radix : Nat) (c : Char) : Option Nat :=
  let digit :=
    if c.isDigit then some (c.toNat - 0x30)
    else if 'a' ≤ c ∧ c ≤ 'f' then some (c.toNat - 0x61 + 10)
    else if 'A' ≤ c ∧ c ≤ 'F' then some (c.toNat - 0x41 + 10)
    else none
  digit.filter (· < radix)

/-- `from_str_radix` on digits only: the number they spell. -/
def readDigits (radix : Nat) (digits : List Char) : Nat :=
  digits.foldl (fun value c => radix * value + (toDigit radix c).getD 0) 0

/-- `Parser::read_number`, below a bound. -/
def readNumber (radix maxDigits bound : Nat) (allowZeroPrefix : Bool) (input : List Char) :
    Option (Nat × List Char) :=
  let digits := input.takeWhile fun c => (toDigit radix c).isSome
  if digits.length > maxDigits then none
  else if digits.length = 0 then none
  else if !allowZeroPrefix && input.head? == some '0' && decide (digits.length > 1) then none
  else
    let value := readDigits radix digits
    if value < bound then some (value, input.drop digits.length) else none

/-- `Parser::read_given_char`. -/
def readGivenChar (target : Char) : List Char → Option (List Char)
  | [] => none
  | c :: rest => if c = target then some rest else none

/-- `Parser::read_separator`. -/
def readSeparator {T : Type} (separator : Char) (index : Nat)
    (inner : List Char → Option (T × List Char)) (input : List Char) : Option (T × List Char) :=
  if index > 0 then (readGivenChar separator input).bind inner else inner input

/-- One octet of `Parser::read_ipv4_addr`. -/
def readOctet (index : Nat) : List Char → Option (Nat × List Char) :=
  readSeparator '.' index (readNumber 10 3 256 false)

/-- `Parser::read_ipv4_addr`. -/
def readIpv4Addr (input : List Char) : Option ((Nat × Nat × Nat × Nat) × List Char) := do
  let (a, input) ← readOctet 0 input
  let (b, input) ← readOctet 1 input
  let (c, input) ← readOctet 2 input
  let (d, input) ← readOctet 3 input
  return ((a, b, c, d), input)

/-- `read_groups`, with this many groups left to read and this many read. -/
def readGroups : Nat → Nat → List Char → List Nat × Bool × List Char
  | 0, _, input => ([], false, input)
  | left + 1, index, input =>
    let embedded := if left > 0 then readSeparator ':' index readIpv4Addr input else none
    match embedded with
    | some ((a, b, c, d), rest) => ([256 * a + b, 256 * c + d], true, rest)
    | none =>
      match readSeparator ':' index (readNumber 16 4 65536 true) input with
      | some (group, rest) =>
        let (groups, ipv4, rest) := readGroups left (index + 1) rest
        (group :: groups, ipv4, rest)
      | none => ([], false, input)

/-- `Parser::read_ipv6_addr`. -/
def readIpv6Addr (input : List Char) : Option (List Nat × List Char) := do
  let (head, headIpv4, input) := readGroups 8 0 input
  if head.length = 8 then return (head, input)
  if headIpv4 then none
  let input ← readGivenChar ':' input
  let input ← readGivenChar ':' input
  let (tail, _, input) := readGroups (8 - (head.length + 1)) 0 input
  return (head ++ List.replicate (8 - head.length - tail.length) 0 ++ tail, input)

/-- `Parser::read_ip_addr`. -/
def readIpAddr (input : List Char) : Option (IpAddr × List Char) :=
  ((readIpv4Addr input).map fun (octets, rest) => (.v4 octets, rest)).or
    ((readIpv6Addr input).map fun (segments, rest) => (.v6 segments, rest))

/-- `host.parse::<IpAddr>()`. -/
def parseIpAddr (host : List Char) : Option IpAddr :=
  match readIpAddr host with
  | some (address, []) => some address
  | _ => none

/-! ## What `inet_aton` reads -/

/-- `u32::from_str_radix`, on digits of the radix. -/
def fromStrRadix (radix : Nat) (digits : List Char) : Option Nat :=
  let value := readDigits radix digits
  if value < 2 ^ 32 then some value else none

/-- `parse_c_integer`. -/
def parseCInteger (label : List Char) : Option Nat :=
  match label with
  | '0' :: 'x' :: hex =>
    if hex.isEmpty || !hex.all fun c => (toDigit 16 c).isSome then none else fromStrRadix 16 hex
  | _ =>
    if label.length > 1 && label.head? == some '0' then
      if !label.all fun c => (toDigit 8 c).isSome then none else fromStrRadix 8 label
    else if !label.isEmpty && label.all Char.isDigit then fromStrRadix 10 label
    else none

/-- `Ipv4Addr::from` on a 32-bit number. -/
def ipv4OfNat (value : Nat) : IpAddr :=
  .v4 (value / 2 ^ 24 % 256, value / 2 ^ 16 % 256, value / 2 ^ 8 % 256, value % 256)

/-- The number the labels of a short or full form spell together. -/
def combined : List Nat → Option Nat
  | [value] => some value
  | [first, second] =>
    if first ≤ 0xFF ∧ second ≤ 0xFFFFFF then some (first * 2 ^ 24 + second) else none
  | [first, second, third] =>
    if first ≤ 0xFF ∧ second ≤ 0xFF ∧ third ≤ 0xFFFF then
      some (first * 2 ^ 24 + second * 2 ^ 16 + third)
    else none
  | [first, second, third, fourth] =>
    if first ≤ 0xFF ∧ second ≤ 0xFF ∧ third ≤ 0xFF ∧ fourth ≤ 0xFF then
      some (first * 2 ^ 24 + second * 2 ^ 16 + third * 2 ^ 8 + fourth)
    else none
  | _ => none

/-- `parse_ipv4`. -/
def parseIpv4 (host : List Char) : Option IpAddr := do
  let labels ← (host.splitOn '.').mapM parseCInteger
  let value ← combined labels
  return ipv4OfNat value

/-! ## What the classifier asks -/

/-- `ip_literal::parse`. -/
def ipParse (host : List Char) : Option IpAddr :=
  match parseIpAddr host with
  | some address => some address
  | none => parseIpv4 host

/-- `ip_literal::is_loopback`. -/
def isLoopback : IpAddr → Bool
  | .v4 (first, _) => first == 127
  | .v6 segments =>
    segments == [0, 0, 0, 0, 0, 0, 0, 1] ||
      match segments with
      | [0, 0, 0, 0, 0, 0xFFFF, high, _] => high / 256 == 127
      | _ => false

example : (ipParse "127.1".toList).map isLoopback = some true := by decide +kernel

example : (ipParse "::ffff:127.0.0.1".toList).map isLoopback = some true := by decide +kernel

example : ipParse "0.example.com".toList = none := by decide +kernel

end ClientModel
end SaasFabric
