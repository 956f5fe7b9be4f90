import Mathlib.Data.Nat.Notation
import Portcall.Text

/-! What a resolved address says about the network: public, private, a block, or unreadable. -/
namespace Portcall.Dns

inductive AddressClass where
  | «public»
  | «private»
  | sinkhole
  | malformed
  deriving DecidableEq, Repr

def slowResolutionMs : ℕ := 500

structure Ipv4 where
  a : ℕ
  b : ℕ
  c : ℕ
  d : ℕ
  deriving DecidableEq, Repr

/-- `/^(?:0|[1-9]\d{0,2})$/` -/
def isIpv4Octet : List Char → Bool
  | ['0'] => true
  | c :: rest => '1' ≤ c && c ≤ '9' && rest.length ≤ 2 && rest.all Text.isDigit
  | [] => false

def isHexDigit (c : Char) : Bool :=
  Text.isDigit c || ('a' ≤ c && c ≤ 'f') || ('A' ≤ c && c ≤ 'F')

/-- `/^[0-9a-fA-F]{1,4}$/` -/
def isIpv6Group (token : List Char) : Bool :=
  1 ≤ token.length && token.length ≤ 4 && token.all isHexDigit

def hexValue (c : Char) : ℕ :=
  if Text.isDigit c then c.toNat - '0'.toNat
  else if 'a' ≤ c then c.toNat - 'a'.toNat + 10
  else c.toNat - 'A'.toNat + 10

/-- `Number.parseInt(token, 16)` of a run of hex digits. -/
def hexadecimal (token : List Char) : ℕ :=
  token.foldl (fun total c => total * 16 + hexValue c) 0

/-- Four decimal octets without leading zeros, or nothing. -/
def parseIpv4 (text : List Char) : Option Ipv4 :=
  match Text.splitChars '.' text with
  | [a, b, c, d] =>
    if [a, b, c, d].all fun part => isIpv4Octet part && Text.decimal part ≤ 255 then
      some ⟨Text.decimal a, Text.decimal b, Text.decimal c, Text.decimal d⟩
    else none
  | _ => none

/-- One colon-separated run of hex groups; an empty run has none. -/
def parseHexGroups (segment : List Char) : Option (List ℕ) :=
  if segment.isEmpty then some []
  else (Text.splitChars ':' segment).mapM fun token =>
    if isIpv6Group token then some (hexadecimal token) else none

/-- `text.split('::')` -/
def splitElision : List Char → List (List Char)
  | ':' :: ':' :: rest => [] :: splitElision rest
  | c :: rest =>
    match splitElision rest with
    | [] => [[c]]
    | piece :: pieces => (c :: piece) :: pieces
  | [] => [[]]

def toGroups (values : List ℕ) : Option (List ℕ) :=
  if values.length = 8 then some values else none

/-- A trailing dotted quad rewritten to its two hex groups. -/
def withoutEmbeddedIpv4 (text : List Char) : Option (List Char) :=
  if text.contains '.' then
    (Text.splitLast ':' text).bind fun (head, tail) =>
      (parseIpv4 tail).map fun embedded =>
        head ++ ':' :: Nat.toDigits 16 (embedded.a * 256 + embedded.b) ++
          ':' :: Nat.toDigits 16 (embedded.c * 256 + embedded.d)
  else some text

/-- Eight groups, where `::` may stand for at least one zero group. -/
def parseIpv6 (text : List Char) : Option (List ℕ) :=
  (withoutEmbeddedIpv4 text).bind fun body =>
    match splitElision body with
    | [only] => (parseHexGroups only).bind toGroups
    | [head, tail] =>
      (parseHexGroups head).bind fun head =>
        (parseHexGroups tail).bind fun tail =>
          if 7 < head.length + tail.length then none
          else toGroups (head ++ List.replicate (8 - head.length - tail.length) 0 ++ tail)
    | _ => none

def classifyIpv4 (address : Ipv4) : AddressClass :=
  let a := address.a
  let b := address.b
  if a = 0 || a = 127 then .sinkhole
  else if a = 10 then .private
  else if a = 172 && 16 ≤ b && b ≤ 31 then .private
  else if a = 192 && b = 168 then .private
  else if a = 169 && b = 254 then .private
  else if a = 100 && 64 ≤ b && b ≤ 127 then .private
  else .public

def classifyIpv6 (groups : List ℕ) : AddressClass :=
  let first := groups.headD 0
  if groups.all (· = 0) then .sinkhole
  else if groups.getLast? = some 1 && groups.dropLast.all (· = 0) then .sinkhole
  else if first &&& 0xfe00 = 0xfc00 then .private
  else if first &&& 0xffc0 = 0xfe80 then .private
  else .public

/-- The address inside an IPv4-mapped one. -/
def mappedIpv4 : List ℕ → Option Ipv4
  | [0, 0, 0, 0, 0, 0xffff, seventh, eighth] =>
    some ⟨seventh / 256, seventh % 256, eighth / 256, eighth % 256⟩
  | _ => none

/-- Classify one resolved address; an IPv4-mapped one is judged as the address it is. -/
def classifyAddress (address : String) : AddressClass :=
  match parseIpv4 address.toList with
  | some v4 => classifyIpv4 v4
  | none =>
    match parseIpv6 address.toList with
    | none => .malformed
    | some groups =>
      match mappedIpv4 groups with
      | none => classifyIpv6 groups
      | some v4 => classifyIpv4 v4

example : classifyAddress "::ffff:10.0.0.1" = .private := by decide

end Portcall.Dns
