import Portcall.Text

/-! What the code calls and this repository does not hold: the certificate parser, the URL
parser, the path join of the host platform, and the Unicode tables behind lower-casing. -/
namespace Portcall

/-- `Name.toJSON()`: relative distinguished names in order, each with its attribute types
and, for every type, its values. -/
abbrev Rdn := List (String × List String)
abbrev Name := List Rdn

/-- One entry of a subject alternative name extension. -/
structure GeneralName where
  type : String
  value : String
  deriving DecidableEq, Repr

/-- The fields this tool reads off a parsed certificate. Times are in milliseconds. -/
structure X509Certificate where
  rawData : List UInt8
  subject : String
  issuer : String
  subjectName : Name
  issuerName : Name
  serialNumber : String
  notBefore : ℤ
  notAfter : ℤ
  /-- The entries of extension 2.5.29.17, `none` when the certificate has no such extension. -/
  subjectAltName : Option (List GeneralName)
  deriving DecidableEq, Repr

/-- The parts of a parsed URL that are read; credentials never are. -/
structure Url where
  hostname : String
  /-- Decimal digits, empty when the URL names no port or its scheme's default one. -/
  port : String
  protocol : String
  deriving DecidableEq, Repr

inductive Platform where
  | darwin
  | win32
  | linux
  | other (name : String)
  deriving DecidableEq, Repr

/-- A parser that throws is one that returns `none`. -/
structure Externals where
  /-- `new X509Certificate(pem)` -/
  x509 : String → Option X509Certificate
  /-- `new X509Certificate(der)` -/
  x509Der : List UInt8 → Option X509Certificate
  /-- `new URL(text)` -/
  parseUrl : String → Option Url
  /-- `posix.join` or `win32.join`, whichever spelling the platform asks for. -/
  pathJoin : Platform → List String → String
  /-- Lower-casing of a string that is not all ASCII: the engine's own Unicode tables. -/
  unicodeLower : String → String
  /-- The character a regular expression compares by when it ignores case, for one that is a code
  unit of its own. -/
  canonicalize : Char → Char := Char.toUpper

/-- `text.toLowerCase()`. -/
def Externals.toLowerCase (ext : Externals) (s : String) : String :=
  if s.toList.all (fun c => c.toNat < 128) then String.ofList (s.toList.map Char.toLower)
  else ext.unicodeLower s

lemma Externals.toLowerCase_ascii (ext : Externals) {s : String}
    (h : ∀ c ∈ s.toList, c.toNat < 128) :
    ext.toLowerCase s = String.ofList (s.toList.map Char.toLower) := by
  have hall : s.toList.all (fun c => c.toNat < 128) = true := by
    simpa using h
  simp only [toLowerCase, hall, if_true]

/-- What the report code calls besides. -/
structure ReportExternals extends Externals where
  /-- The first twelve digits of the SHA-256 of a salt, a space and a value. -/
  digest : String → String → String
  /-- `left.localeCompare(right)` -/
  localeCompare : String → String → ℤ
  /-- The protocol of `new URL(text)`, and its `toString()`. -/
  hrefOf : String → Option (String × String)

/-- The result of a JavaScript function that may throw; `none` when it did. -/
abbrev Throwing (α : Type) := Option α

end Portcall
