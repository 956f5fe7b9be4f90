import Portcall.Seams

/-! `NO_PROXY`: each comma-separated entry against a closed list of issues, and the declared
targets a valid one exempts. -/
namespace Portcall.Proxy

inductive NoProxyEntryIssue where
  | ok
  | empty
  | containsScheme
  | containsPortWithWildcard
  | invalidHostname
  | wildcardNotLeading
  deriving DecidableEq, Repr

def NoProxyEntryIssue.text : NoProxyEntryIssue → String
  | .ok => "ok"
  | .empty => "empty"
  | .containsScheme => "contains-scheme"
  | .containsPortWithWildcard => "contains-port-with-wildcard"
  | .invalidHostname => "invalid-hostname"
  | .wildcardNotLeading => "wildcard-not-leading"

structure NoProxyEntry where
  raw : String
  issue : NoProxyEntryIssue
  matchedTargets : List HostPort
  deriving DecidableEq, Repr

/-- Between one and `limit` decimal digits. -/
def isDigits (limit : ℕ) (text : List Char) : Bool :=
  1 ≤ text.length && text.length ≤ limit && text.all Text.isDigit

/-- `/^\d{1,3}(?:\.\d{1,3}){3}\/\d{1,2}$/` -/
def isIpv4Cidr (text : List Char) : Bool :=
  match Text.splitChars '/' text with
  | [address, bits] =>
    let octets := Text.splitChars '.' address
    octets.length = 4 && octets.all (isDigits 3) && isDigits 2 bits
  | _ => false

def isValidHostname (text : List Char) : Bool :=
  !text.isEmpty && (Text.splitChars '.' text).all isHostLabel

/-- Split a trailing `:port` off an entry. -/
def splitPort (text : List Char) : List Char × Option ℕ :=
  match Text.splitLast ':' text with
  | none => (text, none)
  | some (base, portText) =>
    if !portText.isEmpty && portText.all Text.isDigit then (base, some (Text.decimal portText))
    else (text, none)

def classify (entry : List Char) : NoProxyEntryIssue :=
  if entry.isEmpty then .empty
  else if Text.includesChars [':', '/', '/'] entry then .containsScheme
  else
    let wildcardIndex := entry.findIdx? (· = '*')
    if wildcardIndex.any (· ≠ 0) then .wildcardNotLeading
    else
      let hasWildcard := wildcardIndex = some 0
      let (base, port) := splitPort entry
      if hasWildcard && port.isSome then .containsPortWithWildcard
      else if isIpv4Cidr base then .ok
      else
        let unstarred := if hasWildcard then base.drop 1 else base
        let hostPart := if unstarred.head? = some '.' then unstarred.drop 1 else unstarred
        if hostPart.isEmpty then if hasWildcard then .ok else .invalidHostname
        else if isValidHostname hostPart then .ok
        else .invalidHostname

section Matches
variable (ext : Externals)

def lowerChars (text : List Char) : List Char := (ext.toLowerCase (String.ofList text)).toList

/-- A domain-suffix match; a leading dot also matches the bare domain. -/
def matchSuffix (suffix : List Char) (targets : List HostPort) : List HostPort :=
  if suffix.isEmpty then targets
  else
    let lower := lowerChars ext suffix
    if lower.head? ≠ some '.' then
      targets.filter fun target => lower.isSuffixOf (ext.toLowerCase target.host).toList
    else
      targets.filter fun target =>
        let host := (ext.toLowerCase target.host).toList
        host = lower.drop 1 || lower.isSuffixOf host

/-- The targets a valid entry exempts. -/
def «matches» (entry : List Char) (targets : List HostPort) : List HostPort :=
  if isIpv4Cidr entry then []
  else
    let (base, port) := splitPort entry
    let onPort := match port with
      | none => targets
      | some port => targets.filter fun target => target.port = port
    if base = ['*'] then onPort
    else if base.head? = some '*' then matchSuffix ext (base.drop 1) onPort
    else if base.head? = some '.' then matchSuffix ext base onPort
    else onPort.filter fun target => (ext.toLowerCase target.host).toList = lowerChars ext base

def validateNoProxy (rawValue : String) (targets : List HostPort) : List NoProxyEntry :=
  if Text.trim rawValue = "" then []
  else (Text.splitChars ',' rawValue.toList).map fun piece =>
    let raw := Text.trimChars piece
    let issue := classify raw
    { raw := String.ofList raw
      issue
      matchedTargets := if issue = .ok then «matches» ext raw targets else [] }

end Matches
end Portcall.Proxy
