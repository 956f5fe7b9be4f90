import Portcall.Seams

/-! Environment variables and the proxy URLs read from them. -/
namespace Portcall

abbrev Environment := String → Option String

/-- The value of a variable, in either case, trimmed; `none` when unset or blank. -/
def readEnvVar (ext : Externals) (env : Environment) (name : String) : Option String :=
  let value := (env name).orElse fun _ => env (ext.toLowerCase name)
  (value.map Text.trim).filter (fun trimmed => trimmed ≠ "")

def isSchemeChar (c : Char) : Bool := Text.isAlphanumeric c || c = '+' || c = '.' || c = '-'

/-- `/^[a-z][a-z0-9+.-]*:\/\//i` -/
def hasScheme (raw : String) : Bool :=
  match raw.toList with
  | [] => false
  | c :: rest =>
    Text.isAlphanumeric c && !Text.isDigit c &&
      [':', '/', '/'].isPrefixOf (rest.dropWhile isSchemeChar)

/-- The host and port of a proxy URL; credentials in it are never read. -/
def parseProxyUrl (ext : Externals) (raw : String) : Option HostPort :=
  let withScheme := if hasScheme raw then raw else "http://" ++ raw
  (ext.parseUrl withScheme).bind fun parsed =>
    if parsed.hostname = "" then none
    else some
      { host := parsed.hostname
        port :=
          if parsed.port ≠ "" then Text.decimal parsed.port.toList
          else if parsed.protocol = "https:" then 443
          else 80 }

end Portcall
