import Portcall.Seams

/-! The authentication scheme a proxy demands, and nothing else of its challenge. -/
namespace Portcall.Proxy

/-- `\w` -/
def isWordChar (c : Char) : Bool := Text.isAlphanumeric c || c = '_'

/-- The text starts with this word, whatever its case, and the word ends there. -/
def startsWithWord (word : List Char) (text : List Char) : Bool :=
  word.isPrefixOf (text.map Char.toLower) && !((text.drop word.length).head?.any isWordChar)

/-- A known scheme at the head of a text. -/
def schemeAt (text : List Char) : Option AuthScheme :=
  if startsWithWord ['n', 'e', 'g', 'o', 't', 'i', 'a', 't', 'e'] text then some .negotiate
  else if startsWithWord ['n', 't', 'l', 'm'] text then some .ntlm
  else if startsWithWord ['b', 'a', 's', 'i', 'c'] text then some .basic
  else none

/-- The earliest known scheme that starts where no word is under way. -/
def earliestScheme (inWord : Bool) : List Char → Option AuthScheme
  | [] => none
  | c :: rest =>
    (if inWord then none else schemeAt (c :: rest)).orElse fun _ =>
      earliestScheme (isWordChar c) rest

def classifyAuthScheme (headerValue : Option String) : AuthScheme :=
  match headerValue with
  | none => .none
  | some header =>
    let trimmed := Text.trimChars header.toList
    if trimmed.isEmpty then .none else (earliestScheme false trimmed).getD .unknown

example : classifyAuthScheme (some "Basic realm=ntlm, Negotiate") = .basic := by decide

end Portcall.Proxy
