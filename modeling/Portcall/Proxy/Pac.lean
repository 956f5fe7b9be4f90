import Portcall.Seams

/-! PAC evaluation: what a script is asked, and the verdict its answer is parsed into. -/
namespace Portcall.Proxy

def maxScriptBytes : ℕ := 1000000

/-- The one answer an evaluation may resolve names from. -/
structure ResolvedTarget where
  host : String
  addresses : List String
  deriving DecidableEq, Repr

/-- One request to a script. -/
structure PacCall where
  url : String
  host : String
  scriptText : String
  resolvedTarget : Option ResolvedTarget
  myAddress : String
  /-- The clock, in milliseconds. -/
  now : ℤ
  deriving DecidableEq, Repr

inductive PacVerdict where
  | proxy (via : HostPort)
  | direct
  | unresolved
  | error
  deriving DecidableEq, Repr

/-- What running a script ends in: nothing when it threw, did not compile or was stopped, else
what it returned, which may be no string. -/
abbrev PacEngine := PacCall → Option (Option String)

/-- The text after a word, whatever the case it is written in. -/
def afterWord (word : List Char) (text : List Char) : Option (List Char) :=
  if word.isPrefixOf (text.map Char.toUpper) then some (text.drop word.length) else none

/-- A character of a proxy's host: `[^\s:]`. -/
def isProxyHostChar (c : Char) : Bool := !Text.isWhitespace c && c ≠ ':'

/-- `/^(?:PROXY|HTTP)\s+([^\s:]+):(\d+)$/i`, its two groups. -/
def proxyEntry (entry : List Char) : Option (List Char × List Char) :=
  ((afterWord ['P', 'R', 'O', 'X', 'Y'] entry).orElse fun _ =>
      afterWord ['H', 'T', 'T', 'P'] entry).bind fun rest =>
    let text := rest.dropWhile Text.isWhitespace
    let host := text.takeWhile isProxyHostChar
    match text.dropWhile isProxyHostChar with
    | ':' :: port =>
      if rest.head?.any Text.isWhitespace && !host.isEmpty && !port.isEmpty &&
          port.all Text.isDigit then
        some (host, port)
      else none
    | _ => none

/-- The verdict in what a script returned: the first entry of its chain, if it can be acted on. -/
def parseVerdict : Option String → PacVerdict
  | none => .unresolved
  | some raw =>
    let first := Text.trimChars ((Text.splitChars ';' raw.toList).headD [])
    if first.map Char.toUpper = ['D', 'I', 'R', 'E', 'C', 'T'] then .direct
    else match proxyEntry first with
      | none => .unresolved
      | some (host, portText) =>
        let port := Text.decimal portText
        if 0 < port && port ≤ 65535 then .proxy ⟨String.ofList host, port⟩ else .unresolved

/-- Evaluate a script; one that is too long is never run. -/
def evaluatePac (engine : PacEngine) (call : PacCall) : PacVerdict :=
  if maxScriptBytes < (Text.utf16 call.scriptText).length then .error
  else match engine call with
    | none => .error
    | some raw => parseVerdict raw

example : parseVerdict (some "proxy a.corp:8080; DIRECT") = .proxy ⟨"a.corp", 8080⟩ := by decide

lemma colon_not_mem_of_proxyEntry {entry host port : List Char}
    (h : proxyEntry entry = some (host, port)) : ':' ∉ host := by
  obtain ⟨rest, -, hrest⟩ := Option.bind_eq_some_iff.mp h
  dsimp only at hrest
  split at hrest
  · split_ifs at hrest
    cases hrest
    intro hm
    have hall := List.all_takeWhile (p := isProxyHostChar) (l := rest.dropWhile Text.isWhitespace)
    have := List.all_eq_true.mp hall _ hm
    simp [isProxyHostChar] at this
  · cases hrest

/-- A proxy a script names has no colon in its host. -/
lemma colon_not_mem_host_of_parseVerdict {raw : Option String} {via : HostPort}
    (h : parseVerdict raw = .proxy via) : ':' ∉ via.host.toList := by
  cases raw with
  | none => cases h
  | some raw =>
    unfold parseVerdict at h
    dsimp only at h
    split_ifs at h
    split at h
    · cases h
    · rename_i host portText hentry
      split_ifs at h
      cases h
      rw [String.toList_ofList]
      exact colon_not_mem_of_proxyEntry hentry

lemma colon_not_mem_host_of_evaluatePac {engine : PacEngine} {call : PacCall} {via : HostPort}
    (h : evaluatePac engine call = .proxy via) : ':' ∉ via.host.toList := by
  unfold evaluatePac at h
  split_ifs at h
  split at h
  · cases h
  · exact colon_not_mem_host_of_parseVerdict h

end Portcall.Proxy
