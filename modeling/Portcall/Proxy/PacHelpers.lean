import Portcall.Cli.Number
import Portcall.Library.Double
import Portcall.Library.InternetAddress
import Portcall.Proxy.Pac
import Portcall.Proxy.ShExpMatch
import Portcall.Report.JsonReading

/-! What a script is given to work with: four texts, and the helpers made of them. -/
namespace Portcall.Proxy
open RegExp InternetAddress

/-- A text as a script holds it. -/
def units (text : List Char) : List CodeUnit := (text.flatMap Text.codeUnits).map UInt16.ofNat

/-- `JSON.stringify(target)` -/
def stringifyTarget : Option ResolvedTarget → String
  | none => "null"
  | some target =>
    "\x7b\"host\":" ++ quote target.host ++ ",\"addresses\":[" ++
      Text.join "," (target.addresses.map quote) ++ "]\x7d"

/-- All that crosses into the sandbox. -/
structure PacHandoff where
  url : String
  host : String
  targetJson : String
  myAddress : String
  deriving DecidableEq, Repr

def PacCall.handoff (call : PacCall) : PacHandoff where
  url := call.url
  host := call.host
  targetJson := stringifyTarget call.resolvedTarget
  myAddress := call.myAddress

/-- What the helpers close over. -/
structure PacRealm where
  url : String
  host : String
  target : Option ResolvedTarget
  myAddress : String
  deriving DecidableEq, Repr

/-- The target in a parsed text, as the helpers read it. -/
def readTarget : Json → Option (Option ResolvedTarget)
  | .null => some none
  | tree => do
    let host ← tree.textAt "host"
    let addresses ← tree.itemsAt "addresses" Json.text
    return some { host, addresses }

/-- The bootstrap; `none` when it throws. -/
def bootstrap (handoff : PacHandoff) : Option PacRealm := do
  let tree ← Json.read handoff.targetJson
  let target ← readTarget tree
  return { url := handoff.url, host := handoff.host, target, myAddress := handoff.myAddress }

section Literals

/-- A dotted quad, parsed. -/
structure Octets where
  a : ℕ
  b : ℕ
  c : ℕ
  d : ℕ
  deriving DecidableEq, Repr

def Octets.value (octets : Octets) : ℕ :=
  ((octets.a * 256 + octets.b) * 256 + octets.c) * 256 + octets.d

/-- The character a code unit is, if it is one on its own. -/
def unitChar (c : CodeUnit) : Option Char :=
  if c.toNat < 0xd800 ∨ 0xe000 ≤ c.toNat then some (Char.ofNat c.toNat) else none

/-- `Number(text)`: nothing written with surrogates is a number. -/
def numberOf (text : List CodeUnit) : Cli.Number :=
  match text.mapM unitChar with
  | none => .nan
  | some chars => Cli.number (String.ofList chars)

/-- A whole number from 0 to 255, however it is spelled. -/
def octet (part : List CodeUnit) : Option ℕ :=
  match numberOf part with
  | .finite exact =>
    let value := closestDouble exact
    if value.den = 1 ∧ 0 ≤ value ∧ value ≤ 255 then some value.num.toNat else none
  | _ => none

def literalIpv4 (text : List CodeUnit) : Option Octets :=
  match (text.splitOn (unit '.')).mapM octet with
  | some [a, b, c, d] => some ⟨a, b, c, d⟩
  | _ => none

end Literals

section Helpers
variable (lower : List CodeUnit → List CodeUnit) (target : Option ResolvedTarget)

def matchesTarget (candidate : List CodeUnit) : Bool :=
  target.any fun target => lower candidate = lower (units target.host.toList)

def resolvedIpv4 (candidate : List CodeUnit) : Option Octets :=
  match target with
  | none => none
  | some known =>
    if matchesTarget lower target candidate then
      known.addresses.findSome? fun address => literalIpv4 (units address.toList)
    else none

def dnsResolve : ScriptValue → Option (List CodeUnit)
  | .text candidate =>
    match target with
    | none => none
    | some known =>
      if matchesTarget lower target candidate then
        known.addresses.head?.map fun address => units address.toList
      else none
  | .other => none

def isResolvable (candidate : ScriptValue) : Bool := (dnsResolve lower target candidate).isSome

/-- `(ip & mask) === (pattern & mask)`, octet by octet -/
def sameNet (ip pattern mask : Octets) : Bool :=
  ip.a &&& mask.a = pattern.a &&& mask.a && ip.b &&& mask.b = pattern.b &&& mask.b &&
    ip.c &&& mask.c = pattern.c &&& mask.c && ip.d &&& mask.d = pattern.d &&& mask.d

/-- The address of a candidate: its own if it is one, else one resolved beforehand. -/
def addressOf (candidate : List CodeUnit) : Option Octets :=
  (literalIpv4 candidate).or (resolvedIpv4 lower target candidate)

def isInNet : ScriptValue → ScriptValue → ScriptValue → Bool
  | .text candidate, .text pattern, .text mask =>
    match addressOf lower target candidate, literalIpv4 pattern, literalIpv4 mask with
    | some ip, some patternIp, some maskIp => sameNet ip patternIp maskIp
    | _, _, _ => false
  | _, _, _ => false

def isPlainHostName : ScriptValue → Bool
  | .text candidate => !candidate.contains (unit '.') && !candidate.contains (unit ':')
  | .other => false

def dnsDomainIs : ScriptValue → ScriptValue → Bool
  | .text candidate, .text domain =>
    domain.length ≤ candidate.length &&
      candidate.drop (candidate.length - domain.length) = domain
  | _, _ => false

def localHostOrDomainIs : ScriptValue → ScriptValue → Bool
  | .text candidate, .text fullyQualified =>
    candidate = fullyQualified ||
      (fullyQualified.contains (unit '.') &&
        candidate = fullyQualified.takeWhile (· ≠ unit '.'))
  | _, _ => false

end Helpers

section Handoff

def targetTree : Option ResolvedTarget → Json
  | none => .null
  | some target =>
    .object [("host", .string target.host),
      ("addresses", .array (target.addresses.map Json.string))]

lemma reads_quote (text : String) : Json.Reads (quote text).toList (.string text) :=
  writes_string text 0

lemma binds_quote (key : String) {value : List Char} {tree : Json} (h : Json.Reads value tree) :
    Json.Binds ((quote key).toList ++ ':' :: value) (key, tree) :=
  ⟨[], key.toList.flatMap quoteChar, value, by simp, quotes_quoteChar key, h,
    by rw [toList_quote, List.nil_append]⟩

lemma reads_addresses (addresses : List String) :
    Json.Reads ('[' :: ((Text.join "," (addresses.map quote)).toList ++ [']']))
      (.array (addresses.map Json.string)) := by
  by_cases hne : addresses = []
  · subst hne
    exact Json.reads_array_nil
  · have htexts : List.Forall₂ Json.Reads ((addresses.map quote).map String.toList)
        (addresses.map Json.string) := by
      rw [List.map_map, List.forall₂_map_left_iff, List.forall₂_map_right_iff]
      exact List.forall₂_same.mpr fun text _ => reads_quote text
    have hreads := @Json.reads_array [] _ _ htexts (by simpa using hne) (by simp)
    rw [Text.toList_join]
    exact hreads

lemma reads_stringifyTarget (target : Option ResolvedTarget) :
    Json.Reads (stringifyTarget target).toList (targetTree target) := by
  cases target with
  | none => exact Json.reads_null
  | some target =>
    have hmembers := List.Forall₂.cons (binds_quote "host" (reads_quote target.host))
      (.cons (binds_quote "addresses" (reads_addresses target.addresses)) .nil)
    have hreads := @Json.reads_object [] _ _ hmembers (List.cons_ne_nil _ _) (by simp)
    have hkeys : quote "host" = "\"host\"" ∧ quote "addresses" = "\"addresses\"" := by decide
    have htext : (stringifyTarget (some target)).toList = '\x7b' :: ([','].intercalate
        [(quote "host").toList ++ ':' :: (quote target.host).toList,
          (quote "addresses").toList ++
            ':' :: '[' :: ((Text.join "," (target.addresses.map quote)).toList ++ [']'])] ++
        ([] ++ ['\x7d'])) := by
      simp [stringifyTarget, hkeys]
    rwa [htext]

lemma readTarget_targetTree (target : Option ResolvedTarget) :
    readTarget (targetTree target) = some target := by
  cases target with
  | none => rfl
  | some target =>
    have haddresses := mapM_map (fun _ => rfl : ∀ text, Json.text (Json.string text) = some text)
      target.addresses
    simp [readTarget, targetTree, Json.textAt, Json.itemsAt, Json.field, Json.items, Json.text,
      List.lookup_cons, haddresses]

/-- The bootstrap never throws, and what the shell resolved is what the helpers know, whatever
characters its texts hold. -/
theorem bootstrap_handoff (call : PacCall) : bootstrap call.handoff =
    some ⟨call.url, call.host, call.resolvedTarget, call.myAddress⟩ := by
  have hread := @Json.read_of_reads _ "" _ (reads_stringifyTarget call.resolvedTarget) (by simp)
  rw [String.append_empty] at hread
  simp [bootstrap, PacCall.handoff, hread, readTarget_targetTree]

end Handoff

section Quads
variable {lower : List CodeUnit → List CodeUnit} {target : Option ResolvedTarget}
  {candidate : List CodeUnit} {text : List Char} {value : ℕ}

/-- The octets of a parsed quad are octets. -/
def Octets.Small (octets : Octets) : Prop :=
  octets.a < 256 ∧ octets.b < 256 ∧ octets.c < 256 ∧ octets.d < 256

lemma Octets.Small.value_lt {octets : Octets} (h : octets.Small) : octets.value < 2 ^ 32 := by
  obtain ⟨ha, hb, hc, hd⟩ := h
  unfold Octets.value
  omega

lemma octet_lt {part : List CodeUnit} {n : ℕ} (h : octet part = some n) : n < 256 := by
  unfold octet at h
  split at h
  · rename_i exact _
    dsimp only at h
    split_ifs at h with hvalue
    cases h
    obtain ⟨hden, -, hle⟩ := hvalue
    rw [← (Rat.den_eq_one_iff _).mp hden] at hle
    have hnum : (closestDouble exact).num ≤ 255 := by exact_mod_cast hle
    omega
  · cases h

lemma octets_lt {parts : List (List CodeUnit)} {octets : List ℕ}
    (h : parts.mapM octet = some octets) : ∀ n ∈ octets, n < 256 := by
  induction parts generalizing octets with
  | nil =>
    cases h
    simp
  | cons part parts ih =>
    rw [List.mapM_cons] at h
    obtain ⟨n, hn, hrest⟩ := Option.bind_eq_some_iff.mp h
    obtain ⟨others, hothers, heq⟩ := Option.bind_eq_some_iff.mp hrest
    cases heq
    exact List.forall_mem_cons.mpr ⟨octet_lt hn, ih hothers⟩

lemma small_of_literalIpv4 {octets : Octets} (h : literalIpv4 candidate = some octets) :
    octets.Small := by
  unfold literalIpv4 at h
  split at h
  · rename_i a b c d hparts
    cases h
    have hlt := octets_lt hparts
    simpa [Octets.Small] using hlt
  · cases h

lemma small_of_addressOf {octets : Octets} (h : addressOf lower target candidate = some octets) :
    octets.Small := by
  rcases Option.or_eq_some_iff.mp h with h | ⟨-, h⟩
  · exact small_of_literalIpv4 h
  · unfold resolvedIpv4 at h
    split at h
    · cases h
    · split_ifs at h
      obtain ⟨_, address, _, _, haddress, -⟩ := List.findSome?_eq_some_iff.mp h
      exact small_of_literalIpv4 haddress

lemma units_digits {digits : List Char} (h : ∀ c ∈ digits, c.isDigit = true) :
    units digits = digits.map unit ∧ (units digits).mapM unitChar = some digits := by
  induction digits with
  | nil => exact ⟨rfl, rfl⟩
  | cons c digits ih =>
    rw [List.forall_mem_cons] at h
    obtain ⟨hmap, hread⟩ := ih h.2
    have hc : c.toNat < 58 := by
      have hdigit := h.1
      simp only [Char.isDigit, Bool.and_eq_true, decide_eq_true_eq] at hdigit
      exact Nat.lt_succ_of_le hdigit.2
    have hcons : units (c :: digits) = unit c :: units digits := by
      simp [units, Text.codeUnits, unit, show c.toNat < 0x10000 by omega]
    have hunit : unitChar (unit c) = some c := by
      have hvalue : (unit c).toNat = c.toNat := by
        simp [unit]
        omega
      rw [unitChar, hvalue, if_pos (Or.inl (by omega)), Char.ofNat_toNat]
    refine ⟨by rw [hcons, hmap, List.map_cons], ?_⟩
    rw [hcons, List.mapM_cons, hunit, hread]
    rfl

lemma octet_toDigits {n : ℕ} (h : n ≤ 255) : octet (units (Nat.toDigits 10 n)) = some n := by
  have hdigits : ∀ c ∈ Nat.toDigits 10 n, c.isDigit = true := fun c hm =>
    Nat.isDigit_of_mem_toDigits (by decide) (by decide) hm
  have hnumber : numberOf (units (Nat.toDigits 10 n)) = .finite n := by
    rw [numberOf, (units_digits hdigits).2]
    exact Cli.number_toString n
  have hdouble : closestDouble (n : ℚ) = n := closestDouble_natCast (by omega)
  unfold octet
  rw [hnumber]
  dsimp only
  rw [hdouble, if_pos ⟨Rat.den_natCast n, Nat.cast_nonneg n, by exact_mod_cast h⟩]
  simp

lemma units_intercalate (parts : List (List Char)) :
    units (['.'].intercalate parts) = [unit '.'].intercalate (parts.map units) := by
  have happend : ∀ left right : List Char, units (left ++ right) = units left ++ units right := by
    intro left right
    rw [units, List.flatMap_append, List.map_append]
    rfl
  induction parts with
  | nil => rfl
  | cons part parts ih =>
    cases parts with
    | nil => simp
    | cons next parts =>
      rw [List.intercalate_cons_cons, happend, happend, ih]
      simp only [List.map_cons, List.intercalate_cons_cons]
      rfl

lemma dot_not_mem_units {digits : List Char} (h : ∀ c ∈ digits, c.isDigit = true) :
    unit '.' ∉ units digits := by
  rw [(units_digits h).1]
  intro hm
  obtain ⟨c, hc, hunit⟩ := List.mem_map.mp hm
  have hdigit := h c hc
  simp only [Char.isDigit, Bool.and_eq_true, decide_eq_true_eq] at hdigit
  have hge : 48 ≤ c.toNat := hdigit.1
  have hle : c.toNat ≤ 57 := hdigit.2
  have hvalue := congrArg UInt16.toNat hunit
  simp [unit] at hvalue
  omega

/-- A dotted quad is read as the octets it is made of. -/
lemma literalIpv4_quad (h : DottedQuad text value) :
    ∃ octets, literalIpv4 (units text) = some octets ∧ octets.value = value := by
  cases h with
  | @mk a b c d ha hb hc hd =>
    refine ⟨⟨a, b, c, d⟩, ?_, rfl⟩
    have hdigits : ∀ n : ℕ, unit '.' ∉ units (Nat.toDigits 10 n) := fun n =>
      dot_not_mem_units fun c hm => Nat.isDigit_of_mem_toDigits (by decide) (by decide) hm
    have hsplit : (units (['.'].intercalate ([a, b, c, d].map (Nat.toDigits 10)))).splitOn
        (unit '.') = ([a, b, c, d].map (Nat.toDigits 10)).map units := by
      rw [units_intercalate]
      refine List.splitOn_intercalate _ (fun part hm => ?_) (by simp)
      obtain ⟨digits, hdigits', rfl⟩ := List.mem_map.mp hm
      obtain ⟨n, -, rfl⟩ := List.mem_map.mp hdigits'
      exact hdigits n
    rw [literalIpv4, hsplit]
    simp [List.mapM_cons, octet_toDigits ha, octet_toDigits hb, octet_toDigits hc,
      octet_toDigits hd]

/-- Octet by octet is all at once. -/
lemma sameNet_iff {ip pattern mask : Octets} (hip : ip.Small) (hpattern : pattern.Small)
    (hmask : mask.Small) :
    sameNet ip pattern mask = true ↔ ip.value &&& mask.value = pattern.value &&& mask.value := by
  have hland : ∀ {x y m n : ℕ}, y < 256 → n < 256 →
      (x * 256 + y) &&& (m * 256 + n) = (x &&& m) * 256 + (y &&& n) := by
    intro x y m n hy hn
    have h := @land_two_pow 8 x m y n hy hn
    rwa [mul_comm _ x, mul_comm _ m, mul_comm _ (x &&& m)] at h
  have hlt : ∀ {x n : ℕ}, n < 256 → x &&& n < 256 := fun hn => Nat.and_lt_two_pow _ (n := 8) hn
  obtain ⟨ha, hb, hc, hd⟩ := hip
  obtain ⟨ha', hb', hc', hd'⟩ := hpattern
  obtain ⟨hma, hmb, hmc, hmd⟩ := hmask
  simp only [Octets.value, hland hd hmd, hland hc hmc, hland hb hmb, hland hd' hmd, hland hc' hmc,
    hland hb' hmb, sameNet, Bool.and_eq_true, decide_eq_true_eq]
  have h1 := @hlt ip.b _ hmb
  have h2 := @hlt ip.c _ hmc
  have h3 := @hlt ip.d _ hmd
  have h4 := @hlt pattern.b _ hmb
  have h5 := @hlt pattern.c _ hmc
  have h6 := @hlt pattern.d _ hmd
  omega

/-- With a network and a mask that are dotted quads, and the mask one that sets the first bits, the
answer is whether the candidate's address shares these bits with the network. -/
theorem isInNet_prefix {pattern mask : List Char} {net bits : ℕ} (hnet : DottedQuad pattern net)
    (hbits : bits ≤ 32) (hmask : DottedQuad mask (prefixMask bits)) :
    isInNet lower target (.text candidate) (.text (units pattern)) (.text (units mask)) = true ↔
      ∃ ip, addressOf lower target candidate = some ip ∧
        ip.value / 2 ^ (32 - bits) = net / 2 ^ (32 - bits) := by
  obtain ⟨patternIp, hpattern, rfl⟩ := literalIpv4_quad hnet
  obtain ⟨maskIp, hmask', hvalue⟩ := literalIpv4_quad hmask
  unfold isInNet
  dsimp only
  rw [hpattern, hmask']
  cases haddress : addressOf lower target candidate with
  | none => simp
  | some ip =>
    have hip := small_of_addressOf haddress
    have hsmall := small_of_literalIpv4 hpattern
    dsimp only
    rw [sameNet_iff hip hsmall (small_of_literalIpv4 hmask'), hvalue,
      land_prefixMask_inj hip.value_lt hsmall.value_lt hbits]
    simp

theorem isInNet_prefix_ten :
    isInNet id none (.text (units "10.1.2.3".toList)) (.text (units "10.0.0.0".toList))
        (.text (units "255.0.0.0".toList)) = true ↔
      ∃ ip, addressOf id none (units "10.1.2.3".toList) = some ip ∧
        ip.value / 2 ^ (32 - 8) = 0x0a000000 / 2 ^ (32 - 8) :=
  isInNet_prefix
    (@DottedQuad.mk 10 0 0 0 (by decide) (by decide) (by decide) (by decide)) (by decide)
    (@DottedQuad.mk 255 0 0 0 (by decide) (by decide) (by decide) (by decide))

/-- Of any other host than the one resolved beforehand the helpers know nothing. -/
theorem helpers_other (h : matchesTarget lower target candidate = false) (pattern mask : ScriptValue) :
    dnsResolve lower target (.text candidate) = none ∧
      isInNet lower target (.text candidate) pattern mask =
        isInNet lower none (.text candidate) pattern mask := by
  have hresolved : resolvedIpv4 lower target candidate = none := by
    unfold resolvedIpv4
    split
    · rfl
    · rw [h]
      rfl
  have haddress : addressOf lower target candidate = addressOf lower none candidate := by
    rw [addressOf, addressOf, hresolved]
    rfl
  refine ⟨?_, ?_⟩
  · unfold dnsResolve
    dsimp only
    split
    · rfl
    · rw [h]
      rfl
  · cases pattern <;> cases mask <;> simp [isInNet, haddress]

end Quads

section Names
variable {candidate : List CodeUnit}

lemma dnsDomainIs_iff {domain : List CodeUnit} :
    dnsDomainIs (.text candidate) (.text domain) = true ↔ domain <:+ candidate := by
  simp only [dnsDomainIs, Bool.and_eq_true, decide_eq_true_eq]
  rw [List.suffix_iff_eq_drop]
  constructor
  · rintro ⟨-, h⟩
    exact h.symm
  · intro h
    refine ⟨?_, h.symm⟩
    rw [h, List.length_drop]
    omega

/-- A name in full, or what is in front of its first dot. -/
lemma localHostOrDomainIs_iff {fullyQualified : List CodeUnit} :
    localHostOrDomainIs (.text candidate) (.text fullyQualified) = true ↔
      candidate = fullyQualified ∨
        unit '.' ∉ candidate ∧ ∃ rest, fullyQualified = candidate ++ unit '.' :: rest := by
  simp only [localHostOrDomainIs, Bool.or_eq_true, Bool.and_eq_true, decide_eq_true_eq,
    List.contains_iff_mem]
  refine or_congr_right ⟨?_, ?_⟩
  · rintro ⟨hdot, rfl⟩
    have hsplit := @List.takeWhile_append_dropWhile _ (· ≠ unit '.') fullyQualified
    refine ⟨fun hm => ?_, ?_⟩
    · have hall := List.mem_takeWhile_imp hm
      simp at hall
    · cases hrest : fullyQualified.dropWhile (· ≠ unit '.') with
      | nil =>
        have hnone := List.dropWhile_eq_nil_iff.mp hrest _ hdot
        simp at hnone
      | cons c rest =>
        have hc : c = unit '.' := by
          have hhead := List.head?_dropWhile_not (· ≠ unit '.') fullyQualified
          rw [hrest] at hhead
          simpa using hhead
        rw [hrest, hc] at hsplit
        exact ⟨rest, hsplit.symm⟩
  · rintro ⟨hdot, rest, rfl⟩
    refine ⟨by simp, ?_⟩
    have hnot : ∀ c ∈ candidate, decide (c ≠ unit '.') = true := by
      intro c hm
      rw [decide_eq_true_eq]
      rintro rfl
      exact hdot hm
    rw [List.takeWhile_append_of_pos hnot]
    simp

end Names

end Portcall.Proxy
