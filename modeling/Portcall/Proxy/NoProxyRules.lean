import Portcall.Proxy.Accounting

/-! What an entry of `NO_PROXY` says: a rule in one of six notations, and the targets the rule
covers. The two passes over an entry, which cut it up each in its own way, agree on it. -/
namespace Portcall.Proxy

/-- One to 63 letters, digits and hyphens, with no hyphen at either end. -/
structure IsLabel (label : List Char) : Prop where
  length : 1 ≤ label.length ∧ label.length ≤ 63
  chars : ∀ c ∈ label, Text.isAlphanumeric c = true ∨ c = '-'
  head : label.head? ≠ some '-'
  last : label.getLast? ≠ some '-'

/-- A name: labels with dots between them. -/
structure Domain where
  labels : List (List Char)
  ne_nil : labels ≠ []
  label : ∀ label ∈ labels, IsLabel label

def Domain.text (domain : Domain) : List Char := ['.'].intercalate domain.labels

/-- A port, as it is written. -/
structure Digits where
  text : List Char
  ne_nil : text ≠ []
  digit : ∀ c ∈ text, Text.isDigit c = true

def Digits.value (digits : Digits) : ℕ := Text.decimal digits.text

/-- A block of addresses, as it is written: four octets and a length. -/
structure Block where
  octets : List (List Char)
  bits : List Char
  four : octets.length = 4
  octet : ∀ octet ∈ octets,
    (1 ≤ octet.length ∧ octet.length ≤ 3) ∧ ∀ c ∈ octet, Text.isDigit c = true
  bit : (1 ≤ bits.length ∧ bits.length ≤ 2) ∧ ∀ c ∈ bits, Text.isDigit c = true

def Block.text (block : Block) : List Char := ['.'].intercalate block.octets ++ '/' :: block.bits

inductive NoProxyRule where
  | everything
  | name (domain : Domain) (port : Option Digits)
  | dotted (domain : Domain) (port : Option Digits)
  | starDotted (domain : Domain)
  | starred (domain : Domain)
  | block (addresses : Block)

/-- The end of an entry with this port. -/
def portText (port : Option Digits) : List Char :=
  (port.map fun digits => ':' :: digits.text).getD []

/-- A text in lower case. -/
def lowered (text : List Char) : List Char := text.map Char.toLower

namespace NoProxyRule

def text : NoProxyRule → List Char
  | everything => ['*']
  | name domain port => domain.text ++ portText port
  | dotted domain port => '.' :: domain.text ++ portText port
  | starDotted domain => '*' :: '.' :: domain.text
  | starred domain => '*' :: domain.text
  | block addresses => addresses.text

/-- The targets a rule exempts; a block exempts none, since no target is an address here. -/
def Covers (rule : NoProxyRule) (target : HostPort) : Prop :=
  let host := lowered target.host.toList
  let within (domain : Domain) : Prop :=
    host = lowered domain.text ∨ '.' :: lowered domain.text <:+ host
  let onPort (port : Option Digits) : Prop := ∀ digits ∈ port, target.port = digits.value
  match rule with
  | everything => True
  | name domain port => host = lowered domain.text ∧ onPort port
  | dotted domain port => within domain ∧ onPort port
  | starDotted domain => within domain
  | starred domain => lowered domain.text <:+ host
  | block _ => False

end NoProxyRule

section Labels

lemma isHostLabel_iff {label : List Char} : isHostLabel label = true ↔ IsLabel label := by
  unfold isHostLabel
  simp only [Bool.and_eq_true, decide_eq_true_eq, List.all_eq_true, Bool.or_eq_true]
  constructor
  · rintro ⟨⟨⟨hlength, hchars⟩, hhead⟩, hlast⟩
    refine ⟨hlength, hchars, fun he => ?_, fun he => ?_⟩
    · rw [he] at hhead
      exact absurd hhead (by decide)
    · rw [he] at hlast
      exact absurd hlast (by decide)
  · intro h
    refine ⟨⟨⟨h.length, h.chars⟩, ?_⟩, ?_⟩
    · cases hhead : label.head? with
      | none => rfl
      | some c =>
        refine (h.chars c (List.mem_of_mem_head? hhead)).resolve_right fun hc => h.head ?_
        rw [hhead, hc]
    · cases hlast : label.getLast? with
      | none => rfl
      | some c =>
        refine (h.chars c (List.mem_of_getLast? hlast)).resolve_right fun hc => h.last ?_
        rw [hlast, hc]

namespace Domain
variable (domain : Domain) {c : Char}

@[simp] lemma splitChars_text : Text.splitChars '.' domain.text = domain.labels := by
  refine (Text.splitChars_eq_iff domain.ne_nil).mpr ⟨fun label hm hdot => ?_, rfl⟩
  rcases (domain.label label hm).chars _ hdot with h | h <;> exact absurd h (by decide)

lemma char_of_mem (h : c ∈ domain.text) : Text.isAlphanumeric c = true ∨ c = '-' ∨ c = '.' := by
  rcases @Text.mem_splitChars '.' _ _ h with hdot | ⟨label, hm, hc⟩
  · exact Or.inr (Or.inr hdot)
  · rw [splitChars_text] at hm
    exact ((domain.label label hm).chars c hc).imp id Or.inl

/-- A domain is written in the characters of names only. -/
lemma not_mem_text (halpha : Text.isAlphanumeric c = false) (hc : c ≠ '-' ∧ c ≠ '.') :
    c ∉ domain.text := by
  intro h
  rcases domain.char_of_mem h with ha | rfl | rfl
  · rw [halpha] at ha
    cases ha
  · exact hc.1 rfl
  · exact hc.2 rfl

lemma head?_text : domain.text ≠ [] ∧ domain.text.head? ≠ some '.' := by
  have hempty : [] ∉ domain.labels := fun hm => by
    have := (domain.label [] hm).length.1
    simp at this
  constructor
  · intro h
    have hsplit := domain.splitChars_text
    rw [h] at hsplit
    exact hempty (hsplit ▸ List.mem_singleton_self _)
  · intro h
    obtain ⟨rest, h⟩ := List.head?_eq_some_iff.mp h
    have hsplit := domain.splitChars_text
    rw [h, Text.splitChars, if_pos rfl] at hsplit
    exact hempty (hsplit ▸ List.mem_cons_self)

lemma isValidHostname_text : isValidHostname domain.text = true := by
  rw [isValidHostname, splitChars_text, Bool.and_eq_true, List.all_eq_true]
  exact ⟨by simpa using domain.head?_text.1,
    fun label hm => isHostLabel_iff.mpr (domain.label label hm)⟩

end Domain

lemma exists_domain {text : List Char} (h : isValidHostname text = true) :
    ∃ domain : Domain, domain.text = text := by
  rw [isValidHostname, Bool.and_eq_true, List.all_eq_true] at h
  exact ⟨⟨Text.splitChars '.' text, Text.splitChars_ne_nil _ _, fun label hm =>
    isHostLabel_iff.mp (h.2 label hm)⟩, Text.intercalate_splitChars '.' text⟩

end Labels

section Ports
variable {base text : List Char}

/-- An entry with a port, cut where the port begins. -/
lemma splitPort_append (base : List Char) (digits : Digits) :
    splitPort (base ++ ':' :: digits.text) = (base, some digits.value) := by
  have hcolon : ':' ∉ digits.text := fun hm => absurd (digits.digit _ hm) (by decide)
  have hdigits : (!digits.text.isEmpty && digits.text.all Text.isDigit) = true := by
    rw [Bool.and_eq_true, List.all_eq_true]
    exact ⟨by simpa using digits.ne_nil, digits.digit⟩
  rw [splitPort, Text.splitLast_append base hcolon]
  exact if_pos hdigits

lemma splitPort_of_not_mem (h : ':' ∉ text) : splitPort text = (text, none) := by
  rw [splitPort, Text.splitLast_eq_none h]

lemma splitPort_portText (h : ':' ∉ base) (port : Option Digits) :
    splitPort (base ++ portText port) = (base, port.map Digits.value) := by
  cases port with
  | none =>
    rw [portText, Option.map_none, Option.getD_none, List.append_nil]
    exact splitPort_of_not_mem h
  | some digits => exact splitPort_append base digits

/-- An entry is cut at its port, if it has one. -/
lemma splitPort_cases (text : List Char) : ∃ base, ∃ port : Option Digits,
    text = base ++ portText port ∧ splitPort text = (base, port.map Digits.value) := by
  have hwhole : splitPort text = (text, none) → ∃ base, ∃ port : Option Digits,
      text = base ++ portText port ∧ splitPort text = (base, port.map Digits.value) :=
    fun h => ⟨text, none, (List.append_nil text).symm, h⟩
  cases hsplit : Text.splitLast ':' text with
  | none => exact hwhole (by rw [splitPort, hsplit])
  | some found =>
    obtain ⟨base, digits⟩ := found
    by_cases hdigits : (!digits.isEmpty && digits.all Text.isDigit) = true
    · have hport : splitPort text = (base, some (Text.decimal digits)) := by
        rw [splitPort, hsplit]
        exact if_pos hdigits
      rw [Bool.and_eq_true, List.all_eq_true] at hdigits
      exact ⟨base, some ⟨digits, by simpa using hdigits.1, hdigits.2⟩,
        (Text.splitLast_eq_some hsplit).1, hport⟩
    · refine hwhole ?_
      rw [splitPort, hsplit]
      exact if_neg hdigits

end Ports

section Blocks

lemma isDigits_iff {limit : ℕ} {text : List Char} : isDigits limit text = true ↔
    (1 ≤ text.length ∧ text.length ≤ limit) ∧ ∀ c ∈ text, Text.isDigit c = true := by
  rw [isDigits, Bool.and_eq_true, Bool.and_eq_true, decide_eq_true_eq, decide_eq_true_eq,
    List.all_eq_true]

/-- Without a slash a text is no block. -/
lemma isIpv4Cidr_of_not_mem {text : List Char} (h : '/' ∉ text) : isIpv4Cidr text = false := by
  rw [isIpv4Cidr, Text.splitChars_eq_singleton h]

namespace Block
variable (block : Block)

lemma not_digit_mem {c : Char} (hc : Text.isDigit c = false) {digits : List Char}
    (h : ∀ d ∈ digits, Text.isDigit d = true) : c ∉ digits := fun hm => by
  rw [h c hm] at hc
  cases hc

@[simp] lemma splitChars_address :
    Text.splitChars '.' (['.'].intercalate block.octets) = block.octets := by
  have hne : block.octets ≠ [] := fun h => by
    have := block.four
    simp [h] at this
  exact (Text.splitChars_eq_iff hne).mpr
    ⟨fun octet hm => not_digit_mem (by decide) (block.octet octet hm).2, rfl⟩

lemma char_of_mem_address {c : Char} (h : c ∈ ['.'].intercalate block.octets) :
    Text.isDigit c = true ∨ c = '.' := by
  rcases @Text.mem_splitChars '.' _ _ h with hdot | ⟨octet, hm, hc⟩
  · exact Or.inr hdot
  · rw [splitChars_address] at hm
    exact Or.inl ((block.octet octet hm).2 c hc)

lemma char_of_mem {c : Char} (h : c ∈ block.text) :
    Text.isDigit c = true ∨ c = '.' ∨ c = '/' := by
  rcases List.mem_append.mp h with h | h
  · exact (block.char_of_mem_address h).imp id Or.inl
  · rcases List.mem_cons.mp h with rfl | h
    · exact Or.inr (Or.inr rfl)
    · exact Or.inl (block.bit.2 c h)

lemma not_mem_text (c : Char) (hdigit : Text.isDigit c = false) (hdot : c ≠ '.') (hslash : c ≠ '/') :
    c ∉ block.text := by
  intro hm
  rcases block.char_of_mem hm with h | h | h
  · rw [hdigit] at h
    cases h
  · exact hdot h
  · exact hslash h

lemma head?_text : block.text.head? ≠ some '.' := by
  intro h
  have hsplit := block.splitChars_address
  have hempty : [] ∉ block.octets := fun hm => by
    have := (block.octet [] hm).1.1
    simp at this
  cases haddress : ['.'].intercalate block.octets with
  | nil =>
    rw [haddress] at hsplit
    exact hempty (hsplit ▸ List.mem_singleton_self _)
  | cons c rest =>
    rw [text, haddress] at h
    cases h
    rw [haddress, Text.splitChars, if_pos rfl] at hsplit
    exact hempty (hsplit ▸ List.mem_cons_self)

lemma isIpv4Cidr_text : isIpv4Cidr block.text = true := by
  have hslash : '/' ∉ ['.'].intercalate block.octets := fun hm =>
    (block.char_of_mem_address hm).elim (by decide) (by decide)
  rw [isIpv4Cidr, text, Text.splitChars_append_cons hslash,
    Text.splitChars_eq_singleton (not_digit_mem (by decide) block.bit.2)]
  simp only [splitChars_address, Bool.and_eq_true, decide_eq_true_eq, List.all_eq_true,
    isDigits_iff]
  exact ⟨⟨block.four, block.octet⟩, block.bit⟩

end Block

lemma exists_block {text : List Char} (h : isIpv4Cidr text = true) :
    ∃ block : Block, block.text = text := by
  unfold isIpv4Cidr at h
  split at h
  · rename_i address bits hsplit
    simp only [Bool.and_eq_true, decide_eq_true_eq, List.all_eq_true, isDigits_iff] at h
    refine ⟨⟨Text.splitChars '.' address, bits, h.1.1, h.1.2, h.2⟩, ?_⟩
    rw [Block.text, Text.intercalate_splitChars, ← Text.intercalate_splitChars '/' text, hsplit]
    simp
  · cases h

end Blocks

section Classify
variable {entry base rest : List Char} {port : Option ℕ}

lemma mem_of_includesChars {piece text : List Char} {c : Char}
    (h : Text.includesChars piece text = true) (hc : c ∈ piece) : c ∈ text := by
  induction text with
  | nil =>
    rw [Text.includesChars, List.isEmpty_iff] at h
    rwa [h] at hc
  | cons d rest ih =>
    rw [Text.includesChars, Bool.or_eq_true, List.isPrefixOf_iff_prefix] at h
    rcases h with h | h
    · exact h.subset hc
    · exact List.mem_cons_of_mem _ (ih h)

/-- Neither of the characters of a scheme is in the entry, or not both. -/
lemma includesChars_scheme (h : ':' ∉ entry ∨ '/' ∉ entry) :
    Text.includesChars [':', '/', '/'] entry = false := by
  rw [← Bool.not_eq_true]
  intro hscheme
  rcases h with h | h <;> exact h (mem_of_includesChars hscheme (by decide))

/-- The class of what is left of an entry once its port and its wildcard are gone. -/
lemma classify_of_plain (hne : entry ≠ [])
    (hscheme : Text.includesChars [':', '/', '/'] entry = false) (hstar : '*' ∉ entry)
    (hsplit : splitPort entry = (base, port)) :
    classify entry = if isIpv4Cidr base then .ok
      else
        let hostPart := if base.head? = some '.' then base.drop 1 else base
        if hostPart.isEmpty then .invalidHostname
        else if isValidHostname hostPart then .ok else .invalidHostname := by
  have hindex : entry.findIdx? (· = '*') = none := by
    rw [List.findIdx?_eq_none_iff]
    exact fun c hc => decide_eq_false fun he => hstar (he ▸ hc)
  unfold classify
  rw [if_neg (by simpa using hne), hscheme, if_neg Bool.false_ne_true]
  simp only [hindex, hsplit]
  rfl

lemma classify_of_star (hscheme : Text.includesChars [':', '/', '/'] ('*' :: rest) = false)
    (hsplit : splitPort ('*' :: rest) = ('*' :: rest, none)) :
    classify ('*' :: rest) = if isIpv4Cidr ('*' :: rest) then .ok
      else
        let hostPart := if rest.head? = some '.' then rest.drop 1 else rest
        if hostPart.isEmpty then .ok
        else if isValidHostname hostPart then .ok else .invalidHostname := by
  unfold classify
  rw [if_neg (by simp), hscheme, if_neg Bool.false_ne_true]
  simp only [hsplit, List.findIdx?_cons]
  rfl

lemma not_mem_portText {c : Char} (hdigit : Text.isDigit c = false) (hc : c ≠ ':')
    (port : Option Digits) : c ∉ portText port := by
  cases port with
  | none => exact List.not_mem_nil
  | some digits =>
    change c ∉ ':' :: digits.text
    rw [List.mem_cons, not_or]
    exact ⟨hc, Block.not_digit_mem hdigit digits.digit⟩

/-- What is left of an entry without its wildcard: a domain, with or without a dot before it. -/
lemma hostPart_of_domain (domain : Domain) {text : List Char}
    (h : text = domain.text ∨ text = '.' :: domain.text) :
    (if text.head? = some '.' then text.drop 1 else text) = domain.text ∧
      domain.text.isEmpty = false ∧ isValidHostname domain.text = true := by
  refine ⟨?_, by simpa using domain.head?_text.1, domain.isValidHostname_text⟩
  rcases h with rfl | rfl
  · exact if_neg domain.head?_text.2
  · exact if_pos rfl

/-- Such a text is written in the characters of names. -/
lemma not_mem_of_domain {domain : Domain} {text : List Char}
    (h : text = domain.text ∨ text = '.' :: domain.text) (c : Char)
    (halpha : Text.isAlphanumeric c = false) (hc : c ≠ '-' ∧ c ≠ '.') : c ∉ text := by
  rcases h with rfl | rfl
  · exact domain.not_mem_text halpha hc
  · rw [List.mem_cons, not_or]
    exact ⟨hc.2, domain.not_mem_text halpha hc⟩

lemma classify_of_domain (domain : Domain) (port : Option Digits)
    (h : base = domain.text ∨ base = '.' :: domain.text) :
    classify (base ++ portText port) = .ok := by
  have hnot := not_mem_of_domain h
  have hslash := hnot '/' (by decide) (by decide)
  have hbase : base ≠ [] := by
    rcases h with rfl | rfl
    · exact domain.head?_text.1
    · exact List.cons_ne_nil _ _
  obtain ⟨hpart, hne, hvalid⟩ := hostPart_of_domain domain h
  rw [classify_of_plain (by simp [hbase]) (includesChars_scheme (Or.inr ?_)) ?_
    (splitPort_portText (hnot ':' (by decide) (by decide)) port), isIpv4Cidr_of_not_mem hslash,
    if_neg Bool.false_ne_true]
  · simp only [hpart, hne, hvalid, if_true, if_neg Bool.false_ne_true]
  · rw [List.mem_append, not_or]
    exact ⟨hslash, not_mem_portText (by decide) (by decide) port⟩
  · rw [List.mem_append, not_or]
    exact ⟨hnot '*' (by decide) (by decide), not_mem_portText (by decide) (by decide) port⟩

lemma classify_of_starred_domain (domain : Domain)
    (h : rest = domain.text ∨ rest = '.' :: domain.text) : classify ('*' :: rest) = .ok := by
  have hnot := not_mem_of_domain h
  have hslash := hnot '/' (by decide) (by decide)
  have hcolon := hnot ':' (by decide) (by decide)
  obtain ⟨hpart, hne, hvalid⟩ := hostPart_of_domain domain h
  rw [classify_of_star (includesChars_scheme (Or.inr (by simpa using hslash)))
    (splitPort_of_not_mem (by simpa using hcolon)),
    isIpv4Cidr_of_not_mem (by simpa using hslash), if_neg Bool.false_ne_true]
  simp only [hpart, hne, hvalid, if_true, if_neg Bool.false_ne_true]

/-- Every rule is accepted. -/
theorem classify_text (rule : NoProxyRule) : classify rule.text = .ok := by
  cases rule with
  | everything => decide
  | name domain port => exact classify_of_domain domain port (Or.inl rfl)
  | dotted domain port => exact classify_of_domain domain port (Or.inr rfl)
  | starDotted domain => exact classify_of_starred_domain domain (Or.inr rfl)
  | starred domain => exact classify_of_starred_domain domain (Or.inl rfl)
  | block addresses =>
    have hnot := addresses.not_mem_text
    have hcolon := hnot ':' (by decide) (by decide) (by decide)
    have hne : addresses.text ≠ [] := by simp [Block.text]
    rw [NoProxyRule.text, classify_of_plain hne (includesChars_scheme (Or.inl hcolon))
      (hnot '*' (by decide) (by decide) (by decide)) (splitPort_of_not_mem hcolon),
      addresses.isIpv4Cidr_text, if_pos rfl]

end Classify

section Matches
variable {ext : Externals} {target : HostPort} {targets : List HostPort}

lemma lowerChars_of_ascii {text : List Char} (h : ∀ c ∈ text, c.toNat < 128) :
    lowerChars ext text = lowered text := by
  rw [lowerChars, ext.toLowerCase_ascii (by simpa using h), String.toList_ofList,
    String.toList_ofList, lowered]

lemma ascii_of_nameChar {c : Char} (h : Text.isAlphanumeric c = true ∨ c = '-' ∨ c = '.') :
    c.toNat < 128 := by
  rcases h with h | rfl | rfl
  · exact Text.toNat_lt_of_isAlphanumeric h
  · decide
  · decide

lemma toList_toLowerCase_host (h : isHostname target.host = true) :
    (ext.toLowerCase target.host).toList = lowered target.host.toList := by
  rw [ext.toLowerCase_ascii fun c hc => ascii_of_nameChar (char_of_isHostname h hc),
    String.toList_ofList, lowered]

lemma lowerChars_domain (domain : Domain) : lowerChars ext domain.text = lowered domain.text :=
  lowerChars_of_ascii fun _ hc => ascii_of_nameChar (domain.char_of_mem hc)

/-- A domain does not begin with a dot in lower case either. -/
lemma head?_lowered_text (domain : Domain) : (lowered domain.text).head? ≠ some '.' := by
  intro h
  rw [lowered, List.head?_map, Option.map_eq_some_iff] at h
  obtain ⟨c, hc, hlower⟩ := h
  exact domain.head?_text.2 (by rw [hc, Text.eq_of_toLower (by decide) hlower])

lemma mem_matchSuffix_bare (domain : Domain) (hhost : isHostname target.host = true) :
    target ∈ matchSuffix ext domain.text targets ↔
      target ∈ targets ∧ lowered domain.text <:+ lowered target.host.toList := by
  unfold matchSuffix
  rw [if_neg (by simpa using domain.head?_text.1), lowerChars_domain]
  dsimp only
  rw [if_pos (head?_lowered_text domain), List.mem_filter, toList_toLowerCase_host hhost,
    List.isSuffixOf_iff_suffix]

lemma mem_matchSuffix_dotted (domain : Domain) (hhost : isHostname target.host = true) :
    target ∈ matchSuffix ext ('.' :: domain.text) targets ↔ target ∈ targets ∧
      (lowered target.host.toList = lowered domain.text ∨
        '.' :: lowered domain.text <:+ lowered target.host.toList) := by
  have hlower : lowerChars ext ('.' :: domain.text) = '.' :: lowered domain.text := by
    rw [lowerChars_of_ascii]
    · rfl
    · intro c hc
      rcases List.mem_cons.mp hc with rfl | hc
      · decide
      · exact ascii_of_nameChar (domain.char_of_mem hc)
  unfold matchSuffix
  rw [if_neg (by simp), hlower]
  dsimp only
  rw [if_neg (by simp), List.mem_filter, toList_toLowerCase_host hhost, Bool.or_eq_true,
    decide_eq_true_eq, List.isSuffixOf_iff_suffix]
  rfl

/-- The targets an entry with this port may exempt. -/
def onPort (targets : List HostPort) : Option ℕ → List HostPort
  | none => targets
  | some port => targets.filter fun target => target.port = port

lemma mem_onPort (port : Option Digits) : target ∈ onPort targets (port.map Digits.value) ↔
    target ∈ targets ∧ ∀ digits ∈ port, target.port = digits.value := by
  cases port with
  | none => simp [onPort]
  | some digits => simp [onPort]

lemma matches_of_split {entry base : List Char} {port : Option ℕ}
    (hcidr : isIpv4Cidr entry = false) (hsplit : splitPort entry = (base, port)) :
    «matches» ext entry targets =
      if base = ['*'] then onPort targets port
      else if base.head? = some '*' then matchSuffix ext (base.drop 1) (onPort targets port)
      else if base.head? = some '.' then matchSuffix ext base (onPort targets port)
      else (onPort targets port).filter fun target =>
        (ext.toLowerCase target.host).toList = lowerChars ext base := by
  unfold «matches»
  rw [hcidr, if_neg Bool.false_ne_true, hsplit]
  cases port <;> rfl

lemma matchSuffix_sublist (suffix : List Char) :
    (matchSuffix ext suffix targets).Sublist targets := by
  unfold matchSuffix
  split_ifs
  · exact List.Sublist.refl _
  · dsimp only
    split_ifs <;> exact List.filter_sublist

lemma matches_sublist {entry : List Char} : («matches» ext entry targets).Sublist targets := by
  by_cases hcidr : isIpv4Cidr entry = true
  · rw [«matches», if_pos hcidr]
    exact List.nil_sublist _
  · have hport : ∀ port, (onPort targets port).Sublist targets := by
      intro port
      cases port with
      | none => exact List.Sublist.refl _
      | some port => exact List.filter_sublist
    rw [matches_of_split (Bool.eq_false_iff.mpr hcidr) rfl]
    split_ifs
    · exact hport _
    · exact (matchSuffix_sublist _).trans (hport _)
    · exact (matchSuffix_sublist _).trans (hport _)
    · exact List.filter_sublist.trans (hport _)

lemma matches_of_star {domain : Domain} {rest : List Char}
    (h : rest = domain.text ∨ rest = '.' :: domain.text) :
    «matches» ext ('*' :: rest) targets =
      if rest = [] then targets else matchSuffix ext rest targets := by
  have hnot := not_mem_of_domain h
  have hslash := hnot '/' (by decide) (by decide)
  have hcolon := hnot ':' (by decide) (by decide)
  rw [matches_of_split (isIpv4Cidr_of_not_mem (by simpa using hslash))
    (splitPort_of_not_mem (by simpa using hcolon)), List.head?_cons, if_pos rfl, List.drop_one,
    List.tail_cons, onPort]
  simp only [List.cons.injEq, true_and]

/-- The targets an entry exempts are those its rule covers. -/
theorem mem_matches_text (rule : NoProxyRule) (hhost : isHostname target.host = true) :
    target ∈ «matches» ext rule.text targets ↔ target ∈ targets ∧ rule.Covers target := by
  cases rule with
  | everything =>
    rw [NoProxyRule.text, matches_of_split (by decide) (splitPort_of_not_mem (by decide))]
    simp [NoProxyRule.Covers, onPort]
  | name domain port =>
    have hnot := not_mem_of_domain (Or.inl rfl : domain.text = domain.text ∨ _)
    have hslash : '/' ∉ domain.text ++ portText port := by
      rw [List.mem_append, not_or]
      exact ⟨hnot '/' (by decide) (by decide), not_mem_portText (by decide) (by decide) port⟩
    have hstar : domain.text.head? ≠ some '*' := fun h =>
      hnot '*' (by decide) (by decide) (List.mem_of_mem_head? h)
    rw [NoProxyRule.text, matches_of_split (isIpv4Cidr_of_not_mem hslash)
      (splitPort_portText (hnot ':' (by decide) (by decide)) port)]
    rw [if_neg fun h => hstar (by rw [h]; rfl), if_neg hstar, if_neg domain.head?_text.2,
      List.mem_filter, mem_onPort, toList_toLowerCase_host hhost, lowerChars_domain,
      decide_eq_true_eq, NoProxyRule.Covers, and_assoc,
      and_comm (a := ∀ digits ∈ port, target.port = digits.value)]
  | dotted domain port =>
    have hnot := not_mem_of_domain (Or.inr rfl : '.' :: domain.text = domain.text ∨ _)
    have hslash : '/' ∉ '.' :: domain.text ++ portText port := by
      rw [List.mem_append, not_or]
      exact ⟨hnot '/' (by decide) (by decide), not_mem_portText (by decide) (by decide) port⟩
    rw [NoProxyRule.text, matches_of_split (isIpv4Cidr_of_not_mem hslash)
      (splitPort_portText (hnot ':' (by decide) (by decide)) port)]
    rw [if_neg (by simp), if_neg (by simp), List.head?_cons, if_pos rfl,
      mem_matchSuffix_dotted domain hhost, mem_onPort, NoProxyRule.Covers, and_assoc,
      and_comm (a := ∀ digits ∈ port, target.port = digits.value)]
  | starDotted domain =>
    rw [NoProxyRule.text, matches_of_star (Or.inr rfl : '.' :: domain.text = domain.text ∨ _),
      if_neg (List.cons_ne_nil _ _), mem_matchSuffix_dotted domain hhost]
    rfl
  | starred domain =>
    rw [NoProxyRule.text, matches_of_star (Or.inl rfl : domain.text = domain.text ∨ _),
      if_neg domain.head?_text.1, mem_matchSuffix_bare domain hhost]
    rfl
  | block addresses =>
    rw [NoProxyRule.text, «matches», if_pos addresses.isIpv4Cidr_text]
    simp [NoProxyRule.Covers]

/-- A declared host is not empty and ends in no dot. -/
lemma getLast?_host (hhost : isHostname target.host = true) :
    target.host.toList ≠ [] ∧ target.host.toList.getLast? ≠ some '.' := by
  rw [isHostname, Bool.and_eq_true, List.all_eq_true] at hhost
  have hempty : [] ∉ Text.splitChars '.' target.host.toList := fun hm =>
    absurd (hhost.2 [] hm) (by decide)
  constructor
  · intro h
    rw [h] at hempty
    exact hempty (by decide)
  · intro h
    obtain ⟨before, h⟩ := List.getLast?_eq_some_iff.mp h
    rw [h, Text.splitChars_append] at hempty
    exact hempty (List.mem_append_right _ (List.mem_singleton_self _))

/-- An entry that is a dot behind a wildcard is accepted, and exempts nothing. -/
lemma not_mem_matches_starDot (hhost : isHostname target.host = true) :
    target ∉ «matches» ext ['*', '.'] targets := by
  have hlower : lowerChars ext ['.'] = ['.'] :=
    lowerChars_of_ascii (List.forall_mem_singleton.mpr (by decide))
  rw [matches_of_split (by decide) (splitPort_of_not_mem (by decide)), if_neg (by decide),
    List.head?_cons, if_pos rfl, onPort, List.drop_one, List.tail_cons]
  unfold matchSuffix
  rw [if_neg (by decide), hlower]
  dsimp only
  rw [if_neg (by decide), List.mem_filter, toList_toLowerCase_host hhost, Bool.or_eq_true,
    decide_eq_true_eq, List.isSuffixOf_iff_suffix]
  rintro ⟨-, hempty | ⟨before, hdot⟩⟩
  · exact (getLast?_host hhost).1 (List.map_eq_nil_iff.mp hempty)
  · have hlast := congrArg List.getLast? hdot
    rw [List.getLast?_concat, lowered, List.getLast?_map, eq_comm, Option.map_eq_some_iff] at hlast
    obtain ⟨c, hc, hlower⟩ := hlast
    exact (getLast?_host hhost).2 (by rw [hc, Text.eq_of_toLower (by decide) hlower])

/-- So is a block with a port. -/
lemma not_mem_matches_block (addresses : Block) (port : Option Digits)
    (hhost : isHostname target.host = true) :
    target ∉ «matches» ext (addresses.text ++ portText port) targets := by
  have hnot := addresses.not_mem_text
  have hstar := hnot '*' (by decide) (by decide) (by decide)
  have hhead : addresses.text.head? ≠ some '*' := fun h => hstar (List.mem_of_mem_head? h)
  by_cases hcidr : isIpv4Cidr (addresses.text ++ portText port) = true
  · rw [«matches», if_pos hcidr]
    exact List.not_mem_nil
  have hascii : ∀ c ∈ addresses.text, c.toNat < 128 := by
    intro c hc
    rcases addresses.char_of_mem hc with h | rfl | rfl
    · exact Text.toNat_lt_of_isAlphanumeric (by simp [Text.isAlphanumeric, h])
    · decide
    · decide
  rw [matches_of_split (Bool.eq_false_iff.mpr hcidr)
    (splitPort_portText (hnot ':' (by decide) (by decide) (by decide)) port),
    if_neg fun h => hstar (by simp [h]), if_neg hhead,
    if_neg addresses.head?_text, List.mem_filter, toList_toLowerCase_host hhost,
    lowerChars_of_ascii hascii, decide_eq_true_eq]
  rintro ⟨-, h⟩
  -- a block has a slash in it, and no host has
  have hslash : '/' ∈ lowered target.host.toList := by
    rw [h]
    exact List.mem_map.mpr ⟨'/', by simp [Block.text], rfl⟩
  refine Text.not_mem_map_toLower (by decide) (fun hm => ?_) hslash
  rcases char_of_isHostname hhost hm with h | h | h <;> exact absurd h (by decide)

end Matches
section Accepted
variable {ext : Externals} {target : HostPort} {targets : List HostPort} {entry : List Char}

/-- An accepted entry is not empty and has no scheme. -/
lemma of_classify_eq_ok (h : classify entry = .ok) :
    entry ≠ [] ∧ Text.includesChars [':', '/', '/'] entry = false := by
  unfold classify at h
  by_cases hempty : entry.isEmpty = true
  · rw [if_pos hempty] at h
    cases h
  by_cases hscheme : Text.includesChars [':', '/', '/'] entry = true
  · rw [if_neg hempty, if_pos hscheme] at h
    cases h
  exact ⟨by simpa using hempty, Bool.eq_false_iff.mpr hscheme⟩

/-- It has a wildcard in front of everything, and then no port, or has none. -/
lemma wildcard_of_classify_eq_ok (h : classify entry = .ok) :
    '*' ∉ entry ∨ ∃ rest, entry = '*' :: rest ∧ splitPort entry = (entry, none) := by
  obtain ⟨hne, hscheme⟩ := of_classify_eq_ok h
  obtain ⟨base, port, hentry, hsplit⟩ := splitPort_cases entry
  unfold classify at h
  rw [if_neg (by simpa using hne), hscheme, if_neg Bool.false_ne_true] at h
  cases hindex : entry.findIdx? (· = '*') with
  | none =>
    rw [List.findIdx?_eq_none_iff] at hindex
    exact Or.inl fun hm => absurd (hindex '*' hm) (by decide)
  | some i =>
    right
    simp only [hindex, hsplit] at h
    cases entry with
    | nil => exact absurd rfl hne
    | cons c rest =>
      rw [List.findIdx?_cons] at hindex
      by_cases hc : c = '*'
      · subst hc
        rw [decide_eq_true rfl, if_pos rfl] at hindex
        cases hindex
        cases port with
        | none =>
          rw [portText, Option.map_none, Option.getD_none, List.append_nil] at hentry
          exact ⟨rest, rfl, by rw [hsplit, hentry]; rfl⟩
        | some digits =>
          rw [if_neg (by decide), if_pos rfl] at h
          cases h
      · rw [decide_eq_false hc, if_neg Bool.false_ne_true, Option.map_eq_some_iff] at hindex
        obtain ⟨j, -, rfl⟩ := hindex
        exact absurd h (by simp)

/-- What is left of an accepted entry: a domain, with or without a dot before it. -/
lemma domain_of_hostPart {text hostPart : List Char}
    (hpart : (if text.head? = some '.' then text.drop 1 else text) = hostPart)
    (h : isValidHostname hostPart = true) :
    ∃ domain : Domain, text = domain.text ∨ text = '.' :: domain.text := by
  obtain ⟨domain, rfl⟩ := exists_domain h
  refine ⟨domain, ?_⟩
  split_ifs at hpart with hdot
  · obtain ⟨rest, rfl⟩ := List.head?_eq_some_iff.mp hdot
    exact Or.inr (congrArg (List.cons '.') hpart)
  · exact Or.inl hpart

lemma rule_of_plain (hplain : '*' ∉ entry) (h : classify entry = .ok)
    (hm : target ∈ «matches» ext entry targets) (hhost : isHostname target.host = true) :
    ∃ rule : NoProxyRule, rule.text = entry := by
  obtain ⟨hne, hscheme⟩ := of_classify_eq_ok h
  obtain ⟨base, port, hentry, hsplit⟩ := splitPort_cases entry
  rw [classify_of_plain hne hscheme hplain hsplit] at h
  by_cases hcidr : isIpv4Cidr base = true
  · obtain ⟨addresses, rfl⟩ := exists_block hcidr
    rw [hentry] at hm
    exact absurd hm (not_mem_matches_block addresses port hhost)
  · rw [if_neg hcidr] at h
    generalize hpart : (if base.head? = some '.' then base.drop 1 else base) = hostPart at h
    dsimp only at h
    split_ifs at h with hempty hvalid
    obtain ⟨domain, rfl | rfl⟩ := domain_of_hostPart hpart hvalid
    · exact ⟨.name domain port, hentry.symm⟩
    · exact ⟨.dotted domain port, hentry.symm⟩

lemma rule_of_star {rest : List Char} (hsplit : splitPort ('*' :: rest) = ('*' :: rest, none))
    (h : classify ('*' :: rest) = .ok) (hm : target ∈ «matches» ext ('*' :: rest) targets)
    (hhost : isHostname target.host = true) : ∃ rule : NoProxyRule, rule.text = '*' :: rest := by
  rw [classify_of_star (of_classify_eq_ok h).2 hsplit] at h
  by_cases hcidr : isIpv4Cidr ('*' :: rest) = true
  · rw [«matches», if_pos hcidr] at hm
    exact absurd hm List.not_mem_nil
  · rw [if_neg hcidr] at h
    generalize hpart : (if rest.head? = some '.' then rest.drop 1 else rest) = hostPart at h
    dsimp only at h
    split_ifs at h with hempty hvalid
    · rw [List.isEmpty_iff.mp hempty] at hpart
      split_ifs at hpart with hdot
      · obtain ⟨after, rfl⟩ := List.head?_eq_some_iff.mp hdot
        rw [List.drop_one, List.tail_cons] at hpart
        subst hpart
        exact absurd hm (not_mem_matches_starDot hhost)
      · exact ⟨.everything, by rw [hpart]; rfl⟩
    · obtain ⟨domain, rfl | rfl⟩ := domain_of_hostPart hpart hvalid
      · exact ⟨.starred domain, rfl⟩
      · exact ⟨.starDotted domain, rfl⟩

/-- An accepted entry that exempts a target is a rule. -/
theorem exists_rule (h : classify entry = .ok) (hm : target ∈ «matches» ext entry targets)
    (hhost : isHostname target.host = true) : ∃ rule : NoProxyRule, rule.text = entry := by
  obtain hplain | ⟨rest, rfl, hsplit⟩ := wildcard_of_classify_eq_ok h
  · exact rule_of_plain hplain h hm hhost
  · exact rule_of_star hsplit h hm hhost

/-- What one entry says, and exempts. -/
structure Exempts (targets : List HostPort) (entry : NoProxyEntry) : Prop where
  exempt : ∀ target, target ∈ entry.matchedTargets ↔ target ∈ targets ∧
    ∃ rule : NoProxyRule, rule.text = entry.raw.toList ∧ rule.Covers target
  issue : entry.issue ≠ .ok → entry.matchedTargets = []
  apart : entry.raw = ".example.com" → ∀ target ∈ entry.matchedTargets,
    lowered target.host.toList ≠ "notexample.com".toList

/-- `example.com` -/
def exampleDomain : Domain where
  labels := ["example".toList, "com".toList]
  ne_nil := by decide
  label label hm := isHostLabel_iff.mp (by
    rcases List.mem_cons.mp hm with rfl | hm
    · decide
    · rw [List.mem_singleton.mp hm]
      decide)

/-- A domain with a dot before it does not cover what merely ends like it. -/
lemma not_covers_notexample (hcovers : (NoProxyRule.dotted exampleDomain none).Covers target) :
    lowered target.host.toList ≠ "notexample.com".toList := by
  intro h
  obtain ⟨hwithin, -⟩ := hcovers
  rw [h] at hwithin
  revert hwithin
  decide

lemma exempts_of_piece (hhosts : ∀ target ∈ targets, isHostname target.host = true)
    (raw : List Char) : Exempts targets
      { raw := String.ofList raw
        issue := classify raw
        matchedTargets := if classify raw = .ok then «matches» ext raw targets else [] } where
  exempt target := by
    rw [String.toList_ofList]
    constructor
    · intro hm
      dsimp only at hm
      split_ifs at hm with hok
      · have htarget := matches_sublist.subset hm
        obtain ⟨rule, rfl⟩ := exists_rule hok hm (hhosts target htarget)
        exact ⟨htarget, rule, rfl,
          ((mem_matches_text rule (hhosts target htarget)).mp hm).2⟩
      · cases hm
    · rintro ⟨hm, rule, rfl, hcovers⟩
      dsimp only
      rw [if_pos (classify_text rule)]
      exact (mem_matches_text rule (hhosts target hm)).mpr ⟨hm, hcovers⟩
  issue h := if_neg h
  apart hraw target hm := by
    have htext : raw = (NoProxyRule.dotted exampleDomain none).text := by
      rw [← String.toList_ofList (l := raw)]
      exact congrArg String.toList hraw
    subst htext
    dsimp only at hm
    rw [if_pos (classify_text _)] at hm
    exact not_covers_notexample
      ((mem_matches_text _ (hhosts target (matches_sublist.subset hm))).mp hm).2

/-- A value of `NO_PROXY` is an entry for each of its pieces; an entry exempts a target exactly if
it is a rule that covers the target. -/
theorem validateNoProxy_exempts (rawValue : String)
    (hhosts : ∀ target ∈ targets, isHostname target.host = true) :
    (validateNoProxy ext rawValue targets).map NoProxyEntry.raw =
        (if Text.trim rawValue = "" then []
          else (Text.split ',' rawValue).map Text.trim) ∧
      ∀ entry ∈ validateNoProxy ext rawValue targets, Exempts targets entry := by
  unfold validateNoProxy
  split_ifs with hblank
  · exact ⟨rfl, fun entry hm => absurd hm List.not_mem_nil⟩
  · constructor
    · rw [Text.split, List.map_map, List.map_map]
      refine List.map_congr_left fun piece _ => ?_
      rw [Function.comp_apply, Function.comp_apply, Text.trim, String.toList_ofList]
    · intro entry hm
      obtain ⟨piece, -, rfl⟩ := List.mem_map.mp hm
      exact exempts_of_piece hhosts _

/-- Two hosts of which one is in the domain, as any spelling of the entry has it. -/
theorem validateNoProxy_exempts_domain :
    (validateNoProxy throwingExternals ".Example.com, *.corp:80"
          [⟨"api.example.com", 443⟩, ⟨"notexample.com", 443⟩]).map NoProxyEntry.matchedTargets =
        [[⟨"api.example.com", 443⟩], []] ∧
      ∀ entry ∈ validateNoProxy throwingExternals ".Example.com, *.corp:80"
          [⟨"api.example.com", 443⟩, ⟨"notexample.com", 443⟩],
        Exempts [⟨"api.example.com", 443⟩, ⟨"notexample.com", 443⟩] entry :=
  ⟨by decide, (validateNoProxy_exempts ".Example.com, *.corp:80" (by decide)).2⟩

end Accepted
end Portcall.Proxy
