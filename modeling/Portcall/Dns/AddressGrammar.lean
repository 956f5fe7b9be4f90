import Mathlib.Data.List.Induction
import Portcall.Dns.Analyse
import Portcall.Library.InternetAddress
import Portcall.Library.OptionMap

/-! The two address parsers against the grammar: each accepts the texts of its notation and no
others, and reads the value they spell. -/
namespace Portcall.Dns
open InternetAddress

section Digits

/-- The code's test of a digit and its value are those of the notation. -/
private lemma isHexDigit_ascii : ∀ n < 128,
    (isHexDigit (Char.ofNat n) = true ↔ (Char.ofNat n).toLower ∈ hexDigits) ∧
      (isHexDigit (Char.ofNat n) = true → hexValue (Char.ofNat n) = digitValue (Char.ofNat n)) := by
  decide

lemma lt_of_isHexDigit {c : Char} (h : isHexDigit c = true) : c.toNat < 128 := by
  refine Text.toNat_lt_of_isAlphanumeric ?_
  simp only [isHexDigit, Bool.or_eq_true, Bool.and_eq_true, decide_eq_true_eq] at h
  simp only [Text.isAlphanumeric, Bool.or_eq_true, Bool.and_eq_true, decide_eq_true_eq]
  rcases h with (h | h) | h
  · exact Or.inl (Or.inl h)
  · exact Or.inr ⟨h.1, Char.le_trans h.2 (by decide)⟩
  · exact Or.inl (Or.inr ⟨h.1, Char.le_trans h.2 (by decide)⟩)

/-- The code's test of a digit is that of the notation. -/
lemma isHexDigit_iff (c : Char) : isHexDigit c = true ↔ c.toLower ∈ hexDigits := by
  by_cases hc : c.toNat < 128
  · have h := (isHexDigit_ascii _ hc).1
    rwa [Char.ofNat_toNat] at h
  · refine ⟨fun h => absurd (lt_of_isHexDigit h) hc, fun h => ?_⟩
    have hupper : ¬('A' ≤ c ∧ c ≤ 'Z') := by
      rintro ⟨-, hle⟩
      have hZ : c.toNat ≤ 90 := hle
      omega
    rw [Text.toLower_of_not_upper hupper] at h
    have hsmall : hexDigits.all (fun d => d.toNat < 128) = true := by decide
    exact absurd (of_decide_eq_true (List.all_eq_true.mp hsmall c h)) hc

/-- So is the value of one. -/
lemma hexValue_eq {c : Char} (h : isHexDigit c = true) : hexValue c = digitValue c := by
  have hvalue := (isHexDigit_ascii _ (lt_of_isHexDigit h)).2
  rw [Char.ofNat_toNat] at hvalue
  exact hvalue h

end Digits

section Quad

/-- A decimal digit is the one its value is written with. -/
lemma digitChar_of_isDigit {c : Char} (h : Text.isDigit c = true) :
    c.toNat - '0'.toNat < 10 ∧ (c.toNat - '0'.toNat).digitChar = c := by
  simp only [Text.isDigit, Bool.and_eq_true, decide_eq_true_eq, Char.le_def,
    UInt32.le_iff_toNat_le] at h
  have hlow : '0'.toNat ≤ c.toNat := h.1
  have hhigh : c.toNat ≤ '9'.toNat := h.2
  have h0 : '0'.toNat = 48 := rfl
  have h9 : '9'.toNat = 57 := rfl
  have hlt : c.toNat - '0'.toNat < 10 := by omega
  refine ⟨hlt, Char.toNat_inj.mp ?_⟩
  rw [Nat.toNat_digitChar_of_lt_ten hlt]
  omega

/-- Digits that do not begin with zero are the numeral of the number they are. -/
lemma toDigits_decimal {c : Char} {rest : List Char} (hc : '1' ≤ c ∧ c ≤ '9')
    (hrest : ∀ d ∈ rest, Text.isDigit d = true) :
    Nat.toDigits 10 (Text.decimal (c :: rest)) = c :: rest ∧ 0 < Text.decimal (c :: rest) := by
  induction rest using List.reverseRecOn with
  | nil =>
    have hdigit : Text.isDigit c = true := by
      have hzero : '0' ≤ c := Char.le_trans (by decide) hc.1
      simp [Text.isDigit, hc.2, hzero]
    obtain ⟨hlt, hchar⟩ := digitChar_of_isDigit hdigit
    have hone : '1'.toNat ≤ c.toNat := hc.1
    have hvalue : Text.decimal [c] = c.toNat - '0'.toNat := by simp [Text.decimal]
    rw [hvalue, Nat.toDigits_of_lt_base hlt, hchar]
    exact ⟨rfl, Nat.sub_pos_of_lt hone⟩
  | append_singleton rest d ih =>
    obtain ⟨ih, hpos⟩ := ih fun e he => hrest e (List.mem_append_left _ he)
    obtain ⟨hlt, hchar⟩ := digitChar_of_isDigit (hrest d (by simp))
    have hvalue : Text.decimal (c :: (rest ++ [d])) =
        10 * Text.decimal (c :: rest) + (d.toNat - '0'.toNat) := by
      rw [Text.decimal, ← List.cons_append, List.foldl_append, List.foldl_cons, List.foldl_nil,
        Nat.mul_comm]
      rfl
    rw [hvalue, ← Nat.toDigits_append_toDigits (by decide) hpos hlt, ih,
      Nat.toDigits_of_lt_base hlt, hchar]
    exact ⟨rfl, by omega⟩

lemma isIpv4Octet_toDigits {n : ℕ} (h : n ≤ 255) :
    isIpv4Octet (Nat.toDigits 10 n) = true ∧ Text.decimal (Nat.toDigits 10 n) = n := by
  have hall : ∀ n < 256, isIpv4Octet (Nat.toDigits 10 n) = true ∧
      Text.decimal (Nat.toDigits 10 n) = n := by
    decide +kernel
  exact hall n (by omega)

/-- An octet is the numeral of a number up to 255. -/
lemma octet_iff {text : List Char} {n : ℕ} :
    ((isIpv4Octet text && decide (Text.decimal text ≤ 255)) = true ∧ Text.decimal text = n) ↔
      n ≤ 255 ∧ text = Nat.toDigits 10 n := by
  rw [Bool.and_eq_true, decide_eq_true_eq]
  constructor
  · rintro ⟨⟨hoctet, hle⟩, rfl⟩
    refine ⟨hle, ?_⟩
    unfold isIpv4Octet at hoctet
    split at hoctet
    · rfl
    · rename_i c rest _
      simp only [Bool.and_eq_true, decide_eq_true_eq, List.all_eq_true] at hoctet
      exact (toDigits_decimal hoctet.1.1 hoctet.2).1.symm
    · cases hoctet
  · rintro ⟨hle, rfl⟩
    obtain ⟨hoctet, hvalue⟩ := isIpv4Octet_toDigits hle
    exact ⟨⟨hoctet, hvalue.symm ▸ hle⟩, hvalue⟩

/-- The number of 32 bits four octets are. -/
def Ipv4.value (address : Ipv4) : ℕ :=
  ((address.a * 256 + address.b) * 256 + address.c) * 256 + address.d

/-- Four octets, each in its range. -/
def Ipv4.Octets (address : Ipv4) : Prop :=
  address.a ≤ 255 ∧ address.b ≤ 255 ∧ address.c ≤ 255 ∧ address.d ≤ 255

/-- The parser reads the texts of its notation, and the value they are. -/
theorem parseIpv4_eq_some_iff {text : List Char} {address : Ipv4} :
    parseIpv4 text = some address ↔ address.Octets ∧
      text = ['.'].intercalate
        ([address.a, address.b, address.c, address.d].map (Nat.toDigits 10)) := by
  have hdot : ∀ n : ℕ, '.' ∉ Nat.toDigits 10 n := fun n hm =>
    absurd (Nat.isDigit_of_mem_toDigits (by decide) (by decide) hm) (by decide)
  constructor
  · intro h
    unfold parseIpv4 at h
    split at h
    · rename_i a b c d hsplit
      split_ifs at h with hoctets
      cases h
      simp only [List.all_cons, List.all_nil, Bool.and_true, Bool.and_eq_true] at hoctets
      obtain ⟨ha, hb, hc, hd⟩ := hoctets
      obtain ⟨hla, hta⟩ := octet_iff.mp ⟨by simpa using ha, rfl⟩
      obtain ⟨hlb, htb⟩ := octet_iff.mp ⟨by simpa using hb, rfl⟩
      obtain ⟨hlc, htc⟩ := octet_iff.mp ⟨by simpa using hc, rfl⟩
      obtain ⟨hld, htd⟩ := octet_iff.mp ⟨by simpa using hd, rfl⟩
      refine ⟨⟨hla, hlb, hlc, hld⟩, ?_⟩
      rw [List.map_cons, List.map_cons, List.map_cons, List.map_cons, List.map_nil, ← hta, ← htb,
        ← htc, ← htd]
      exact ((Text.splitChars_eq_iff (by simp)).mp hsplit).2
    · cases h
  · rintro ⟨⟨ha, hb, hc, hd⟩, rfl⟩
    have hsplit : Text.splitChars '.' (['.'].intercalate
        ([address.a, address.b, address.c, address.d].map (Nat.toDigits 10))) =
          [address.a, address.b, address.c, address.d].map (Nat.toDigits 10) := by
      refine (Text.splitChars_eq_iff (by simp)).mpr ⟨fun piece hm => ?_, rfl⟩
      obtain ⟨n, -, rfl⟩ := List.mem_map.mp hm
      exact hdot n
    obtain ⟨hoa, hva⟩ := octet_iff.mpr ⟨ha, rfl⟩
    obtain ⟨hob, hvb⟩ := octet_iff.mpr ⟨hb, rfl⟩
    obtain ⟨hoc, hvc⟩ := octet_iff.mpr ⟨hc, rfl⟩
    obtain ⟨hod, hvd⟩ := octet_iff.mpr ⟨hd, rfl⟩
    rw [parseIpv4, hsplit]
    simp only [List.map_cons, List.map_nil, List.all_cons, List.all_nil, hoa, hob, hoc, hod,
      Bool.and_true, if_true]
    rw [hva, hvb, hvc, hvd]

theorem dottedQuad_iff {text : List Char} {value : ℕ} :
    DottedQuad text value ↔ ∃ address, parseIpv4 text = some address ∧ address.value = value := by
  constructor
  · rintro ⟨ha, hb, hc, hd⟩
    exact ⟨⟨_, _, _, _⟩, parseIpv4_eq_some_iff.mpr ⟨⟨ha, hb, hc, hd⟩, rfl⟩, rfl⟩
  · rintro ⟨address, hparse, rfl⟩
    obtain ⟨⟨ha, hb, hc, hd⟩, rfl⟩ := parseIpv4_eq_some_iff.mp hparse
    exact .mk ha hb hc hd

end Quad

section Groups
variable {token text : List Char} {value : ℕ} {tokens : List (List Char)} {values : List ℕ}

/-- Reading digit by digit from the left is reading by place value. -/
lemma hexadecimal_eq (h : ∀ c ∈ token, isHexDigit c = true) :
    hexadecimal token = Nat.ofDigits 16 (token.reverse.map digitValue) := by
  induction token using List.reverseRecOn with
  | nil => rfl
  | append_singleton token c ih =>
    have ih := ih fun d hd => h d (List.mem_append_left _ hd)
    rw [List.reverse_append, List.reverse_singleton, List.singleton_append, List.map_cons,
      Nat.ofDigits_cons, ← ih, ← hexValue_eq (h c (by simp)), hexadecimal, List.foldl_append,
      List.foldl_cons, List.foldl_nil, Nat.add_comm, Nat.mul_comm]
    rfl

/-- The code's group is that of the notation. -/
lemma group_iff :
    (if isIpv6Group token then some (hexadecimal token) else none) = some value ↔
      Group token value := by
  have hgroup : isIpv6Group token = true ↔
      (1 ≤ token.length ∧ token.length ≤ 4) ∧ ∀ c ∈ token, isHexDigit c = true := by
    simp [isIpv6Group, and_assoc]
  constructor
  · intro h
    split_ifs at h with hg
    obtain ⟨⟨hpos, hle⟩, hdigits⟩ := hgroup.mp hg
    cases h
    exact ⟨fun c hc => (isHexDigit_iff c).mp (hdigits c hc), List.ne_nil_of_length_pos hpos, hle,
      hexadecimal_eq hdigits⟩
  · rintro ⟨hdigits, hne, hle, rfl⟩
    have hdigits' : ∀ c ∈ token, isHexDigit c = true :=
      fun c hc => (isHexDigit_iff c).mpr (hdigits c hc)
    rw [if_pos (hgroup.mpr ⟨⟨List.length_pos_iff.mpr hne, hle⟩, hdigits'⟩), hexadecimal_eq hdigits']

lemma colon_not_mem (h : List.Forall₂ Group tokens values) : ∀ token ∈ tokens, ':' ∉ token :=
  not_mem_of_forall₂ h (by decide)

lemma ne_nil_of_forall₂ (h : List.Forall₂ Group tokens values) : ∀ token ∈ tokens, token ≠ [] := by
  induction h with
  | nil => simp
  | cons hgroup _ ih =>
    intro token hm
    rcases List.mem_cons.mp hm with rfl | hm
    · exact hgroup.ne_nil
    · exact ih token hm

/-- A run of groups between colons is read group by group; the empty run has none. -/
theorem parseHexGroups_eq_some_iff :
    parseHexGroups text = some values ↔
      ∃ tokens, text = [':'].intercalate tokens ∧ List.Forall₂ Group tokens values := by
  have hmap : ∀ {tokens : List (List Char)}, (tokens.mapM fun token =>
      if isIpv6Group token then some (hexadecimal token) else none) = some values ↔
        List.Forall₂ Group tokens values := by
    intro tokens
    rw [OptionMap.mapM_eq_some_iff]
    simp only [group_iff]
  rw [parseHexGroups]
  constructor
  · intro h
    split_ifs at h with hnil
    · cases h
      exact ⟨[], List.isEmpty_iff.mp hnil, .nil⟩
    · exact ⟨_, (Text.intercalate_splitChars ':' text).symm, hmap.mp h⟩
  · rintro ⟨tokens, rfl, h⟩
    by_cases htokens : tokens = []
    · subst htokens
      cases h
      rfl
    · have hsplit := (Text.splitChars_eq_iff htokens).mpr ⟨colon_not_mem h, rfl⟩
      have hne : [':'].intercalate tokens ≠ [] := by
        intro hnil
        rw [hnil] at hsplit
        exact ne_nil_of_forall₂ h [] (hsplit ▸ List.mem_singleton_self _) rfl
      rw [if_neg (by simpa using hne), hsplit]
      exact hmap.mpr h

end Groups

section Elision
variable {text rest : List Char} {tokens : List (List Char)}

/-- What is cut joins again. -/
lemma intercalate_splitElision (text : List Char) :
    [':', ':'].intercalate (splitElision text) = text ∧ splitElision text ≠ [] := by
  induction text using splitElision.induct with
  | case1 rest ih =>
    rw [splitElision, List.intercalate_cons_of_ne_nil ih.2, ih.1]
    exact ⟨rfl, List.cons_ne_nil _ _⟩
  | case2 c rest hrest hnil ih => exact absurd hnil ih.2
  | case3 c rest hrest piece pieces hpieces ih =>
    rw [splitElision, hpieces]
    · refine ⟨?_, List.cons_ne_nil _ _⟩
      rw [List.intercalate_cons_cons_left, ← hpieces, ih.1]
    · exact hrest
  | case4 => exact ⟨rfl, List.cons_ne_nil _ _⟩

lemma splitElision_cons {c : Char} (h : ¬(c = ':' ∧ rest.head? = some ':')) :
    splitElision (c :: rest) = (splitElision rest).modifyHead (c :: ·) := by
  cases hpieces : splitElision rest with
  | nil => exact absurd hpieces (intercalate_splitElision rest).2
  | cons piece pieces =>
    rw [splitElision, hpieces]
    · rfl
    · rintro rest' rfl rfl
      exact h ⟨rfl, rfl⟩

/-- A token has no elision in it. -/
lemma splitElision_token {token : List Char} (h : ':' ∉ token) (rest : List Char) :
    splitElision (token ++ rest) = (splitElision rest).modifyHead (token ++ ·) := by
  induction token with
  | nil =>
    rw [List.nil_append]
    cases splitElision rest <;> rfl
  | cons c token ih =>
    rw [List.mem_cons, not_or] at h
    rw [List.cons_append, splitElision_cons fun hc => h.1 hc.1.symm, ih h.2]
    cases splitElision rest <;> rfl

/-- Nor has a run of tokens, which the next elision ends. -/
lemma splitElision_tokens (hcolon : ∀ token ∈ tokens, ':' ∉ token)
    (hne : ∀ token ∈ tokens, token ≠ []) (rest : List Char) :
    splitElision ([':'].intercalate tokens ++ rest) =
      (splitElision rest).modifyHead ([':'].intercalate tokens ++ ·) := by
  induction tokens with
  | nil =>
    rw [List.intercalate_nil, List.nil_append]
    cases splitElision rest <;> rfl
  | cons token tokens ih =>
    have htoken := hcolon token List.mem_cons_self
    cases tokens with
    | nil =>
      rw [List.intercalate_singleton]
      exact splitElision_token htoken rest
    | cons next tokens =>
      have ih := ih (fun t ht => hcolon t (List.mem_cons_of_mem _ ht))
        fun t ht => hne t (List.mem_cons_of_mem _ ht)
      have hstart : ([':'].intercalate (next :: tokens) ++ rest).head? ≠ some ':' := by
        have hnext : ':' ∉ next := hcolon next (by simp)
        obtain ⟨c, cs, rfl⟩ := List.exists_cons_of_ne_nil (hne next (by simp))
        rw [List.intercalate_cons_cons_left, List.cons_append, List.head?_cons, Ne,
          Option.some.injEq]
        rintro rfl
        exact hnext List.mem_cons_self
      rw [List.intercalate_cons_cons, List.append_assoc, List.append_assoc,
        splitElision_token htoken, List.singleton_append,
        splitElision_cons fun hc => hstart hc.2, ih]
      cases splitElision rest with
      | nil => rfl
      | cons piece pieces => simp

end Elision

section Hex
variable {body : List Char} {groups : List ℕ}

/-- Eight groups between colons, all of them in hexadecimal. -/
inductive HexText : List Char → List ℕ → Prop where
  | full {tokens : List (List Char)} {values : List ℕ} (h : List.Forall₂ Group tokens values)
      (hlength : values.length = 8) : HexText ([':'].intercalate tokens) values
  | elided {head tail : List (List Char)} {before after : List ℕ}
      (hhead : List.Forall₂ Group head before) (htail : List.Forall₂ Group tail after)
      (hlength : before.length + after.length ≤ 7) :
      HexText ([':'].intercalate head ++ ':' :: ':' :: [':'].intercalate tail)
        (before ++ List.replicate (8 - before.length - after.length) 0 ++ after)

lemma splitElision_run {tokens : List (List Char)} {values : List ℕ}
    (h : List.Forall₂ Group tokens values) (rest : List Char) :
    splitElision ([':'].intercalate tokens ++ rest) =
      (splitElision rest).modifyHead ([':'].intercalate tokens ++ ·) :=
  splitElision_tokens (colon_not_mem h) (ne_nil_of_forall₂ h) rest

/-- The last part of the parser, once a dotted tail has been rewritten. -/
def parseBody (body : List Char) : Option (List ℕ) :=
  match splitElision body with
  | [only] => (parseHexGroups only).bind toGroups
  | [head, tail] =>
    (parseHexGroups head).bind fun head =>
      (parseHexGroups tail).bind fun tail =>
        if 7 < head.length + tail.length then none
        else toGroups (head ++ List.replicate (8 - head.length - tail.length) 0 ++ tail)
  | _ => none

lemma toGroups_eq_some_iff {values : List ℕ} :
    toGroups values = some groups ↔ values = groups ∧ values.length = 8 := by
  simp [toGroups, and_comm]

lemma hexText_of_parseBody (h : parseBody body = some groups) : HexText body groups := by
  have hjoin := (intercalate_splitElision body).1
  unfold parseBody at h
  split at h
  · rename_i only hsplit
    obtain ⟨values, hvalues, h⟩ := Option.bind_eq_some_iff.mp h
    obtain ⟨tokens, honly, hgroups⟩ := parseHexGroups_eq_some_iff.mp hvalues
    obtain ⟨rfl, hlength⟩ := toGroups_eq_some_iff.mp h
    rw [hsplit, List.intercalate_singleton, honly] at hjoin
    exact hjoin ▸ .full hgroups hlength
  · rename_i head tail hsplit
    obtain ⟨before, hbefore, h⟩ := Option.bind_eq_some_iff.mp h
    obtain ⟨after, hafter, h⟩ := Option.bind_eq_some_iff.mp h
    split_ifs at h with hlength
    obtain ⟨headTokens, hhead, hheadGroups⟩ := parseHexGroups_eq_some_iff.mp hbefore
    obtain ⟨tailTokens, htail, htailGroups⟩ := parseHexGroups_eq_some_iff.mp hafter
    obtain ⟨rfl, -⟩ := toGroups_eq_some_iff.mp h
    rw [hsplit, List.intercalate_cons_cons, List.intercalate_singleton, hhead, htail,
      List.append_assoc] at hjoin
    exact hjoin ▸ .elided hheadGroups htailGroups (not_lt.mp hlength)
  · cases h

lemma parseBody_of_hexText (h : HexText body groups) : parseBody body = some groups := by
  have hparse : ∀ {tokens : List (List Char)} {values : List ℕ}, List.Forall₂ Group tokens values →
      parseHexGroups ([':'].intercalate tokens ++ []) = some values := by
    intro tokens values h
    rw [List.append_nil]
    exact parseHexGroups_eq_some_iff.mpr ⟨tokens, rfl, h⟩
  cases h with
  | @full tokens _ h hlength =>
    have hsplit := splitElision_run h []
    rw [List.append_nil] at hsplit
    rw [parseBody, hsplit]
    change (parseHexGroups ([':'].intercalate tokens ++ [])).bind toGroups = some groups
    rw [hparse h, Option.bind_some]
    exact toGroups_eq_some_iff.mpr ⟨rfl, hlength⟩
  | @elided head tail before after hhead htail hlength =>
    have htailSplit := splitElision_run htail []
    rw [List.append_nil] at htailSplit
    rw [parseBody, splitElision_run hhead, splitElision, htailSplit]
    change ((parseHexGroups ([':'].intercalate head ++ [])).bind fun head =>
        (parseHexGroups ([':'].intercalate tail ++ [])).bind fun tail =>
          if 7 < head.length + tail.length then none
          else toGroups (head ++ List.replicate (8 - head.length - tail.length) 0 ++ tail)) = _
    rw [hparse hhead, hparse htail, Option.bind_some, Option.bind_some,
      if_neg (not_lt.mpr hlength)]
    refine toGroups_eq_some_iff.mpr ⟨rfl, ?_⟩
    simp only [List.length_append, List.length_replicate]
    omega

lemma parseBody_eq_some_iff : parseBody body = some groups ↔ HexText body groups :=
  ⟨hexText_of_parseBody, parseBody_of_hexText⟩

end Hex

section Rewrite
variable {text : List Char} {groups values : List ℕ} {value : ℕ}

/-- The text a dotted tail is rewritten to. -/
def rewritten (before : List Char) (value : ℕ) : List Char :=
  before ++ ':' :: Nat.toDigits 16 (value / 65536) ++ ':' :: Nat.toDigits 16 (value % 65536)

lemma withoutEmbeddedIpv4_of_dot_mem (hdot : '.' ∈ text) {body : List Char} :
    withoutEmbeddedIpv4 text = some body ↔
      ∃ before quad value, text = before ++ ':' :: quad ∧ DottedQuad quad value ∧
        body = rewritten before value := by
  have hvalue : ∀ address : Ipv4, address.Octets →
      address.value / 65536 = address.a * 256 + address.b ∧
        address.value % 65536 = address.c * 256 + address.d := by
    rintro address ⟨ha, hb, hc, hd⟩
    rw [Ipv4.value]
    omega
  rw [withoutEmbeddedIpv4, if_pos (by simpa using hdot)]
  constructor
  · intro h
    obtain ⟨⟨before, quad⟩, hsplit, h⟩ := Option.bind_eq_some_iff.mp h
    obtain ⟨address, hparse, rfl⟩ := Option.map_eq_some_iff.mp h
    refine ⟨before, quad, address.value, (Text.splitLast_eq_some hsplit).1,
      dottedQuad_iff.mpr ⟨address, hparse, rfl⟩, ?_⟩
    obtain ⟨hhigh, hlow⟩ := hvalue address (parseIpv4_eq_some_iff.mp hparse).1
    rw [rewritten, hhigh, hlow]
  · rintro ⟨before, quad, value, rfl, hquad, rfl⟩
    have hcolon := hquad.colon_not_mem
    obtain ⟨address, hparse, rfl⟩ := dottedQuad_iff.mp hquad
    obtain ⟨hhigh, hlow⟩ := hvalue address (parseIpv4_eq_some_iff.mp hparse).1
    rw [Text.splitLast_append before hcolon, Option.bind_some]
    simp only [hparse, Option.map_some, rewritten, hhigh, hlow]

lemma forall₂_of_dot_not_mem {tokens : List (List Char)} (h : Pieces tokens values)
    (hdot : '.' ∉ [':'].intercalate tokens) : List.Forall₂ Group tokens values := by
  cases h with
  | groups h => exact h
  | quad h hquad => exact absurd ((Delimited.infix_intercalate (by simp)).subset hquad.dot_mem) hdot

/-- Without a dot the two grammars are one. -/
lemma ipv6Text_iff_of_dot_not_mem (hdot : '.' ∉ text) : Ipv6Text text groups ↔ HexText text groups := by
  constructor
  · intro h
    cases h with
    | full h hlength => exact .full (forall₂_of_dot_not_mem h hdot) hlength
    | elided hhead htail hlength =>
      refine .elided hhead (forall₂_of_dot_not_mem htail fun hm => hdot ?_) hlength
      simp [hm]
  · intro h
    cases h with
    | full h hlength => exact .full (.groups h) hlength
    | elided hhead htail hlength => exact .elided hhead (.groups htail) hlength

lemma intercalate_append {left right : List (List Char)} (hl : left ≠ []) (hr : right ≠ []) :
    [':'].intercalate (left ++ right) = [':'].intercalate left ++ ':' :: [':'].intercalate right := by
  induction left with
  | nil => exact absurd rfl hl
  | cons token left ih =>
    have happend : left ++ right ≠ [] := List.append_ne_nil_of_right_ne_nil _ hr
    rw [List.cons_append, List.intercalate_cons_of_ne_nil happend]
    by_cases hleft : left = []
    · rw [hleft, List.nil_append, List.intercalate_singleton]
      simp
    · rw [ih hleft, List.intercalate_cons_of_ne_nil hleft]
      simp

/-- The two groups a dotted tail of this value stands for. -/
private def hexTail (value : ℕ) : List (List Char) :=
  [Nat.toDigits 16 (value / 65536), Nat.toDigits 16 (value % 65536)]

private lemma hexTail_ne_nil (value : ℕ) : hexTail value ≠ [] := List.cons_ne_nil _ _

private lemma rewritten_eq (before : List Char) (value : ℕ) :
    rewritten before value = before ++ ':' :: [':'].intercalate (hexTail value) := by
  rw [rewritten, hexTail, List.intercalate_cons_cons, List.intercalate_singleton]
  simp

private lemma forall₂_hexTail (hvalue : value < 2 ^ 32) :
    List.Forall₂ Group (hexTail value) [value / 65536, value % 65536] :=
  .cons (group_toDigits (by omega)) (.cons (group_toDigits (by omega)) .nil)

/-- With a dot, the text ends in a dotted quad, and the text it is rewritten to has the same
groups. -/
lemma hexText_of_ipv6Text (h : Ipv6Text text groups) (hdot : '.' ∈ text) :
    ∃ before quad value, text = before ++ ':' :: quad ∧ DottedQuad quad value ∧
      HexText (rewritten before value) groups := by
  have hnodot : ∀ {tokens : List (List Char)} {values : List ℕ}, List.Forall₂ Group tokens values →
      '.' ∉ [':'].intercalate tokens := by
    intro tokens values h hm
    obtain hc | ⟨token, ht, hc⟩ := Delimited.mem_intercalate hm
    · exact absurd hc (by decide)
    · exact not_mem_of_forall₂ h (by decide) token ht hc
  cases h with
  | full h hlength =>
    cases h with
    | groups h => exact absurd hdot (hnodot h)
    | @quad tokens values quad value h hquad =>
      have htokens : tokens ≠ [] := by
        rintro rfl
        cases h
        simp at hlength
      refine ⟨[':'].intercalate tokens, quad, value, ?_, hquad, ?_⟩
      · rw [intercalate_append htokens (List.cons_ne_nil _ _), List.intercalate_singleton]
      · rw [rewritten_eq, ← intercalate_append htokens (hexTail_ne_nil _)]
        exact .full (List.rel_append h (forall₂_hexTail hquad.lt)) hlength
  | @elided head tail before after hhead htail hlength =>
    cases htail with
    | groups htail =>
      have hne : '.' ≠ ':' := by decide
      simp [hnodot hhead, hnodot htail, hne] at hdot
    | @quad tokens values quad value h hquad =>
      have hgroups : List.Forall₂ Group (tokens ++ hexTail value)
          (values ++ [value / 65536, value % 65536]) :=
        List.rel_append h (forall₂_hexTail hquad.lt)
      have htext := HexText.elided hhead hgroups hlength
      by_cases htokens : tokens = []
      · refine ⟨[':'].intercalate head ++ [':'], quad, value, ?_, hquad, ?_⟩
        · rw [htokens, List.nil_append, List.intercalate_singleton]
          simp
        · rw [htokens, List.nil_append] at htext
          rw [rewritten_eq, List.append_assoc]
          exact htext
      · refine ⟨[':'].intercalate head ++ ':' :: ':' :: [':'].intercalate tokens, quad, value, ?_,
          hquad, ?_⟩
        · rw [intercalate_append htokens (List.cons_ne_nil _ _), List.intercalate_singleton]
          simp
        · rw [intercalate_append htokens (hexTail_ne_nil _)] at htext
          rw [rewritten_eq, List.append_assoc]
          exact htext

/-- A text is one number at most. -/
lemma rightUnique_group : Relator.RightUnique Group :=
  fun _ _ _ hl hr => hl.value_eq.trans hr.value_eq.symm

/-- Where the last two groups are those of a dotted quad, the quad can stand for them. -/
lemma pieces_of_hexTail {tokens : List (List Char)} {quad : List Char}
    (h : List.Forall₂ Group (tokens ++ hexTail value) groups) (hquad : DottedQuad quad value) :
    Pieces (tokens ++ [quad]) groups := by
  have hsplit : ∀ {tokens : List (List Char)} {groups : List ℕ},
      List.Forall₂ Group (tokens ++ hexTail value) groups →
        ∃ values, List.Forall₂ Group tokens values ∧
          groups = values ++ [value / 65536, value % 65536] := by
    intro tokens
    induction tokens with
    | nil =>
      intro groups h
      exact ⟨[], .nil, List.right_unique_forall₂' rightUnique_group h (forall₂_hexTail hquad.lt)⟩
    | cons token tokens ih =>
      intro groups h
      rw [List.cons_append] at h
      cases h with
      | cons hgroup h =>
        obtain ⟨values, hvalues, rfl⟩ := ih h
        exact ⟨_ :: values, .cons hgroup hvalues, rfl⟩
  obtain ⟨values, hvalues, rfl⟩ := hsplit h
  exact .quad hvalues hquad

private lemma splitChars_rewritten (before : List Char) (hvalue : value < 2 ^ 32) :
    Text.splitChars ':' (rewritten before value) = Text.splitChars ':' before ++ hexTail value := by
  rw [rewritten_eq, Text.splitChars_append]
  congr 1
  exact (Text.splitChars_eq_iff (hexTail_ne_nil _)).mpr ⟨colon_not_mem (forall₂_hexTail hvalue), rfl⟩

/-- The other way: a text that ends in a dotted quad has the groups of what it is rewritten to. -/
lemma ipv6Text_of_hexText {before quad : List Char} (hquad : DottedQuad quad value)
    (h : HexText (rewritten before value) groups) : Ipv6Text (before ++ ':' :: quad) groups := by
  have hcolon := hquad.colon_not_mem
  have htext : Text.splitChars ':' (before ++ ':' :: quad) =
      Text.splitChars ':' before ++ [quad] := by
    rw [Text.splitChars_append, Text.splitChars_eq_singleton hcolon]
  have hbody := splitChars_rewritten before hquad.lt
  generalize hrewritten : rewritten before value = body at h hbody
  cases h with
  | @full tokens _ h hlength =>
    have hne : tokens ≠ [] := by
      rintro rfl
      cases h
      simp at hlength
    rw [(Text.splitChars_eq_iff hne).mpr ⟨colon_not_mem h, rfl⟩] at hbody
    rw [← Text.intercalate_splitChars ':' (before ++ ':' :: quad), htext]
    exact .full (pieces_of_hexTail (hbody ▸ h) hquad) hlength
  | @elided head tail first after hhead htail hlength =>
    have hhex := ne_nil_of_forall₂ (forall₂_hexTail hquad.lt)
    rw [Text.splitChars_append, Text.splitChars, if_pos rfl, List.append_eq_append_iff] at hbody
    obtain ⟨between, hbefore, hafter⟩ | ⟨between, -, hafter⟩ := hbody
    · cases between with
      | nil =>
        rw [List.nil_append] at hafter
        exact absurd rfl (hhex [] (hafter ▸ List.mem_cons_self))
      | cons empty tokens =>
        rw [List.cons_append, List.cons.injEq] at hafter
        obtain ⟨rfl, hafter⟩ := hafter
        have hne : tail ≠ [] := by
          rintro rfl
          have hlengths := congrArg List.length hafter
          simp [Text.splitChars, hexTail] at hlengths
        rw [(Text.splitChars_eq_iff hne).mpr ⟨colon_not_mem htail, rfl⟩] at hafter
        have hpieces := pieces_of_hexTail (hafter ▸ htail) hquad
        have hsplit : Text.splitChars ':' ([':'].intercalate (tokens ++ [quad])) =
            tokens ++ [quad] := by
          refine (Text.splitChars_eq_iff (by simp)).mpr ⟨?_, rfl⟩
          exact hpieces.not_mem (by decide) (by decide) (by decide)
        have hsame : before ++ ':' :: quad =
            [':'].intercalate head ++ ':' :: ':' :: [':'].intercalate (tokens ++ [quad]) := by
          refine Text.splitChars_injective ':' ?_
          rw [htext, hbefore, Text.splitChars_append, Text.splitChars, if_pos rfl, hsplit,
            List.append_assoc, List.cons_append]
        exact hsame ▸ .elided hhead hpieces hlength
    · exact absurd rfl (hhex [] (by simp [hafter]))

end Rewrite

/-- The parser reads the texts of the notation, and the groups they are. -/
theorem parseIpv6_eq_some_iff {text : List Char} {groups : List ℕ} :
    parseIpv6 text = some groups ↔ Ipv6Text text groups := by
  rw [parseIpv6, Option.bind_eq_some_iff]
  refine (exists_congr fun body => and_congr_right fun _ => parseBody_eq_some_iff).trans ?_
  by_cases hdot : '.' ∈ text
  · simp only [withoutEmbeddedIpv4_of_dot_mem hdot]
    constructor
    · rintro ⟨body, ⟨before, quad, value, rfl, hquad, rfl⟩, h⟩
      exact ipv6Text_of_hexText hquad h
    · intro h
      obtain ⟨before, quad, value, htext, hquad, hhex⟩ := hexText_of_ipv6Text h hdot
      exact ⟨_, ⟨before, quad, value, htext, hquad, rfl⟩, hhex⟩
  · rw [withoutEmbeddedIpv4, if_neg (by simpa using hdot), ipv6Text_iff_of_dot_not_mem hdot]
    simp

end Portcall.Dns
