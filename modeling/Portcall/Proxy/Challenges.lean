import Portcall.Proxy.Auth

/-! The challenges of a proxy by their grammar, and what the search for a known word makes of them:
which scheme is demanded, and what has to stand before it for the search to find another. -/
namespace Portcall.Proxy

section Grammar

/-- `tchar` -/
def isTokenChar (c : Char) : Bool :=
  Text.isAlphanumeric c ||
    ['!', '#', '$', '%', '&', '\x27', '*', '+', '-', '.', '^', '_', '\x60', '|', '~'].contains c

structure IsToken (text : List Char) : Prop where
  ne_nil : text ≠ []
  chars : ∀ c ∈ text, isTokenChar c = true

/-- `OWS` and `BWS` -/
def IsSpace (text : List Char) : Prop := ∀ c ∈ text, c = ' ' ∨ c = '\t'

def isToken68Char (c : Char) : Bool :=
  Text.isAlphanumeric c || ['-', '.', '_', '~', '+', '/'].contains c

/-- `token68`: at least one of its characters, then padding. -/
inductive Token68 : List Char → Prop
  | intro {data padding : List Char} (hne : data ≠ []) (hdata : ∀ c ∈ data, isToken68Char c = true)
    (hpadding : ∀ c ∈ padding, c = '=') : Token68 (data ++ padding)

/-- `HTAB / SP / VCHAR / obs-text` -/
def isQuotedPairChar (c : Char) : Bool :=
  c = '\t' || (0x20 ≤ c.toNat && c.toNat ≤ 0x7e) || (0x80 ≤ c.toNat && c.toNat ≤ 0xff)

/-- What follows the opening quote of a `quoted-string`. -/
inductive QuotedRest : List Char → Prop
  | close : QuotedRest ['"']
  | text {c : Char} {rest : List Char} (hc : isQuotedPairChar c = true) (hquote : c ≠ '"')
    (hslash : c ≠ '\\') (h : QuotedRest rest) : QuotedRest (c :: rest)
  | pair {c : Char} {rest : List Char} (hc : isQuotedPairChar c = true) (h : QuotedRest rest) :
    QuotedRest ('\\' :: c :: rest)

/-- `token BWS "=" BWS ( token / quoted-string )` -/
inductive AuthParam : List Char → Prop
  | token {name before after value : List Char} (hname : IsToken name) (hbefore : IsSpace before)
    (hafter : IsSpace after) (hvalue : IsToken value) :
    AuthParam (name ++ before ++ '=' :: after ++ value)
  | quoted {name before after rest : List Char} (hname : IsToken name) (hbefore : IsSpace before)
    (hafter : IsSpace after) (hrest : QuotedRest rest) :
    AuthParam (name ++ before ++ '=' :: after ++ '"' :: rest)

/-- `*( OWS "," [ OWS auth-param ] )` -/
inductive ParamsTail : List Char → Prop
  | nil : ParamsTail []
  | empty {space rest : List Char} (hspace : IsSpace space) (h : ParamsTail rest) :
    ParamsTail (space ++ ',' :: rest)
  | param {space space' param rest : List Char} (hspace : IsSpace space) (hspace' : IsSpace space')
    (hparam : AuthParam param) (h : ParamsTail rest) :
    ParamsTail (space ++ ',' :: space' ++ param ++ rest)

/-- `#auth-param` -/
inductive Params : List Char → Prop
  | nil : Params []
  | empty {rest : List Char} (h : ParamsTail rest) : Params (',' :: rest)
  | param {param rest : List Char} (hparam : AuthParam param) (h : ParamsTail rest) :
    Params (param ++ rest)

/-- `[ 1*SP ( token68 / #auth-param ) ]` -/
inductive ChallengeRest : List Char → Prop
  | bare : ChallengeRest []
  | token68 (n : ℕ) {data : List Char} (h : Token68 data) :
    ChallengeRest (List.replicate (n + 1) ' ' ++ data)
  | params (n : ℕ) {params : List Char} (h : Params params) :
    ChallengeRest (List.replicate (n + 1) ' ' ++ params)

/-- `auth-scheme [ 1*SP ( token68 / #auth-param ) ]` -/
structure Challenge where
  scheme : List Char
  rest : List Char
  token : IsToken scheme
  grammar : ChallengeRest rest

def Challenge.text (challenge : Challenge) : List Char := challenge.scheme ++ challenge.rest

/-- A header is made of challenges and of what stands between them. -/
inductive Piece where
  | gap (text : List Char)
  | challenge (challenge : Challenge)

def Piece.text : Piece → List Char
  | .gap between => between
  | .challenge demanded => demanded.text

/-- `*( OWS "," [ OWS challenge ] )` -/
inductive ChallengesTail : List Piece → Prop
  | nil : ChallengesTail []
  | empty {space : List Char} {rest : List Piece} (hspace : IsSpace space)
    (h : ChallengesTail rest) : ChallengesTail (.gap (space ++ [',']) :: rest)
  | challenge {space space' : List Char} {rest : List Piece} (challenge : Challenge)
    (hspace : IsSpace space) (hspace' : IsSpace space') (h : ChallengesTail rest) :
    ChallengesTail (.gap (space ++ ',' :: space') :: .challenge challenge :: rest)

/-- `1#challenge` -/
inductive Challenges : List Piece → Prop
  | empty {space : List Char} {rest : List Piece} (hspace : IsSpace space)
    (h : Challenges rest) : Challenges (.gap (',' :: space) :: rest)
  | challenge {rest : List Piece} (challenge : Challenge) (h : ChallengesTail rest) :
    Challenges (.challenge challenge :: rest)

/-- What a response may say of the challenges of a proxy. -/
inductive ProxyAuthenticate where
  | absent
  | blank (text : List Char) (h : ∀ c ∈ text, Text.isWhitespace c = true)
  | challenges (pieces : List Piece) (h : Challenges pieces)

end Grammar

section Demand

/-- The scheme a word names, whatever its case. -/
def knownScheme (word : List Char) : Option AuthScheme :=
  let lower := word.map Char.toLower
  if lower = ['n', 'e', 'g', 'o', 't', 'i', 'a', 't', 'e'] then some .negotiate
  else if lower = ['n', 't', 'l', 'm'] then some .ntlm
  else if lower = ['b', 'a', 's', 'i', 'c'] then some .basic
  else none

/-- The first known scheme among the challenges. -/
def preferred : List Piece → Option AuthScheme
  | [] => none
  | .gap _ :: rest => preferred rest
  | .challenge challenge :: rest => (knownScheme challenge.scheme).or (preferred rest)

/-- The text before the first challenge of a known scheme; all of it when there is none. -/
def leadIn : List Piece → List Char
  | [] => []
  | .gap text :: rest => text ++ leadIn rest
  | .challenge challenge :: rest =>
    if (knownScheme challenge.scheme).isSome then [] else challenge.text ++ leadIn rest

namespace ProxyAuthenticate

/-- The header as it is read. -/
def value : ProxyAuthenticate → Option String
  | .absent => none
  | .blank text _ => some (String.ofList text)
  | .challenges pieces _ => some (String.ofList (pieces.flatMap Piece.text))

/-- What the header demands. -/
def demanded : ProxyAuthenticate → AuthScheme
  | .absent | .blank _ _ => .none
  | .challenges pieces _ => (preferred pieces).getD .unknown

def pieces : ProxyAuthenticate → List Piece
  | .absent | .blank _ _ => []
  | .challenges pieces _ => pieces

end ProxyAuthenticate

/-- Whether a word is under way at the end of a text, given whether one was at its start. -/
def endsInWord (inWord : Bool) (text : List Char) : Bool :=
  text.foldl (fun _ c => isWordChar c) inWord

/-- No word goes on here. -/
def Boundary (text : List Char) : Prop := text.head?.any isWordChar = false

/-- A known word stands after `before`, whole. -/
def WordAfter (inWord : Bool) (text before : List Char) (scheme : AuthScheme) : Prop :=
  endsInWord inWord before = false ∧ ∃ word after,
    text = before ++ (word ++ after) ∧ knownScheme word = some scheme ∧ Boundary after

/-- The first known word of a text names this scheme. -/
def FirstWord (text : List Char) (scheme : AuthScheme) : Prop :=
  ∃ before, WordAfter false text before scheme ∧
    ∀ before' scheme', WordAfter false text before' scheme' → before.length ≤ before'.length

end Demand

section Search
variable {word text after : List Char} {scheme : AuthScheme} {inWord : Bool}

def knownWords : List (List Char) :=
  [['n', 'e', 'g', 'o', 't', 'i', 'a', 't', 'e'], ['n', 't', 'l', 'm'], ['b', 'a', 's', 'i', 'c']]

lemma mem_knownWords (h : knownScheme word = some scheme) :
    word.map Char.toLower ∈ knownWords := by
  rw [knownScheme] at h
  split_ifs at h with hnegotiate hntlm hbasic
  · simp [hnegotiate, knownWords]
  · simp [hntlm, knownWords]
  · simp [hbasic, knownWords]

/-- Known words are made of letters. -/
lemma isWordChar_of_known (h : knownScheme word = some scheme) :
    ∀ c ∈ word, isWordChar c = true := by
  intro c hc
  have hall : knownWords.all (fun w => w.all fun d => 'a' ≤ d && d ≤ 'z') = true := by decide
  have hletter := List.all_eq_true.mp (List.all_eq_true.mp hall _ (mem_knownWords h)) _
    (List.mem_map_of_mem hc)
  by_cases hupper : 'A' ≤ c ∧ c ≤ 'Z'
  · simp [isWordChar, Text.isAlphanumeric, hupper]
  · rw [Text.toLower_of_not_upper hupper] at hletter
    simp only [Bool.and_eq_true, decide_eq_true_eq] at hletter
    simp [isWordChar, Text.isAlphanumeric, hletter]

lemma ne_nil_of_known (h : knownScheme word = some scheme) : word ≠ [] := by
  rintro rfl
  cases h

lemma startsWithWord_iff {w : List Char} : startsWithWord w text = true ↔
    ∃ word after, text = word ++ after ∧ word.map Char.toLower = w ∧ Boundary after := by
  rw [startsWithWord, Bool.and_eq_true, Bool.not_eq_true', List.isPrefixOf_iff_prefix]
  constructor
  · rintro ⟨hstarts, hend⟩
    refine ⟨text.take w.length, text.drop w.length, (List.take_append_drop _ _).symm, ?_, hend⟩
    rw [List.map_take, ← List.prefix_iff_eq_take.mp hstarts]
  · rintro ⟨word, after, rfl, rfl, hend⟩
    rw [List.map_append, List.length_map, List.drop_left]
    exact ⟨List.prefix_append _ _, hend⟩

lemma schemeAt_eq_some_iff : schemeAt text = some scheme ↔
    ∃ word after, text = word ++ after ∧ knownScheme word = some scheme ∧ Boundary after := by
  constructor
  · intro h
    rw [schemeAt] at h
    split_ifs at h with hnegotiate hntlm hbasic
    · obtain ⟨word, after, htext, hword, hend⟩ := startsWithWord_iff.mp hnegotiate
      exact ⟨word, after, htext, by rw [knownScheme, if_pos hword, h], hend⟩
    · obtain ⟨word, after, htext, hword, hend⟩ := startsWithWord_iff.mp hntlm
      refine ⟨word, after, htext, ?_, hend⟩
      rw [knownScheme, if_neg (by rw [hword]; decide), if_pos hword, h]
    · obtain ⟨word, after, htext, hword, hend⟩ := startsWithWord_iff.mp hbasic
      refine ⟨word, after, htext, ?_, hend⟩
      rw [knownScheme, if_neg (by rw [hword]; decide), if_neg (by rw [hword]; decide),
        if_pos hword, h]
  · rintro ⟨word, after, rfl, hknown, hend⟩
    have hstarts : startsWithWord (word.map Char.toLower) (word ++ after) = true :=
      startsWithWord_iff.mpr ⟨word, after, rfl, rfl, hend⟩
    -- Two of the words never start one text: their first letters differ, or their second.
    have hother : ∀ w, ¬(w <+: word.map Char.toLower ++ after.map Char.toLower) →
        startsWithWord w (word ++ after) = false := by
      intro w hw
      rw [startsWithWord, List.map_append, Bool.and_eq_false_iff]
      exact Or.inl (Bool.eq_false_iff.mpr fun hp => hw (List.isPrefixOf_iff_prefix.mp hp))
    rw [knownScheme] at hknown
    rw [schemeAt]
    split_ifs at hknown with hnegotiate hntlm hbasic
    · rw [hnegotiate] at hstarts
      rw [if_pos hstarts, hknown]
    · rw [hntlm] at hstarts hother
      rw [hother _ (by simp), if_neg Bool.false_ne_true, if_pos hstarts, hknown]
    · rw [hbasic] at hstarts hother
      rw [hother _ (by simp), if_neg Bool.false_ne_true, hother _ (by simp),
        if_neg Bool.false_ne_true, if_pos hstarts, hknown]

lemma wordAfter_nil_iff : WordAfter inWord text [] scheme ↔
    inWord = false ∧ schemeAt text = some scheme := by
  rw [schemeAt_eq_some_iff]
  rfl

lemma wordAfter_cons_iff {c d : Char} {rest before : List Char} :
    WordAfter inWord (c :: rest) (d :: before) scheme ↔
      c = d ∧ WordAfter (isWordChar c) rest before scheme := by
  constructor
  · rintro ⟨hclean, word, after, htext, hknown, hend⟩
    obtain ⟨rfl, hrest⟩ := List.cons.inj htext
    exact ⟨rfl, hclean, word, after, hrest, hknown, hend⟩
  · rintro ⟨rfl, hclean, word, after, rfl, hknown, hend⟩
    exact ⟨hclean, word, after, rfl, hknown, hend⟩

/-- The search stops at the first known word, if there is one. -/
lemma earliestScheme_spec (inWord : Bool) (text : List Char) :
    (earliestScheme inWord text = none ∧ ∀ before scheme, ¬WordAfter inWord text before scheme) ∨
    ∃ before scheme, earliestScheme inWord text = some scheme ∧
      WordAfter inWord text before scheme ∧
      ∀ before' scheme', WordAfter inWord text before' scheme' →
        before.length < before'.length ∨ (before' = before ∧ scheme' = scheme) := by
  induction text generalizing inWord with
  | nil =>
    refine Or.inl ⟨rfl, ?_⟩
    rintro before scheme ⟨-, word, after, htext, hknown, -⟩
    have hword := (List.append_eq_nil_iff.mp (List.append_eq_nil_iff.mp htext.symm).2).1
    exact ne_nil_of_known hknown hword
  | cons c rest ih =>
    cases hhere : (if inWord then none else schemeAt (c :: rest)) with
    | some scheme =>
      have hnil : WordAfter inWord (c :: rest) [] scheme := by
        rw [wordAfter_nil_iff]
        cases inWord
        · exact ⟨rfl, hhere⟩
        · cases hhere
      refine Or.inr ⟨[], scheme, by rw [earliestScheme, hhere]; rfl, hnil, ?_⟩
      intro before' scheme' h
      cases before' with
      | nil =>
        have hsame := (wordAfter_nil_iff.mp h).2.symm.trans (wordAfter_nil_iff.mp hnil).2
        exact Or.inr ⟨rfl, Option.some.inj hsame⟩
      | cons d before' => exact Or.inl (Nat.succ_pos _)
    | none =>
      have hnot : ∀ scheme, ¬WordAfter inWord (c :: rest) [] scheme := by
        intro scheme h
        obtain ⟨rfl, hscheme⟩ := wordAfter_nil_iff.mp h
        rw [if_neg Bool.false_ne_true, hscheme] at hhere
        cases hhere
      have hstep : earliestScheme inWord (c :: rest) = earliestScheme (isWordChar c) rest := by
        rw [earliestScheme, hhere]
        rfl
      rw [hstep]
      rcases ih (isWordChar c) with ⟨hnone, hall⟩ | ⟨before, scheme, hsome, hat, hfirst⟩
      · refine Or.inl ⟨hnone, ?_⟩
        intro before scheme h
        cases before with
        | nil => exact hnot scheme h
        | cons d before => exact hall before scheme (wordAfter_cons_iff.mp h).2
      · refine Or.inr ⟨c :: before, scheme, hsome, wordAfter_cons_iff.mpr ⟨rfl, hat⟩, ?_⟩
        intro before' scheme' h
        cases before' with
        | nil => exact absurd h (hnot scheme')
        | cons d before' =>
          obtain ⟨rfl, hrest⟩ := wordAfter_cons_iff.mp h
          rcases hfirst before' scheme' hrest with hlt | ⟨rfl, rfl⟩
          · exact Or.inl (Nat.succ_lt_succ hlt)
          · exact Or.inr ⟨rfl, rfl⟩

theorem earliestScheme_eq_some_iff :
    earliestScheme false text = some scheme ↔ FirstWord text scheme := by
  rcases earliestScheme_spec false text with ⟨hnone, hall⟩ | ⟨before, found, hsome, hat, hfirst⟩
  · rw [hnone]
    refine ⟨(by cases ·), ?_⟩
    rintro ⟨before, hat, -⟩
    exact absurd hat (hall before scheme)
  · rw [hsome, Option.some.injEq]
    constructor
    · rintro rfl
      refine ⟨before, hat, fun before' scheme' h => ?_⟩
      rcases hfirst before' scheme' h with hlt | ⟨rfl, -⟩
      · exact hlt.le
      · exact le_rfl
    · rintro ⟨before', hat', hmin⟩
      rcases hfirst before' scheme hat' with hlt | ⟨-, rfl⟩
      · exact absurd (hmin before found hat) (not_le.mpr hlt)
      · rfl

/-- What stands where no word goes on changes nothing of what is found before it. -/
lemma schemeAt_append (h : Boundary after) : schemeAt (text ++ after) = schemeAt text := by
  refine Option.ext fun scheme => ?_
  rw [schemeAt_eq_some_iff, schemeAt_eq_some_iff]
  constructor
  · rintro ⟨word, rest, htext, hknown, hend⟩
    rcases List.append_eq_append_iff.mp htext with ⟨extra, rfl, hafter⟩ | ⟨extra, rfl, rfl⟩
    · cases extra with
      | nil => exact ⟨text, [], (List.append_nil _).symm, by simpa using hknown, rfl⟩
      | cons c extra =>
        rw [hafter] at h
        have hc : isWordChar c = true := isWordChar_of_known hknown c (by simp)
        exact absurd (show isWordChar c = false from h) (by simp [hc])
    · refine ⟨word, extra, rfl, hknown, ?_⟩
      cases extra with
      | nil => rfl
      | cons c extra => exact hend
  · rintro ⟨word, rest, rfl, hknown, hend⟩
    refine ⟨word, rest ++ after, List.append_assoc _ _ _, hknown, ?_⟩
    cases rest with
    | nil => exact h
    | cons c rest => exact hend

/-- A search can be cut behind a character that is of no word. -/
lemma earliestScheme_cut {x : Char} (hx : isWordChar x = false) (inWord : Bool)
    (before after : List Char) : earliestScheme inWord (before ++ x :: after) =
      (earliestScheme inWord before).or (earliestScheme false after) := by
  induction before generalizing inWord with
  | nil =>
    have hnone : schemeAt (x :: after) = none := @schemeAt_append [] (x :: after) hx
    rw [List.nil_append, earliestScheme.eq_def]
    simp only [hnone, ite_self, hx]
    rfl
  | cons c before ih =>
    have hsame : schemeAt (c :: before ++ x :: after) = schemeAt (c :: before) :=
      schemeAt_append hx
    rw [List.cons_append] at hsame ⊢
    rw [earliestScheme, earliestScheme, hsame, ih]
    cases inWord <;> cases schemeAt (c :: before) <;> rfl

lemma earliestScheme_of_no_word (h : ∀ c ∈ text, isWordChar c = false) :
    earliestScheme inWord text = none := by
  induction text generalizing inWord with
  | nil => rfl
  | cons c rest ih =>
    obtain ⟨hc, hrest⟩ := List.forall_mem_cons.mp h
    rw [← List.nil_append (c :: rest), earliestScheme_cut hc, ih hrest]
    rfl

lemma earliestScheme_append_of_no_word (h : ∀ c ∈ after, isWordChar c = false) :
    earliestScheme inWord (text ++ after) = earliestScheme inWord text := by
  cases after with
  | nil => rw [List.append_nil]
  | cons c rest =>
    obtain ⟨hc, hrest⟩ := List.forall_mem_cons.mp h
    rw [earliestScheme_cut hc, earliestScheme_of_no_word hrest, Option.or_none]

lemma earliestScheme_prepend_of_no_word (h : ∀ c ∈ word, isWordChar c = false) :
    earliestScheme false (word ++ text) = earliestScheme false text := by
  induction word with
  | nil => rfl
  | cons c rest ih =>
    obtain ⟨hc, hrest⟩ := List.forall_mem_cons.mp h
    rw [List.cons_append, ← List.nil_append (c :: _), earliestScheme_cut hc, ih hrest]
    rfl

lemma isWordChar_of_isWhitespace {c : Char} (h : Text.isWhitespace c = true) :
    isWordChar c = false := by
  have h0 : '0'.toNat = 48 ∧ '9'.toNat = 57 ∧ 'A'.toNat = 65 ∧ 'Z'.toNat = 90 ∧ 'a'.toNat = 97 ∧
      'z'.toNat = 122 ∧ '_'.toNat = 95 := by decide
  have hle : ∀ d e : Char, d ≤ e ↔ d.toNat ≤ e.toNat := fun _ _ => Iff.rfl
  rw [Bool.eq_false_iff]
  intro hword
  simp only [Text.isWhitespace, Bool.or_eq_true, Bool.and_eq_true, decide_eq_true_eq] at h
  simp only [isWordChar, Text.isAlphanumeric, Text.isDigit, Bool.or_eq_true, Bool.and_eq_true,
    decide_eq_true_eq, hle, ← Char.toNat_inj] at hword
  omega

/-- Trimming a header changes nothing of what is found in it. -/
lemma earliestScheme_trimChars (text : List Char) :
    earliestScheme false (Text.trimChars text) = earliestScheme false text := by
  obtain ⟨lead, trail, htext, hlead, htrail⟩ := Text.exists_trimChars text
  conv_rhs => rw [htext]
  rw [earliestScheme_append_of_no_word fun c hc => isWordChar_of_isWhitespace (htrail c hc),
    earliestScheme_prepend_of_no_word fun c hc => isWordChar_of_isWhitespace (hlead c hc)]

end Search

section Pieces
variable {pieces : List Piece} {text : List Char} {scheme : AuthScheme}

/-- The last character of a text is of no word. -/
def EndsOff (text : List Char) : Prop := ∃ before x, text = before ++ [x] ∧ isWordChar x = false

lemma EndsOff.prepend (before : List Char) (h : EndsOff text) : EndsOff (before ++ text) := by
  obtain ⟨start, x, rfl, hx⟩ := h
  exact ⟨before ++ start, x, (List.append_assoc _ _ _).symm, hx⟩

lemma isWordChar_of_space {c : Char} (h : c = ' ' ∨ c = '\t') : isWordChar c = false := by
  rcases h with rfl | rfl <;> decide

/-- A comma with space around it is of no word at either end. -/
lemma comma_endsOff {space' : List Char} (h : IsSpace space') (space : List Char) :
    EndsOff (space ++ ',' :: space') := by
  rcases List.eq_nil_or_concat space' with rfl | ⟨start, x, rfl⟩
  · exact ⟨space, ',', rfl, by decide⟩
  · exact ⟨space ++ ',' :: start, x, by simp, isWordChar_of_space (h x (by simp))⟩

lemma comma_boundary {space : List Char} (h : IsSpace space) (after : List Char) :
    Boundary (space ++ ',' :: after) := by
  cases space with
  | nil => rfl
  | cons c space => exact isWordChar_of_space (h c List.mem_cons_self)

lemma ChallengesTail.boundary (h : ChallengesTail pieces) :
    Boundary (pieces.flatMap Piece.text) := by
  cases h with
  | nil => rfl
  | empty hspace _ =>
    rw [List.flatMap_cons, Piece.text, List.append_assoc]
    exact comma_boundary hspace _
  | challenge challenge hspace hspace' _ =>
    rw [List.flatMap_cons, Piece.text, List.append_assoc]
    exact comma_boundary hspace _

lemma ChallengeRest.boundary {rest after : List Char} (h : ChallengeRest rest)
    (hafter : Boundary after) : Boundary (rest ++ after) := by
  cases h with
  | bare => exact hafter
  | token68 n _ => rfl
  | params n _ => rfl

lemma leadIn_of_preferred_none (h : preferred pieces = none) :
    leadIn pieces = pieces.flatMap Piece.text := by
  induction pieces with
  | nil => rfl
  | cons piece rest ih =>
    rw [List.flatMap_cons]
    cases piece with
    | gap text => rw [leadIn, ih h, Piece.text]
    | challenge challenge =>
      obtain ⟨hscheme, hrest⟩ := Option.or_eq_none_iff.mp h
      rw [leadIn, hscheme, ih hrest]
      rfl

/-- The pieces with a known scheme are what leads in to it, its word, and what follows. -/
def SplitsAt (pieces : List Piece) (scheme : AuthScheme) : Prop :=
  ∃ word rest, pieces.flatMap Piece.text = leadIn pieces ++ (word ++ rest) ∧
    knownScheme word = some scheme ∧ Boundary rest

lemma SplitsAt.gap {gap : List Char} (h : SplitsAt pieces scheme) :
    SplitsAt (.gap gap :: pieces) scheme := by
  obtain ⟨word, rest, htext, hword⟩ := h
  exact ⟨word, rest, by rw [List.flatMap_cons, htext, leadIn, Piece.text, List.append_assoc], hword⟩

/-- A challenge either is the one that is preferred, or leads in to it. -/
lemma splitsAt_challenge {challenge : Challenge} (h : ChallengesTail pieces)
    (hpreferred : preferred (.challenge challenge :: pieces) = some scheme)
    (hrest : preferred pieces = some scheme → SplitsAt pieces scheme ∧ EndsOff (leadIn pieces)) :
    SplitsAt (.challenge challenge :: pieces) scheme ∧
      (leadIn (.challenge challenge :: pieces) = [] ∨
        EndsOff (leadIn (.challenge challenge :: pieces))) := by
  rw [preferred] at hpreferred
  cases hscheme : knownScheme challenge.scheme with
  | some known =>
    rw [hscheme, Option.some_or] at hpreferred
    have hlead : leadIn (.challenge challenge :: pieces) = [] := by rw [leadIn, hscheme]; rfl
    refine ⟨⟨challenge.scheme, challenge.rest ++ pieces.flatMap Piece.text, ?_,
      hscheme.trans hpreferred, challenge.grammar.boundary h.boundary⟩, Or.inl hlead⟩
    rw [hlead, List.flatMap_cons, Piece.text, Challenge.text, List.append_assoc, List.nil_append]
  | none =>
    rw [hscheme, Option.none_or] at hpreferred
    obtain ⟨⟨word, rest, htext, hword⟩, hends⟩ := hrest hpreferred
    have hlead : leadIn (.challenge challenge :: pieces) = challenge.text ++ leadIn pieces := by
      rw [leadIn, hscheme]
      rfl
    refine ⟨⟨word, rest, ?_, hword⟩, Or.inr (hlead ▸ hends.prepend _)⟩
    rw [hlead, List.flatMap_cons, htext, Piece.text, List.append_assoc]

lemma ChallengesTail.splitsAt (h : ChallengesTail pieces)
    (hpreferred : preferred pieces = some scheme) :
    SplitsAt pieces scheme ∧ EndsOff (leadIn pieces) := by
  induction h with
  | nil => cases hpreferred
  | @empty space rest hspace h ih =>
    obtain ⟨hsplits, hends⟩ := ih hpreferred
    exact ⟨hsplits.gap, hends.prepend _⟩
  | @challenge space space' rest challenge hspace hspace' h ih =>
    obtain ⟨hsplits, hends⟩ := splitsAt_challenge h hpreferred ih
    refine ⟨hsplits.gap, ?_⟩
    rcases hends with hnil | hends
    · rw [leadIn, hnil, List.append_nil]
      exact comma_endsOff hspace' space
    · exact hends.prepend _

lemma Challenges.splitsAt (h : Challenges pieces) (hpreferred : preferred pieces = some scheme) :
    SplitsAt pieces scheme ∧ (leadIn pieces = [] ∨ EndsOff (leadIn pieces)) := by
  induction h with
  | @empty space rest hspace h ih =>
    obtain ⟨hsplits, hends⟩ := ih hpreferred
    refine ⟨hsplits.gap, Or.inr ?_⟩
    rcases hends with hnil | hends
    · rw [leadIn, hnil, List.append_nil]
      exact comma_endsOff hspace []
    · exact hends.prepend _
  | challenge challenge h =>
    exact splitsAt_challenge h hpreferred h.splitsAt

/-- What the search finds in a header: what it finds in the lead-in, or else the scheme that is
preferred. -/
lemma earliestScheme_challenges (h : Challenges pieces) :
    earliestScheme false (pieces.flatMap Piece.text) =
      (earliestScheme false (leadIn pieces)).or (preferred pieces) := by
  cases hpreferred : preferred pieces with
  | none => rw [leadIn_of_preferred_none hpreferred, Option.or_none]
  | some scheme =>
    obtain ⟨⟨word, rest, htext, hknown, hend⟩, hends⟩ := h.splitsAt hpreferred
    have hword : earliestScheme false (word ++ rest) = some scheme :=
      earliestScheme_eq_some_iff.mpr ⟨[], ⟨rfl, word, rest, rfl, hknown, hend⟩,
        fun _ _ _ => Nat.zero_le _⟩
    rw [htext]
    rcases hends with hnil | ⟨before, x, hlead, hx⟩
    · rw [hnil, List.nil_append, hword]
      rfl
    · rw [hlead, ← List.append_cons, earliestScheme_cut hx, earliestScheme_cut hx, hword]
      cases earliestScheme false before <;> rfl

lemma isWhitespace_of_isTokenChar {c : Char} (h : isTokenChar c = true) :
    Text.isWhitespace c = false := by
  rw [isTokenChar, Bool.or_eq_true] at h
  rcases h with h | h
  · rw [Bool.eq_false_iff]
    intro hspace
    have hword := isWordChar_of_isWhitespace hspace
    rw [isWordChar, h] at hword
    cases hword
  · have hall : ['!', '#', '$', '%', '&', '\x27', '*', '+', '-', '.', '^', '_', '\x60', '|',
        '~'].all (fun c => !Text.isWhitespace c) = true := by decide
    simpa using List.all_eq_true.mp hall c (List.contains_iff_mem.mp h)

lemma Challenges.exists_challenge (h : Challenges pieces) :
    ∃ challenge, Piece.challenge challenge ∈ pieces := by
  induction h with
  | empty _ _ ih => exact ih.imp fun _ => List.mem_cons_of_mem _
  | challenge challenge _ => exact ⟨challenge, List.mem_cons_self⟩

/-- A header with a challenge in it is not blank. -/
lemma Challenges.not_blank (h : Challenges pieces) :
    Text.trimChars (pieces.flatMap Piece.text) ≠ [] := by
  intro hnil
  obtain ⟨challenge, hm⟩ := h.exists_challenge
  obtain ⟨lead, trail, htext, hlead, htrail⟩ := Text.exists_trimChars (pieces.flatMap Piece.text)
  obtain ⟨c, hc⟩ := List.exists_mem_of_ne_nil _ challenge.token.ne_nil
  have hmem : c ∈ lead ++ Text.trimChars (pieces.flatMap Piece.text) ++ trail :=
    htext ▸ List.mem_flatMap.mpr ⟨_, hm, List.mem_append_left _ hc⟩
  have hnot := isWhitespace_of_isTokenChar (challenge.token.chars c hc)
  rw [hnil, List.append_nil, List.mem_append] at hmem
  rcases hmem with hm | hm
  · simp [hlead c hm] at hnot
  · simp [htrail c hm] at hnot

lemma classifyAuthScheme_challenges (h : Challenges pieces) :
    classifyAuthScheme (some (String.ofList (pieces.flatMap Piece.text))) =
      ((earliestScheme false (leadIn pieces)).or (preferred pieces)).getD .unknown := by
  rw [classifyAuthScheme, String.toList_ofList]
  simp only [List.isEmpty_iff, h.not_blank, if_false]
  rw [earliestScheme_trimChars, earliestScheme_challenges h]

lemma ne_unknown_of_firstWord (h : FirstWord text scheme) : scheme ≠ .unknown := by
  obtain ⟨_, ⟨-, word, _, -, hknown, -⟩, -⟩ := h
  rintro rfl
  rw [knownScheme] at hknown
  split_ifs at hknown <;> cases hknown

end Pieces

section Classification

lemma classifyAuthScheme_blank {text : List Char} (h : ∀ c ∈ text, Text.isWhitespace c = true) :
    classifyAuthScheme (some (String.ofList text)) = .none := by
  have hnil : Text.trimChars text = [] := by
    rw [Text.trimChars, List.dropWhile_eq_nil_iff.mpr h]
    rfl
  rw [classifyAuthScheme, String.toList_ofList]
  simp [hnil]

/-- A header is classified by what it demands exactly when no known word stands, whole, before the
first challenge of a known scheme, unless the first such word names that scheme itself. -/
theorem classifyAuthScheme_eq_demanded_iff (header : ProxyAuthenticate) :
    classifyAuthScheme header.value = header.demanded ↔
      ∀ scheme, FirstWord (leadIn header.pieces) scheme →
        preferred header.pieces = some scheme := by
  have hnone : ∀ scheme, ¬FirstWord [] scheme := by
    intro scheme h
    cases earliestScheme_eq_some_iff.mpr h
  cases header with
  | absent => exact iff_of_true rfl fun scheme h => absurd h (hnone scheme)
  | blank text h =>
    exact iff_of_true (classifyAuthScheme_blank h) fun scheme h => absurd h (hnone scheme)
  | challenges pieces h =>
    rw [ProxyAuthenticate.value, ProxyAuthenticate.demanded, ProxyAuthenticate.pieces,
      classifyAuthScheme_challenges h]
    cases hfound : earliestScheme false (leadIn pieces) with
    | none =>
      refine iff_of_true rfl fun scheme hfirst => ?_
      rw [earliestScheme_eq_some_iff.mpr hfirst] at hfound
      cases hfound
    | some found =>
      have hfirst := earliestScheme_eq_some_iff.mp hfound
      rw [Option.some_or, Option.getD_some]
      constructor
      · intro h scheme hscheme
        obtain rfl : found = scheme := by
          rw [← Option.some.injEq, ← hfound, earliestScheme_eq_some_iff.mpr hscheme]
        cases hpreferred : preferred pieces with
        | none => exact absurd (by rw [h, hpreferred]; rfl) (ne_unknown_of_firstWord hfirst)
        | some preferred => rw [h, hpreferred]; rfl
      · intro h
        rw [h found hfirst]
        rfl

end Classification

section Realm

/-- A challenge of an unknown scheme whose realm is the word `Basic`. -/
def digestChallenge : Challenge where
  scheme := ['D', 'i', 'g', 'e', 's', 't']
  rest := List.replicate (0 + 1) ' ' ++
    (['r', 'e', 'a', 'l', 'm'] ++ [] ++ '=' :: [] ++ '"' :: ['B', 'a', 's', 'i', 'c', '"'] ++ [])
  token := ⟨by decide, List.all_eq_true.mp (by decide)⟩
  grammar := by
    refine .params 0 (.param (.quoted ⟨by decide, List.all_eq_true.mp (by decide)⟩ ?_ ?_ ?_) .nil)
    · exact fun c hc => absurd hc List.not_mem_nil
    · exact fun c hc => absurd hc List.not_mem_nil
    · iterate 5 refine .text (by decide) (by decide) (by decide) ?_
      exact .close

/-- The realm of a challenge is taken for its scheme. -/
theorem classifyAuthScheme_realm : ¬∀ header : ProxyAuthenticate,
    classifyAuthScheme header.value = header.demanded := by
  intro h
  exact absurd (h (.challenges [.challenge digestChallenge] (.challenge digestChallenge .nil)))
    (by decide)

end Realm

end Portcall.Proxy
