import Portcall.Library.Markup
import Portcall.Report.Html

/-! The HTML rendering read as marked-up text, piece by piece: what a reader of the document sees
of a piece of the template, of an escaped string, and of one in the value of an attribute. -/
namespace Portcall
open Markup Token

/-- The references of the document, by name and by number. -/
def namedReferences : List (String × Char) :=
  [("amp", '&'), ("lt", '<'), ("gt", '>'), ("quot", '"'), ("middot", '·')]

def htmlReference : List Char → Option Char
  | '#' :: digits =>
    if digits ≠ [] ∧ digits.all Text.isDigit then some (Char.ofNat (Text.decimal digits)) else none
  | name => (namedReferences.find? fun entry => entry.1.toList = name).map Prod.snd

/-- What a reader of the document sees of a piece of it. -/
def HtmlReads (text : String) (tokens : List Token) : Prop := Reads htmlReference text.toList tokens

/-- A string as it is seen. -/
def chars (text : String) : List Token := text.toList.map .char

section Pieces
variable {text text' : String} {tokens tokens' : List Token}

@[simp] lemma chars_append : chars (text ++ text') = chars text ++ chars text' := by
  simp [chars]

@[simp] lemma outline_chars (text : String) : outline (chars text) = [] :=
  outline_map_char text.toList

lemma HtmlReads.append (h : HtmlReads text tokens) (h' : HtmlReads text' tokens') :
    HtmlReads (text ++ text') (tokens ++ tokens') := by
  rw [HtmlReads, String.toList_append]
  exact Reads.append h h'

/-- A text between two pieces of the template. -/
lemma HtmlReads.between {before after : String} {beforeTokens afterTokens : List Token}
    (h : HtmlReads text tokens) (hbefore : HtmlReads before beforeTokens)
    (hafter : HtmlReads after afterTokens) :
    HtmlReads (before ++ text ++ after) (beforeTokens ++ tokens ++ afterTokens) :=
  (hbefore.append h).append hafter

lemma HtmlReads.append_chars {content content' : String} (h : HtmlReads text (chars content))
    (h' : HtmlReads text' (chars content')) :
    HtmlReads (text ++ text') (chars (content ++ content')) := by
  rw [chars_append]
  exact h.append h'

lemma run_literal {state state' : State} {text : List Char}
    (h : run htmlReference state text = (tokens, state')) :
    run htmlReference state (String.ofList text).toList = (tokens, state') := by
  rwa [String.toList_ofList]

/-- A piece of the template. -/
lemma reads_literal {text : List Char} (h : run htmlReference .data text = (tokens, .data)) :
    HtmlReads (String.ofList text) tokens := run_literal h

/-- No character of the text means anything but itself. -/
def IsPlain (text : String) : Prop := '<' ∉ text.toList ∧ '&' ∉ text.toList

lemma isPlain_literal {text : List Char}
    (h : text.all (fun c => c.toNat != '<'.toNat && c.toNat != '&'.toNat) = true) :
    IsPlain (String.ofList text) := by
  rw [List.all_eq_true] at h
  rw [IsPlain, String.toList_ofList]
  exact ⟨fun hm => absurd (h _ hm) (by decide), fun hm => absurd (h _ hm) (by decide)⟩

lemma toNat_ne {c d : Char} (h : c ≠ d) : c.toNat ≠ d.toNat := fun he => h (Char.toNat_inj.mp he)

lemma IsPlain.reads (h : IsPlain text) : HtmlReads text (chars text) := by
  refine reads_plain fun c hc => ⟨@toNat_ne c '<' ?_, @toNat_ne c '&' ?_⟩
  · rintro rfl
    exact h.1 hc
  · rintro rfl
    exact h.2 hc

lemma isPlain_toString (n : ℕ) : IsPlain (toString n) :=
  ⟨Text.not_mem_toString n (by decide), Text.not_mem_toString n (by decide)⟩

lemma IsPlain.append (h : IsPlain text) (h' : IsPlain text') : IsPlain (text ++ text') := by
  rw [IsPlain, String.toList_append, List.mem_append, List.mem_append]
  exact ⟨not_or_intro h.1 h'.1, not_or_intro h.2 h'.2⟩

lemma isPlain_join {parts : List String} (h : ∀ part ∈ parts, IsPlain part) :
    IsPlain (Text.join "" parts) := by
  induction parts with
  | nil => exact @isPlain_literal [] rfl
  | cons part rest ih =>
    cases rest with
    | nil => exact h part List.mem_cons_self
    | cons next rest =>
      rw [Text.join, String.append_empty]
      · exact (h part List.mem_cons_self).append (ih fun p hp => h p (List.mem_cons_of_mem _ hp))
      · exact List.cons_ne_nil next rest

/-- Lines, with their ends between them. -/
lemma reads_lines {lines : List String} {read : List (List Token)}
    (h : List.Forall₂ HtmlReads lines read) :
    HtmlReads (Text.join "\n" lines) ([.char '\n'].intercalate read) := by
  rw [HtmlReads, Text.toList_join]
  have hline : Reads htmlReference "\n".toList [.char '\n'] := rfl
  refine hline.intercalate ?_
  rwa [List.forall₂_map_left_iff]

end Pieces

section Escaped

/-- Each character is written so that it is read as itself. -/
lemma reads_escapeChar (c : Char) : Reads htmlReference (escapeChar c) [.char c] := by
  unfold escapeChar
  split_ifs with hamp hlt hgt hquote hapos
  · subst hamp
    exact reads_literal rfl
  · subst hlt
    exact reads_literal rfl
  · subst hgt
    exact reads_literal rfl
  · subst hquote
    exact reads_literal rfl
  · subst hapos
    exact reads_literal rfl
  · exact @reads_plain htmlReference [c] fun d hd => by
      rw [List.mem_singleton.mp hd]
      exact ⟨toNat_ne hlt, toNat_ne hamp⟩

/-- An escaped string is seen as the string. -/
theorem reads_escapeHtml (text : String) : HtmlReads (escapeHtml text) (chars text) := by
  rw [HtmlReads, escapeHtml_eq, String.toList_ofList]
  exact reads_flatMap reads_escapeChar text.toList

/-- In the value of an attribute each character stays in the value. -/
lemma run_value_escapeChar (tag : OpenTag) (key : List Char) (c : Char) (read : List Char) :
    run htmlReference (.value tag key (.quoted .quote) read) (escapeChar c) =
      ([], .value tag key (.quoted .quote) (read ++ [c])) := by
  unfold escapeChar
  split_ifs with hamp hlt hgt hquote hapos
  · subst hamp
    rfl
  · subst hlt
    rfl
  · subst hgt
    rfl
  · subst hquote
    rfl
  · subst hapos
    rfl
  · rw [run, step, inValue_of_plain (toNat_ne hquote) (toNat_ne hamp)]
    rfl

/-- The text, as it stands in a value, adds this to the value and does not end it. -/
def StaysInValue (text value : String) : Prop :=
  ∀ tag key read, run htmlReference (.value tag key (.quoted .quote) read) text.toList =
    ([], .value tag key (.quoted .quote) (read ++ value.toList))

lemma staysInValue_escapeHtml (text : String) : StaysInValue (escapeHtml text) text := by
  intro tag key read
  rw [escapeHtml_eq, String.toList_ofList]
  exact run_value_flatMap (run_value_escapeChar tag key) text.toList read

lemma staysInValue_severity (severity : Severity) : StaysInValue severity.text severity.text := by
  intro tag key read
  cases severity <;> simp [Severity.text, run, step, inValue, markOf, isLetter]

/-- A tag with such a text in the value of one of its attributes. -/
lemma reads_attribute {before text value after lead : String} {tag : OpenTag} {key : List Char}
    {tokens tokens' : List Token} (htext : StaysInValue text value)
    (hbefore : run htmlReference .data before.toList =
      (tokens, .value tag key (.quoted .quote) lead.toList))
    (hafter : ∀ read, String.ofList read = lead ++ value →
      run htmlReference (.value tag key (.quoted .quote) read) after.toList = (tokens', .data)) :
    HtmlReads (before ++ text ++ after) (tokens ++ tokens') := by
  have hvalue := hafter (lead.toList ++ value.toList) (by
    rw [String.ofList_append, String.ofList_toList, String.ofList_toList])
  have hopen := run_append_of hbefore (htext tag key lead.toList)
  rw [List.append_nil] at hopen
  rw [HtmlReads, String.toList_append, String.toList_append]
  exact run_append_of hopen hvalue

end Escaped

end Portcall
