import Mathlib.Data.List.Basic
import Mathlib.Data.List.Forall2

/-! A tokenizer for marked-up text: characters and tags, with references to characters read where
they stand. It has one state for each thing it can be in the middle of, and takes one character at
a time, so that what it makes of a text made of pieces is made of what it makes of the pieces. -/
namespace Portcall.Markup

/-- What a document is made of: characters of text, and tags with their attributes. The name of an
end tag begins with its slash. -/
inductive Token where
  | char (c : Char)
  | tag (name : String) (attributes : List (String × String))
  deriving DecidableEq, Repr

/-- What a character may mean. -/
inductive Mark where
  | opens
  | closes
  | quote
  | apostrophe
  | ampersand
  | semicolon
  | equals
  | slash
  | space
  | letter
  | other
  deriving DecidableEq, Repr

def isLetter (code : ℕ) : Bool := (65 ≤ code && code ≤ 90) || (97 ≤ code && code ≤ 122)

def markOf (c : Char) : Mark :=
  match c.toNat with
  | 60 => .opens
  | 62 => .closes
  | 34 => .quote
  | 39 => .apostrophe
  | 38 => .ampersand
  | 59 => .semicolon
  | 61 => .equals
  | 47 => .slash
  | 9 | 10 | 12 | 13 | 32 => .space
  | code => if isLetter code then .letter else .other

/-- The one character that has the meaning. -/
def Mark.code : Mark → Option ℕ
  | .opens => some 60
  | .closes => some 62
  | .quote => some 34
  | .apostrophe => some 39
  | .ampersand => some 38
  | .semicolon => some 59
  | .equals => some 61
  | .slash => some 47
  | .space | .letter | .other => none

/-- A tag as far as it has been read. -/
structure OpenTag where
  name : List Char
  attributes : List (String × String)
  deriving DecidableEq, Repr

namespace OpenTag

def token (tag : OpenTag) : Token := .tag (String.ofList tag.name) tag.attributes

def withAttribute (tag : OpenTag) (key value : List Char) : OpenTag :=
  { tag with attributes := tag.attributes ++ [(String.ofList key, String.ofList value)] }

end OpenTag

/-- Where a value ends: at the quote it began with, or at the first space. -/
inductive Ending where
  | quoted (mark : Mark)
  | bare
  deriving DecidableEq, Repr

inductive State where
  | data
  | reference (name : List Char)
  | tagStart
  | tagName (name : List Char)
  | betweenAttributes (tag : OpenTag)
  | attributeName (tag : OpenTag) (key : List Char)
  | valueStart (tag : OpenTag) (key : List Char)
  | value (tag : OpenTag) (key : List Char) (ending : Ending) (read : List Char)
  | valueReference (tag : OpenTag) (key : List Char) (ending : Ending) (read name : List Char)
  deriving DecidableEq, Repr

section Tokenizer
-- the character a name stands for between an ampersand and a semicolon
variable (named : List Char → Option Char)

def inData (c : Char) : List Token × State :=
  match markOf c with
  | .opens => ([], .tagStart)
  | .ampersand => ([], .reference [])
  | _ => ([.char c], .data)

def inValue (tag : OpenTag) (key : List Char) (ending : Ending) (read : List Char)
    (c : Char) : List Token × State :=
  match markOf c, ending with
  | .ampersand, _ => ([], .valueReference tag key ending read [])
  | mark, .quoted last =>
    if mark = last then ([], .betweenAttributes (tag.withAttribute key read))
    else ([], .value tag key ending (read ++ [c]))
  | .space, .bare => ([], .betweenAttributes (tag.withAttribute key read))
  | .closes, .bare => ([(tag.withAttribute key read).token], .data)
  | _, .bare => ([], .value tag key ending (read ++ [c]))

/-- A reference that is none is the text it was written with. -/
def unread (name : List Char) : List Char := '&' :: name

def step : State → Char → List Token × State
  | .data, c => inData c
  | .reference name, c =>
    match markOf c with
    | .semicolon =>
      (match named name with
        | some d => [.char d]
        | none => (unread name ++ [c]).map .char, .data)
    | .letter | .other => ([], .reference (name ++ [c]))
    | _ => ((unread name).map .char ++ (inData c).1, (inData c).2)
  | .tagStart, c =>
    match markOf c with
    | .letter | .slash => ([], .tagName [c])
    | _ => if c.toNat = 33 then ([], .tagName [c]) else (.char '<' :: (inData c).1, (inData c).2)
  | .tagName name, c =>
    match markOf c with
    | .closes => ([OpenTag.token ⟨name, []⟩], .data)
    | .space | .slash => ([], .betweenAttributes ⟨name, []⟩)
    | _ => ([], .tagName (name ++ [c]))
  | .betweenAttributes tag, c =>
    match markOf c with
    | .closes => ([tag.token], .data)
    | .space | .slash => ([], .betweenAttributes tag)
    | _ => ([], .attributeName tag [c])
  | .attributeName tag key, c =>
    match markOf c with
    | .closes => ([(tag.withAttribute key []).token], .data)
    | .space | .slash => ([], .betweenAttributes (tag.withAttribute key []))
    | .equals => ([], .valueStart tag key)
    | _ => ([], .attributeName tag (key ++ [c]))
  | .valueStart tag key, c =>
    match markOf c with
    | .closes => ([(tag.withAttribute key []).token], .data)
    | .space => ([], .valueStart tag key)
    | .quote => ([], .value tag key (.quoted .quote) [])
    | .apostrophe => ([], .value tag key (.quoted .apostrophe) [])
    | _ => inValue tag key .bare [] c
  | .value tag key ending read, c => inValue tag key ending read c
  | .valueReference tag key ending read name, c =>
    match markOf c with
    | .semicolon =>
      ([], .value tag key ending (read ++ match named name with
        | some d => [d]
        | none => unread name ++ [c]))
    | .letter | .other => ([], .valueReference tag key ending read (name ++ [c]))
    | _ => inValue tag key ending (read ++ unread name) c

/-- What a text is read as, and what the tokenizer is in the middle of after it. -/
def run (state : State) : List Char → List Token × State
  | [] => ([], state)
  | c :: rest =>
    let next := step named state c
    let last := run next.2 rest
    (next.1 ++ last.1, last.2)

/-- The tokens of a document; `none` if it ends in the middle of a tag. -/
def tokenize (text : List Char) : Option (List Token) :=
  match run named .data text with
  | (tokens, .data) => some tokens
  | (tokens, .reference name) => some (tokens ++ (unread name).map .char)
  | _ => none

end Tokenizer

section Run
variable {named : List Char → Option Char} {state state' state'' : State}
  {text text' : List Char} {tokens tokens' : List Token}

theorem run_append (state : State) (text text' : List Char) : run named state (text ++ text') =
    ((run named state text).1 ++ (run named (run named state text).2 text').1,
      (run named (run named state text).2 text').2) := by
  induction text generalizing state with
  | nil => rfl
  | cons c rest ih =>
    rw [List.cons_append, run, run, ih]
    simp only [List.append_assoc]

/-- What two pieces are read as, one after the other. -/
lemma run_append_of (h : run named state text = (tokens, state'))
    (h' : run named state' text' = (tokens', state'')) :
    run named state (text ++ text') = (tokens ++ tokens', state'') := by
  rw [run_append, h, h']

/-- The piece is a part of a document: it begins and ends between two characters of text. -/
def Reads (named : List Char → Option Char) (text : List Char) (tokens : List Token) : Prop :=
  run named .data text = (tokens, .data)

lemma Reads.append (h : Reads named text tokens) (h' : Reads named text' tokens') :
    Reads named (text ++ text') (tokens ++ tokens') := run_append_of h h'

lemma tokenize_of_reads (h : Reads named text tokens) : tokenize named text = some tokens := by
  rw [tokenize, h]

/-- Pieces with one and the same piece between them. -/
theorem Reads.intercalate {between : List Char} {betweenTokens : List Token}
    (hbetween : Reads named between betweenTokens) {pieces : List (List Char)}
    {read : List (List Token)} (h : List.Forall₂ (Reads named) pieces read) :
    Reads named (between.intercalate pieces) (betweenTokens.intercalate read) := by
  induction h with
  | nil => rfl
  | @cons piece tokens pieces read hpiece hrest ih =>
    cases hrest with
    | nil => simpa using hpiece
    | cons hnext hrest =>
      rw [List.intercalate_cons_cons, List.intercalate_cons_cons]
      exact (hpiece.append hbetween).append ih

end Run

section Characters
variable {named : List Char → Option Char} {text : List Char} {escape : Char → List Char}

lemma markOf_ne {c : Char} {mark : Mark} {code : ℕ} (hmark : mark.code = some code)
    (h : c.toNat ≠ code) : markOf c ≠ mark := by
  rintro rfl
  refine h ?_
  unfold markOf at hmark
  split at hmark
  all_goals first
    | exact (by assumption : c.toNat = _).trans (Option.some_inj.mp hmark)
    | split_ifs at hmark <;> cases hmark
    | cases hmark

lemma inData_of_plain {c : Char} (hopens : c.toNat ≠ 60) (hreference : c.toNat ≠ 38) :
    inData c = ([.char c], .data) := by
  have hne : markOf c ≠ .opens := markOf_ne rfl hopens
  have hne' : markOf c ≠ .ampersand := markOf_ne rfl hreference
  unfold inData
  cases hmark : markOf c <;> first | rfl | exact absurd hmark hne | exact absurd hmark hne'

lemma inValue_of_plain {c : Char} (hquote : c.toNat ≠ 34) (hreference : c.toNat ≠ 38)
    (tag : OpenTag) (key read : List Char) :
    inValue tag key (.quoted .quote) read c =
      ([], .value tag key (.quoted .quote) (read ++ [c])) := by
  have hne : markOf c ≠ .quote := markOf_ne rfl hquote
  have hne' : markOf c ≠ .ampersand := markOf_ne rfl hreference
  unfold inValue
  cases hmark : markOf c <;> first | rfl | exact absurd hmark hne | exact absurd hmark hne'

/-- A text without a tag or a reference in it. -/
theorem reads_plain (h : ∀ c ∈ text, c.toNat ≠ 60 ∧ c.toNat ≠ 38) :
    Reads named text (text.map .char) := by
  induction text with
  | nil => rfl
  | cons c rest ih =>
    obtain ⟨hopens, hreference⟩ := h c List.mem_cons_self
    have hfirst : Reads named [c] [.char c] := by
      rw [Reads, run, step, inData_of_plain hopens hreference]
      rfl
    exact hfirst.append (ih fun d hd => h d (List.mem_cons_of_mem _ hd))

/-- A text of which every character is written so that it is read as itself. -/
theorem reads_flatMap (h : ∀ c, Reads named (escape c) [.char c]) (text : List Char) :
    Reads named (text.flatMap escape) (text.map .char) := by
  induction text with
  | nil => rfl
  | cons c rest ih => exact (h c).append ih

/-- So written in a value, it stays in the value. -/
theorem run_value_flatMap {tag : OpenTag} {key : List Char} {ending : Ending}
    (h : ∀ c read, run named (.value tag key ending read) (escape c) =
      ([], .value tag key ending (read ++ [c]))) (text read : List Char) :
    run named (.value tag key ending read) (text.flatMap escape) =
      ([], .value tag key ending (read ++ text)) := by
  induction text generalizing read with
  | nil => rw [List.flatMap_nil, List.append_nil, run]
  | cons c rest ih =>
    have hrest := run_append_of (h c read) (ih (read ++ [c]))
    rwa [List.append_assoc, List.singleton_append] at hrest

end Characters

section Outline

/-- The tags and the names of their attributes; between two tags stands one text, which may be
empty. -/
def outline (tokens : List Token) : List (String × List String) :=
  tokens.filterMap fun
    | .char _ => none
    | .tag name attributes => some (name, attributes.map Prod.fst)

variable {tokens tokens' : List Token}

@[simp] lemma outline_nil : outline [] = [] := rfl

@[simp] lemma outline_tag (name : String) (attributes : List (String × String)) :
    outline (.tag name attributes :: tokens) = (name, attributes.map Prod.fst) :: outline tokens :=
  rfl

@[simp] lemma outline_append : outline (tokens ++ tokens') = outline tokens ++ outline tokens' :=
  List.filterMap_append

@[simp] lemma outline_map_char (text : List Char) : outline (text.map .char) = [] := by
  rw [outline, List.filterMap_map, List.filterMap_eq_nil_iff]
  exact fun _ _ => rfl

lemma outline_intercalate {between : List Token} (h : outline between = [])
    (read : List (List Token)) : outline (between.intercalate read) = read.flatMap outline := by
  induction read with
  | nil => rfl
  | cons tokens read ih =>
    cases read with
    | nil => simp
    | cons next rest =>
      rw [List.intercalate_cons_cons, outline_append, outline_append, h, List.append_nil, ih]
      rfl

end Outline
end Portcall.Markup
