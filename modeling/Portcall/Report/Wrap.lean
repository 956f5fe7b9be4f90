import Portcall.Library.Delimited
import Portcall.Library.GreedyFill
import Portcall.Report.Text

/-! The wrapping of a remediation. The loop keeps its open line as text; as lists of words its lines
are the one greedy grouping of the words. -/
namespace Portcall

/-- The pieces between whitespace that hold anything. -/
def spacedChars (text : List Char) : List (List Char) :=
  (text.splitOnP Text.isWhitespace).filter fun word => !word.isEmpty

def spacedWords (text : String) : List String := (spacedChars text.toList).map String.ofList

/-- `text.length` -/
def units (text : String) : ℕ := (Text.utf16 text).length

/-- The lines of a text wrapped at a width: its words in order, one space between two of them, as
few on a line as the next one allows. -/
structure Wrapped (width : ℕ) (text : String) (lines : List String) : Prop where
  words : lines.flatMap spacedWords = spacedWords text
  spaced : ∀ line ∈ lines, line ≠ "" ∧ Text.join " " (spacedWords line) = line
  fits : ∀ line ∈ lines, units line ≤ width ∨ spacedWords line = [line]
  greedy : lines.IsChain fun line next =>
    ∃ word ∈ (spacedWords next).head?, width < units line + 1 + units word

section Words
variable {text word : List Char}

lemma spacedChars_append_space {c : Char} (hc : Text.isWhitespace c = true)
    (before after : List Char) :
    spacedChars (before ++ c :: after) = spacedChars before ++ spacedChars after := by
  rw [spacedChars, List.splitOnP_append_cons before after hc, List.filter_append]
  rfl

lemma spacedChars_eq_singleton (hne : word ≠ []) (h : ∀ c ∈ word, Text.isWhitespace c = false) :
    spacedChars word = [word] := by
  rw [spacedChars, List.splitOnP_eq_singleton h]
  simp [hne]

/-- What is between two whitespace characters is none itself. -/
lemma isWhitespace_of_mem_splitOnP {c : Char} (hw : word ∈ text.splitOnP Text.isWhitespace)
    (hc : c ∈ word) : Text.isWhitespace c = false := by
  induction text generalizing word with
  | nil =>
    rw [List.splitOnP_nil, List.mem_singleton] at hw
    rw [hw] at hc
    exact absurd hc List.not_mem_nil
  | cons d rest ih =>
    rw [List.splitOnP_cons_eq_if_modifyHead] at hw
    obtain ⟨first, pieces, hs⟩ :=
      List.exists_cons_of_ne_nil (List.splitOnP_ne_nil Text.isWhitespace rest)
    rw [hs, List.modifyHead_cons] at hw
    rw [hs] at ih
    split_ifs at hw with hd
    · rcases List.mem_cons.mp hw with rfl | hw
      · exact absurd hc List.not_mem_nil
      · exact ih hw hc
    · rcases List.mem_cons.mp hw with rfl | hw
      · rcases List.mem_cons.mp hc with rfl | hc
        · exact Bool.eq_false_iff.mpr hd
        · exact ih List.mem_cons_self hc
      · exact ih (List.mem_cons_of_mem _ hw) hc

lemma mem_spacedChars (h : word ∈ spacedChars text) :
    word ≠ [] ∧ ∀ c ∈ word, Text.isWhitespace c = false := by
  obtain ⟨hw, hne⟩ := List.mem_filter.mp h
  exact ⟨by simpa using hne, fun c => isWhitespace_of_mem_splitOnP hw⟩

/-- Cutting at the single spaces runs of whitespace became finds the words between the runs. The
two cuts agree on the first piece, which the next character may go on. -/
lemma exists_splitOn_collapseChars (text : List Char) :
    ∃ first pieces pieces', (Text.collapseChars text).splitOn ' ' = first :: pieces ∧
      text.splitOnP Text.isWhitespace = first :: pieces' ∧
      pieces.filter (fun word => !word.isEmpty) = pieces'.filter (fun word => !word.isEmpty) := by
  induction text with
  | nil => exact ⟨[], [], [], rfl, List.splitOnP_nil, rfl⟩
  | cons c rest ih =>
    obtain ⟨first, pieces, pieces', hcollapsed, htext, hfilter⟩ := ih
    rw [Text.collapseChars, List.splitOnP_cons_eq_if_modifyHead, htext]
    split_ifs with hc
    · split
      · rename_i tail heq
        rw [heq, List.splitOn_cons_eq_if_modifyHead, if_pos (beq_self_eq_true _)] at hcollapsed
        obtain ⟨rfl, rfl⟩ := List.cons.inj hcollapsed
        refine ⟨[], tail.splitOn ' ', _, ?_, rfl, ?_⟩
        · rw [List.splitOn_cons_eq_if_modifyHead, if_pos (beq_self_eq_true _)]
        · rw [hfilter]
          rfl
      · rename_i tail _
        refine ⟨[], first :: pieces, _, ?_, rfl, ?_⟩
        · rw [List.splitOn_cons_eq_if_modifyHead, if_pos (beq_self_eq_true _), hcollapsed]
        · rw [List.filter_cons, List.filter_cons, hfilter]
    · have hspace : c ≠ ' ' := by
        rintro rfl
        exact hc rfl
      refine ⟨c :: first, pieces, pieces', ?_, rfl, hfilter⟩
      rw [List.splitOn_cons_eq_if_modifyHead, if_neg (by simpa using hspace), hcollapsed]
      rfl

lemma wordsOf_eq_spacedWords (text : String) : wordsOf text = spacedWords text := by
  obtain ⟨first, pieces, pieces', hcollapsed, htext, hfilter⟩ :=
    exists_splitOn_collapseChars text.toList
  rw [wordsOf, spacedWords, spacedChars, Text.splitChars_eq_splitOn, hcollapsed, htext,
    List.filter_cons, List.filter_cons, hfilter]

lemma mem_spacedWords {text word : String} (h : word ∈ spacedWords text) :
    word ≠ "" ∧ ∀ c ∈ word.toList, Text.isWhitespace c = false := by
  obtain ⟨chars, hm, rfl⟩ := List.mem_map.mp h
  obtain ⟨hne, hspace⟩ := mem_spacedChars hm
  rw [String.toList_ofList]
  exact ⟨fun he => hne (by rw [← String.toList_ofList (l := chars), he]; rfl), hspace⟩

end Words

section Lines
variable {width : ℕ} {text : String} {words front back lines : List String}

lemma units_append (left right : String) : units (left ++ right) = units left + units right := by
  rw [units, Text.utf16, String.toList_append, List.flatMap_append, List.length_append]
  rfl

lemma join_cons (word : String) (hback : back ≠ []) :
    Text.join " " (word :: back) = word ++ " " ++ Text.join " " back := by
  cases back with
  | nil => exact absurd rfl hback
  | cons next back => rfl

lemma join_append (hfront : front ≠ []) (hback : back ≠ []) :
    Text.join " " (front ++ back) = Text.join " " front ++ " " ++ Text.join " " back := by
  induction front with
  | nil => exact absurd rfl hfront
  | cons word front ih =>
    rw [List.cons_append, join_cons word (List.append_ne_nil_of_right_ne_nil _ hback)]
    by_cases hnil : front = []
    · rw [hnil]
      rfl
    · rw [ih hnil, join_cons word hnil]
      simp only [String.append_assoc]

lemma units_join_append (hfront : front ≠ []) (hback : back ≠ []) :
    units (Text.join " " (front ++ back)) =
      units (Text.join " " front) + 1 + units (Text.join " " back) := by
  rw [join_append hfront hback, units_append, units_append]
  rfl

/-- A word is no longer than the line it begins. -/
lemma units_le_join (word : String) (back : List String) :
    units word ≤ units (Text.join " " (word :: back)) := by
  by_cases hback : back = []
  · rw [hback]
    rfl
  · rw [join_cons word hback, units_append, units_append, Nat.add_assoc]
    exact Nat.le_add_right _ _

lemma join_ne_empty (h : ∀ word ∈ words, word ≠ "") (hne : words ≠ []) :
    Text.join " " words ≠ "" := by
  cases words with
  | nil => exact absurd rfl hne
  | cons word words =>
    by_cases hnil : words = []
    · rw [hnil]
      exact h word List.mem_cons_self
    · rw [join_cons word hnil]
      intro he
      have hlist := congrArg String.toList he
      simp at hlist

/-- Words with one space between two of them are read again. -/
lemma spacedWords_join
    (h : ∀ word ∈ words, word ≠ "" ∧ ∀ c ∈ word.toList, Text.isWhitespace c = false) :
    spacedWords (Text.join " " words) = words := by
  induction words with
  | nil => simp [spacedWords, spacedChars, Text.join, List.splitOnP_nil]
  | cons word words ih =>
    have hword : spacedWords word = [word] := by
      obtain ⟨hne, hspace⟩ := h word List.mem_cons_self
      rw [spacedWords, spacedChars_eq_singleton (by simpa using hne) hspace, List.map_singleton,
        String.ofList_toList]
    by_cases hnil : words = []
    · rw [hnil]
      exact hword
    · have hcut : (Text.join " " (word :: words)).toList =
          word.toList ++ ' ' :: (Text.join " " words).toList := by
        rw [join_cons word hnil, String.toList_append, String.toList_append, List.append_assoc]
        rfl
      have hrest := ih fun word hm => h word (List.mem_cons_of_mem _ hm)
      rw [spacedWords] at hword hrest ⊢
      rw [hcut, spacedChars_append_space rfl, List.map_append, hword, hrest, List.singleton_append]

/-- A word fits on the line behind the ones that are there. -/
def Fits (width : ℕ) (line : List String) (word : String) : Prop :=
  units (Text.join " " line) + 1 + units word ≤ width

instance (line : List String) (word : String) : Decidable (Fits width line word) :=
  inferInstanceAs (Decidable (_ ≤ _))

/-- The loop from an open line on, with the last line put down. -/
lemma foldl_wrapWord (width : ℕ) (lines : List String) (hline : ∀ word ∈ front, word ≠ "")
    (hne : front ≠ [])
    (hwords : ∀ word ∈ words, word ≠ "") :
    ∃ closed current, words.foldl (wrapWord width) (lines, Text.join " " front) = (closed, current) ∧
      current ≠ "" ∧ closed ++ [current] =
        lines ++ (GreedyFill.fillFrom (Fits width) front words).map (Text.join " ") := by
  induction words generalizing lines front with
  | nil => exact ⟨lines, Text.join " " front, rfl, join_ne_empty hline hne, rfl⟩
  | cons word words ih =>
    have hword : word ≠ "" := hwords word List.mem_cons_self
    have hrest : ∀ word ∈ words, word ≠ "" := fun word hm => hwords word (List.mem_cons_of_mem _ hm)
    have hstep : wrapWord width (lines, Text.join " " front) word =
        if Fits width front word then (lines, Text.join " " front ++ " " ++ word)
        else (lines ++ [Text.join " " front], word) := if_neg (join_ne_empty hline hne)
    rw [List.foldl_cons, hstep, GreedyFill.fillFrom]
    by_cases hfits : Fits width front word
    · rw [if_pos hfits, if_pos hfits]
      have hgrown : Text.join " " front ++ " " ++ word = Text.join " " (front ++ [word]) :=
        (join_append hne (List.cons_ne_nil word [])).symm
      rw [hgrown]
      refine ih _ ?_ (List.append_ne_nil_of_left_ne_nil hne _) hrest
      exact List.forall_mem_append.mpr ⟨hline, List.forall_mem_singleton.mpr hword⟩
    · rw [if_neg hfits, if_neg hfits, List.map_cons, List.append_cons lines _ (List.map _ _)]
      exact ih _ (List.forall_mem_singleton.mpr hword) (List.cons_ne_nil _ _) hrest

/-- The lines are the greedy grouping of the words, each group with a space between two words. -/
lemma wrap_eq_fill (text : String) (width : ℕ) :
    wrap text width =
      (GreedyFill.fill (Fits width) (spacedWords text)).map (Text.join " ") := by
  have hwords : ∀ word ∈ spacedWords text, word ≠ "" := fun word hm => (mem_spacedWords hm).1
  rw [wrap, wordsOf_eq_spacedWords]
  cases hs : spacedWords text with
  | nil => rfl
  | cons word words =>
    rw [hs, List.forall_mem_cons] at hwords
    obtain ⟨closed, current, hfold, hcurrent, hlines⟩ :=
      foldl_wrapWord width [] (List.forall_mem_singleton.mpr hwords.1)
        (List.cons_ne_nil word []) hwords.2
    have hfirst : (word :: words).foldl (wrapWord width) ([], "") = (closed, current) := hfold
    rw [hfirst, GreedyFill.fill]
    exact (if_neg hcurrent).trans hlines

/-- What is promised of the lines, read of their words. -/
lemma wrapped_iff_greedy :
    Wrapped width text lines ↔
      GreedyFill.Greedy (Fits width) (spacedWords text) (lines.map spacedWords) ∧
        ∀ line ∈ lines, Text.join " " (spacedWords line) = line := by
  constructor
  · intro h
    have hjoin : ∀ line ∈ lines, Text.join " " (spacedWords line) = line :=
      fun line hm => (h.spaced line hm).2
    refine ⟨⟨by rw [← h.words, List.flatMap_def], ?_, ?_, ?_⟩, hjoin⟩
    · intro hnil
      obtain ⟨line, hm, hwords⟩ := List.mem_map.mp hnil
      refine (h.spaced line hm).1 ?_
      rw [← hjoin line hm, hwords]
      rfl
    · intro front item back hmap hfront
      obtain ⟨line, hm, hwords⟩ := List.mem_map.mp hmap
      rcases h.fits line hm with hfits | hsingle
      · rw [← hjoin line hm, hwords, units_join_append hfront (List.cons_ne_nil _ _)] at hfits
        exact (Nat.add_le_add_left (units_le_join item back) _).trans hfits
      · rw [hwords] at hsingle
        exact absurd (congrArg List.length hsingle) (by
          have := List.length_pos_iff.mpr hfront
          rw [List.length_append, List.length_cons, List.length_singleton]
          omega)
    · rw [List.isChain_map]
      refine h.greedy.imp_of_mem_imp ?_
      intro line next hm _ hfull
      obtain ⟨word, hhead, hlt⟩ := hfull
      refine ⟨word, hhead, ?_⟩
      rw [Fits, hjoin line hm]
      omega
  · rintro ⟨h, hjoin⟩
    refine ⟨by rw [List.flatMap_def, h.flatten], ?_, ?_, ?_⟩
    · refine fun line hm => ⟨?_, hjoin line hm⟩
      rintro rfl
      exact h.nonempty (List.mem_map.mpr ⟨"", hm, by simp [spacedWords, spacedChars]⟩)
    · intro line hm
      have hmap : spacedWords line ∈ lines.map spacedWords := List.mem_map_of_mem hm
      rcases List.eq_nil_or_concat (spacedWords line) with hnil | ⟨front, word, hwords⟩
      · rw [hnil] at hmap
        exact absurd hmap h.nonempty
      · rw [List.concat_eq_append] at hwords
        have hline := hjoin line hm
        rw [hwords] at hline hmap
        by_cases hfront : front = []
        · rw [hfront] at hwords hline
          exact Or.inr (by rw [hwords, ← hline]; rfl)
        · have hfit := h.fitted front word [] hmap hfront
          refine Or.inl ?_
          rw [← hline, units_join_append hfront (List.cons_ne_nil _ _)]
          exact hfit
    · refine ((List.isChain_map spacedWords).mp h.full).imp_of_mem_imp ?_
      intro line next hm _ hfull
      obtain ⟨word, hhead, hlt⟩ := hfull
      refine ⟨word, hhead, ?_⟩
      rw [Fits, hjoin line hm] at hlt
      omega

/-- The lines are the only ones of which all of this holds. -/
theorem wrapped_iff : Wrapped width text lines ↔ lines = wrap text width := by
  have hgreedy : GreedyFill.Greedy (Fits width) (spacedWords text)
      (GreedyFill.fill (Fits width) (spacedWords text)) := GreedyFill.fill_greedy _
  have hread : ∀ line ∈ GreedyFill.fill (Fits width) (spacedWords text),
      spacedWords (Text.join " " line) = line := by
    refine fun line hm => spacedWords_join fun word hword => @mem_spacedWords text word ?_
    rw [← hgreedy.flatten]
    exact List.mem_flatten_of_mem hm hword
  rw [wrapped_iff_greedy, GreedyFill.greedy_iff, wrap_eq_fill]
  constructor
  · rintro ⟨hwords, hjoin⟩
    rw [← hwords, List.map_map]
    exact ((List.map_congr_left hjoin).trans (List.map_id _)).symm
  · rintro rfl
    rw [List.map_map]
    refine ⟨(List.map_congr_left hread).trans (List.map_id _), ?_⟩
    intro line hm
    obtain ⟨words, hwords, rfl⟩ := List.mem_map.mp hm
    rw [hread words hwords]

theorem wrap_wrapped (text : String) (width : ℕ) : Wrapped width text (wrap text width) :=
  wrapped_iff.mpr rfl

/-- The one whitespace character of a line is the space, whatever the text held. -/
lemma not_mem_of_mem_wrap {c : Char} {line : String} (hc : Text.isWhitespace c = true)
    (hspace : c ≠ ' ') (hm : line ∈ wrap text width) : c ∉ line.toList := by
  intro hmem
  rw [← ((wrapped_iff.mpr rfl).spaced line hm).2, Text.toList_join] at hmem
  obtain ⟨chars, hchars, hcword⟩ := (Delimited.mem_intercalate hmem).resolve_left hspace
  obtain ⟨word, hword, rfl⟩ := List.mem_map.mp hchars
  exact absurd hc (Bool.eq_false_iff.mp ((mem_spacedWords hword).2 c hcword))

end Lines

end Portcall
