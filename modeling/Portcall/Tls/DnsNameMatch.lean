import Portcall.Shared.LowerCase
import Portcall.Tls.Evaluate

/-! Which names a certificate's dNSName covers: the cuts at first dots come to a rule about the
labels of the two names. -/
namespace Portcall.Tls
variable {ext : Externals}

/-- The labels of a name. -/
def labels (name : List Char) : List (List Char) := Text.splitChars '.' name

/-- A name as it is compared: in lower case and without one trailing dot. -/
def compared (ext : Externals) (name : String) : List Char :=
  withoutTrailingDot (ext.toLowerCase name).toList

/-- The rule, on compared names: the pattern is the name, or its first label is the wildcard and
stands for one label of the name, before at least two that are the same. -/
inductive Covers (pattern name : List Char) : Prop where
  | exactly (hstar : '*' ∉ pattern) (heq : pattern = name)
  | wildcard (label : List Char) (rest : List (List Char)) (htwo : 2 ≤ rest.length)
      (hstar : ∀ piece ∈ rest, '*' ∉ piece) (hpattern : labels pattern = ['*'] :: rest)
      (hname : labels name = label :: rest)

section Labels
variable {name : List Char}

lemma labels_cons_iff {label : List Char} {rest : List (List Char)} (hne : rest ≠ []) :
    labels name = label :: rest ↔
      '.' ∉ label ∧ ∃ after, name = label ++ '.' :: after ∧ labels after = rest := by
  constructor
  · intro h
    have hmem := fun piece (hm : piece ∈ labels name) => Text.not_mem_of_mem_splitChars hm
    have hname := Text.intercalate_splitChars '.' name
    rw [labels] at h hmem
    rw [h] at hmem hname
    rw [List.intercalate_cons_of_ne_nil hne] at hname
    refine ⟨hmem label List.mem_cons_self, ['.'].intercalate rest, ?_, ?_⟩
    · rw [← hname, List.append_assoc, List.singleton_append]
    · exact (Text.splitChars_eq_iff hne).mpr
        ⟨fun piece hm => hmem piece (List.mem_cons_of_mem _ hm), rfl⟩
  · rintro ⟨hdot, after, rfl, rfl⟩
    exact Text.splitChars_append_cons hdot _

lemma two_le_length_labels_iff : 2 ≤ (labels name).length ↔ '.' ∈ name := by
  constructor
  · intro h
    by_contra hdot
    rw [labels, Text.splitChars_eq_singleton hdot] at h
    simp at h
  · intro h
    obtain ⟨label, after, rfl, hdot⟩ := List.eq_append_cons_of_mem h
    rw [labels, Text.splitChars_append_cons hdot, List.length_cons]
    have hpos := List.length_pos_iff.mpr (Text.splitChars_ne_nil '.' after)
    omega

/-- A character other than the dot is in no label exactly when it is not in the name. -/
lemma forall_not_mem_labels_iff {c : Char} (hc : c ≠ '.') :
    (∀ piece ∈ labels name, c ∉ piece) ↔ c ∉ name := by
  constructor
  · intro h hm
    rcases @Text.mem_splitChars '.' _ _ hm with hdot | ⟨piece, hp, hcp⟩
    · exact hc hdot
    · exact h piece hp hcp
  · exact fun h piece hp hcp => h (Text.mem_of_mem_splitChars hp hcp)

end Labels

section Compared

/-- Lower-casing leaves the trailing dot where it is. -/
lemma lowersTo_withoutTrailingDot {text lower : List Char} (h : LowersTo text lower) :
    LowersTo (withoutTrailingDot text) (withoutTrailingDot lower) := by
  induction text using List.reverseRecOn with
  | nil =>
    cases h
    exact .nil
  | append_singleton front c _ =>
    obtain ⟨before, piece, rfl, hfront, hc⟩ := h.append_singleton
    have hlast : (before ++ piece).getLast? = piece.getLast? :=
      List.getLast?_append_of_ne_nil _ hc.ne_nil
    unfold withoutTrailingDot
    rw [hlast, List.getLast?_concat]
    by_cases hdot : c = '.'
    · rw [hc.mark (hdot ▸ by decide), hdot, List.getLast?_singleton, if_pos rfl, if_pos rfl,
        List.dropLast_concat, List.dropLast_concat]
      exact hfront
    · rw [if_neg (by simpa using hdot), if_neg fun he => ?_]
      · exact h
      · exact hdot (hc.of_mark '.' (List.mem_of_getLast? he) (by decide)).symm

/-- A name whose labels are not empty is not empty and starts with no dot, in lower case as well. -/
lemma compared_of_labels (hlower : LowersByCharacter ext) {name : String}
    (h : ∀ label ∈ labels (withoutTrailingDot name.toList), label ≠ []) :
    compared ext name ≠ [] ∧ (compared ext name).head? ≠ some '.' := by
  have hto : LowersTo (withoutTrailingDot name.toList) (compared ext name) :=
    lowersTo_withoutTrailingDot (hlower.toLowerCase name)
  refine ⟨fun hnil => ?_, fun hhead => ?_⟩
  · rw [hto.eq_nil_iff.mp hnil] at h
    exact h [] List.mem_cons_self rfl
  · have hdot := hto.head?_of_mark (by decide) hhead
    cases htext : withoutTrailingDot name.toList with
    | nil => rw [htext] at hdot; cases hdot
    | cons c rest =>
      rw [htext, List.head?_cons, Option.some.injEq] at hdot
      rw [htext, hdot] at h
      refine h [] ?_ rfl
      rw [labels, Text.splitChars, if_pos rfl]
      exact List.mem_cons_self

end Compared

section Match
variable {pattern name : List Char}

lemma findIdx?_dot {label : List Char} (h : '.' ∉ label) (after : List Char) :
    (label ++ '.' :: after).findIdx? (· = '.') = some label.length := by
  rw [List.findIdx?_append, List.findIdx?_eq_none_iff.mpr]
  · rw [List.findIdx?_cons, if_pos (by simp)]
    simp
  · intro c hc
    rw [decide_eq_false_iff_not]
    rintro rfl
    exact h hc

/-- A pattern that does not start with the wildcard and a dot covers itself, without a star. -/
lemma covers_iff_of_not_wildcard (h : ¬['*', '.'] <+: pattern) :
    Covers pattern name ↔ '*' ∉ pattern ∧ pattern = name := by
  constructor
  · rintro (⟨hstar, heq⟩ | ⟨label, rest, htwo, -, hpattern, -⟩)
    · exact ⟨hstar, heq⟩
    · have hne : rest ≠ [] := List.ne_nil_of_length_pos (by omega)
      obtain ⟨-, after, rfl, -⟩ := (labels_cons_iff hne).mp hpattern
      exact absurd ⟨after, rfl⟩ h
  · rintro ⟨hstar, heq⟩
    exact .exactly hstar heq

/-- One that does covers the names that have a label before what follows the wildcard. -/
lemma covers_iff_of_wildcard {after : List Char} :
    Covers ('*' :: '.' :: after) name ↔
      '*' ∉ after ∧ '.' ∈ after ∧ ∃ label, '.' ∉ label ∧ name = label ++ '.' :: after := by
  have hlabels : labels ('*' :: '.' :: after) = ['*'] :: labels after :=
    @Text.splitChars_append_cons '.' ['*'] (by decide) after
  have hne : labels after ≠ [] := Text.splitChars_ne_nil _ _
  constructor
  · rintro (⟨hstar, -⟩ | ⟨label, rest, htwo, hstar, hpattern, hname⟩)
    · exact absurd List.mem_cons_self hstar
    · rw [hlabels, List.cons.injEq] at hpattern
      obtain ⟨-, rfl⟩ := hpattern
      obtain ⟨hdot, after', rfl, hafter⟩ := (labels_cons_iff hne).mp hname
      rw [Text.splitChars_injective '.' hafter]
      exact ⟨(forall_not_mem_labels_iff (by decide)).mp hstar, two_le_length_labels_iff.mp htwo,
        label, hdot, rfl⟩
  · rintro ⟨hstar, hdot, label, hlabel, rfl⟩
    exact .wildcard label (labels after) (two_le_length_labels_iff.mpr hdot)
      ((forall_not_mem_labels_iff (by decide)).mpr hstar) hlabels
      (Text.splitChars_append_cons hlabel _)

/-- What is left of a name from its first dot on is the rest of the pattern exactly when the two
differ in the first label. -/
lemma cut_eq_iff {candidate after : List Char} (hhead : candidate.head? ≠ some '.') :
    (match candidate.findIdx? (· = '.') with
      | none => false
      | some 0 => false
      | some firstDot => candidate.drop firstDot == '.' :: after) = true ↔
      ∃ label, '.' ∉ label ∧ candidate = label ++ '.' :: after := by
  by_cases hdot : '.' ∈ candidate
  · obtain ⟨label, rest, rfl, hlabel⟩ := List.eq_append_cons_of_mem hdot
    rw [findIdx?_dot hlabel]
    cases label with
    | nil => exact absurd rfl hhead
    | cons c label =>
      change (List.drop (c :: label).length (c :: label ++ '.' :: rest) == '.' :: after) = true ↔ _
      rw [List.drop_left, beq_iff_eq]
      constructor
      · intro heq
        exact ⟨c :: label, hlabel, by rw [heq]⟩
      · rintro ⟨label', hlabel', heq⟩
        rw [(Text.append_cons_inj hlabel hlabel' heq).2]
  · have hnone : candidate.findIdx? (· = '.') = none := by
      rw [List.findIdx?_eq_none_iff]
      intro c hc
      rw [decide_eq_false_iff_not]
      rintro rfl
      exact hdot hc
    rw [hnone]
    refine iff_of_false Bool.false_ne_true ?_
    rintro ⟨label, -, rfl⟩
    exact hdot (List.mem_append_right _ List.mem_cons_self)

end Match

/-- A name is matched exactly when the pattern covers it, label by label. -/
lemma matchesDnsName_eq_true_iff (hlower : LowersByCharacter ext) (name pattern : String)
    (h : ∀ label ∈ labels (withoutTrailingDot name.toList), label ≠ []) :
    matchesDnsName ext name pattern = true ↔
      Covers (compared ext pattern) (compared ext name) := by
  obtain ⟨hne, hhead⟩ := compared_of_labels hlower h
  have hcompared : ∀ text, withoutTrailingDot (ext.toLowerCase text).toList = compared ext text :=
    fun _ => rfl
  unfold matchesDnsName
  simp only [hcompared]
  generalize compared ext name = candidate at hne hhead ⊢
  generalize compared ext pattern = wanted
  rw [List.isEmpty_eq_false_iff.mpr hne, Bool.false_or]
  by_cases hwild : ['*', '.'] <+: wanted
  · obtain ⟨after, rfl⟩ := hwild
    rw [List.cons_append, List.cons_append, List.nil_append, covers_iff_of_wildcard]
    simp only [List.isEmpty_cons, Bool.false_eq_true, if_false, List.isPrefixOf_cons_cons_self,
      List.isPrefixOf_nil_left, Bool.not_true, List.drop_succ_cons, List.drop_zero,
      List.contains_eq_mem, List.mem_cons, Char.reduceEq, false_or, decide_eq_true_eq,
      Bool.not_eq_eq_eq_not, decide_eq_false_iff_not, ite_not, Bool.if_false_right,
      Bool.if_false_left, Bool.and_eq_true, and_congr_right_iff]
    intro _ _
    exact cut_eq_iff hhead
  · rw [covers_iff_of_not_wildcard hwild]
    have hstart : ['*', '.'].isPrefixOf wanted = false := by
      rwa [Bool.eq_false_iff, ne_eq, List.isPrefixOf_iff_prefix]
    simp only [hstart, Bool.not_false, if_true, List.isEmpty_iff, Bool.if_false_left,
      Bool.and_eq_true, Bool.not_eq_true', decide_eq_false_iff_not, List.contains_eq_mem,
      beq_iff_eq, eq_comm (a := candidate)]
    constructor
    · exact fun h => h.2
    · rintro ⟨hstar, rfl⟩
      exact ⟨hne, hstar, rfl⟩

/-- Where a pattern with a star covers a name, the star is its first label and stands for the
first label of the name, and the others are the same. -/
lemma Covers.of_star {pattern name : List Char} (h : Covers pattern name) (hstar : '*' ∈ pattern) :
    ∃ label rest, labels pattern = ['*'] :: rest ∧ labels name = label :: rest := by
  rcases h with ⟨hnot, -⟩ | ⟨label, rest, -, -, hpattern, hname⟩
  · exact absurd hstar hnot
  · exact ⟨label, rest, hpattern, hname⟩

/-- Matching is the rule about labels; so a wildcard spans no dot, does not match the bare parent
and is no part of a label. -/
theorem matchesDnsName_labels (hlower : LowersByCharacter ext) (name pattern : String)
    (h : ∀ label ∈ labels (withoutTrailingDot name.toList), label ≠ []) :
    (matchesDnsName ext name pattern = true ↔
      Covers (compared ext pattern) (compared ext name)) ∧
    (matchesDnsName ext name pattern = true → '*' ∈ compared ext pattern →
      ∃ label rest, labels (compared ext pattern) = ['*'] :: rest ∧
        labels (compared ext name) = label :: rest) := by
  have hiff := matchesDnsName_eq_true_iff hlower name pattern h
  exact ⟨hiff, fun hmatch hstar => (hiff.mp hmatch).of_star hstar⟩

theorem matchesDnsName_labels_api :
    (matchesDnsName fixtureExternals "api.example.com." "*.Example.com" = true ↔
      Covers (compared fixtureExternals "*.Example.com")
        (compared fixtureExternals "api.example.com.")) ∧
    (matchesDnsName fixtureExternals "api.example.com." "*.Example.com" = true →
      '*' ∈ compared fixtureExternals "*.Example.com" →
      ∃ label rest, labels (compared fixtureExternals "*.Example.com") = ['*'] :: rest ∧
        labels (compared fixtureExternals "api.example.com.") = label :: rest) :=
  matchesDnsName_labels (lowersByCharacter_of_id rfl) _ _ (by decide)

example : matchesDnsName fixtureExternals "api.example.com." "*.Example.com" = true := by decide

end Portcall.Tls
