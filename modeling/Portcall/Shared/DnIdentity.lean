import Mathlib.Data.Multiset.MapFold
import Portcall.Library.Delimited
import Portcall.Shared.RootIndex

/-! The canonical form of a distinguished name as an identity: which names it tells apart. -/
namespace Portcall
variable (ext : Externals)

section Identity

/-- What one attribute says, whatever the case of its type and the layout and order of its
values. -/
def attributeKey (entry : String × List String) : String × Multiset String :=
  (ext.toLowerCase entry.1, (entry.2.map (normaliseAttribute ext) : List String))

/-- The same attribute types with the same values each. -/
def SameRdn (rdn rdn' : Rdn) : Prop :=
  (rdn.map (attributeKey ext)).Perm (rdn'.map (attributeKey ext))

/-- As many relative names, the same one by one. -/
def SameName (name name' : Name) : Prop := List.Forall₂ (SameRdn ext) name name'

/-- One relative name as the parser builds it, with values over an alphabet: it has an attribute,
each under a type of its own that holds no separator, and each attribute has a value. -/
structure RdnOver (A : Char → Prop) (rdn : Rdn) : Prop where
  ne_nil : rdn ≠ []
  distinct : (rdn.map Prod.fst).Nodup
  type : ∀ entry ∈ rdn, ∀ c ∈ (ext.toLowerCase entry.1).toList, c ≠ ',' ∧ c ≠ '+' ∧ c ≠ '='
  values_ne_nil : ∀ entry ∈ rdn, entry.2 ≠ []
  values : ∀ entry ∈ rdn, ∀ value ∈ entry.2, ∀ c ∈ (normaliseAttribute ext value).toList, A c

def NameOver (A : Char → Prop) (name : Name) : Prop := ∀ rdn ∈ name, RdnOver ext A rdn

/-- Over the alphabet the canonical form is equal for the same names and for no others. -/
def Faithful (A : Char → Prop) : Prop :=
  ∀ name name', NameOver ext A name → NameOver ext A name' →
    (canonicalDn ext name = canonicalDn ext name' ↔ SameName ext name name')

end Identity

section Attribute
variable {ext} {A : Char → Prop} {rdn rdn' : Rdn} {entry entry' : String × List String}

/-- The text of an attribute. -/
lemma toList_canonicalAttribute (entry : String × List String) :
    (canonicalAttribute ext entry).toList = (ext.toLowerCase entry.1).toList ++
      '=' :: ['*'].intercalate
        ((Text.sorted (entry.2.map (normaliseAttribute ext))).map String.toList) := by
  rw [canonicalAttribute, String.toList_append, String.toList_append, Text.toList_join]
  simp

/-- It depends on what the attribute says only. -/
lemma canonicalAttribute_congr (h : attributeKey ext entry = attributeKey ext entry') :
    canonicalAttribute ext entry = canonicalAttribute ext entry' := by
  obtain ⟨htype, hvalues⟩ := Prod.mk.inj h
  rw [canonicalAttribute, canonicalAttribute, htype,
    Text.sorted_eq_iff.mpr (Multiset.coe_eq_coe.mp hvalues)]

/-- What an attribute says, read back from its text. -/
def readAttribute (text : String) : String × Multiset String :=
  (String.ofList (text.toList.takeWhile (· ≠ '=')),
    (Text.split '*' (String.ofList (text.toList.dropWhile (· ≠ '=')).tail) : List String))

lemma mem_sorted {parts : List String} {part : String} : part ∈ Text.sorted parts ↔ part ∈ parts := by
  rw [Text.sorted, List.mem_insertionSort]

/-- Without a `*` in its values the text of an attribute is read back. -/
lemma readAttribute_canonicalAttribute (hstar : ¬A '*') (h : RdnOver ext A rdn) (hm : entry ∈ rdn) :
    readAttribute (canonicalAttribute ext entry) = attributeKey ext entry := by
  have htype : ∀ c ∈ (ext.toLowerCase entry.1).toList, decide (c ≠ '=') = true := fun c hc =>
    decide_eq_true (h.type entry hm c hc).2.2
  have hpieces : ∀ piece ∈
      (Text.sorted (entry.2.map (normaliseAttribute ext))).map String.toList, '*' ∉ piece := by
    intro piece hpiece hc
    obtain ⟨text, htext, rfl⟩ := List.mem_map.mp hpiece
    have hm' : text ∈ entry.2.map (normaliseAttribute ext) := mem_sorted.mp htext
    obtain ⟨value, hvalue, htext⟩ := List.mem_map.mp hm'
    rw [← htext] at hc
    exact hstar (h.values entry hm value hvalue '*' hc)
  have hne : (Text.sorted (entry.2.map (normaliseAttribute ext))).map String.toList ≠ [] := by
    rw [Ne, List.map_eq_nil_iff, Text.sorted, ← List.length_eq_zero_iff, List.length_insertionSort,
      List.length_map, List.length_eq_zero_iff]
    exact h.values_ne_nil entry hm
  have hsplit : Text.splitChars '*' (['*'].intercalate
      ((Text.sorted (entry.2.map (normaliseAttribute ext))).map String.toList)) =
      (Text.sorted (entry.2.map (normaliseAttribute ext))).map String.toList :=
    (Text.splitChars_eq_iff hne).mpr ⟨hpieces, rfl⟩
  rw [readAttribute, toList_canonicalAttribute, List.takeWhile_append_of_pos htype,
    List.dropWhile_append_of_pos htype, Text.split, String.toList_ofList]
  simp only [ne_eq, not_true_eq_false, decide_false, Bool.false_eq_true, not_false_eq_true,
    List.takeWhile_cons_of_neg, List.append_nil, List.dropWhile_cons_of_neg, List.tail_cons, hsplit,
    String.ofList_toList, attributeKey]
  rw [List.map_map]
  refine Prod.ext rfl (Multiset.coe_eq_coe.mpr ?_)
  have hsame : ∀ parts : List String, parts.map (String.ofList ∘ String.toList) = parts := by
    intro parts
    simp [Function.comp_def]
  rw [hsame]
  exact List.perm_insertionSort _ _

end Attribute

section Name
variable {ext} {A : Char → Prop} {rdn rdn' : Rdn} {name name' : Name}

/-- The texts of the attributes of a relative name, in the order they are joined. -/
def attributeTexts (ext : Externals) (rdn : Rdn) : List (List Char) :=
  (Text.sorted (rdn.map (canonicalAttribute ext))).map String.toList

lemma toList_canonicalDn (name : Name) :
    (canonicalDn ext name).toList = Delimited.joined ',' '+' (name.map (attributeTexts ext)) := by
  rw [canonicalDn, Text.toList_join, List.map_map, Delimited.joined, List.map_map]
  congr 1
  refine List.map_congr_left fun rdn _ => ?_
  exact Text.toList_join "+" _

lemma attributeTexts_eq_iff : attributeTexts ext rdn = attributeTexts ext rdn' ↔
    (rdn.map (canonicalAttribute ext)).Perm (rdn'.map (canonicalAttribute ext)) := by
  rw [attributeTexts, attributeTexts,
    (List.map_injective_iff.mpr fun _ _ => String.toList_inj.mp).eq_iff, Text.sorted_eq_iff]

/-- The same names have the same canonical form. -/
lemma canonicalDn_congr (h : SameName ext name name') :
    canonicalDn ext name = canonicalDn ext name' := by
  have hfactors : Function.FactorsThrough (canonicalAttribute ext) (attributeKey ext) :=
    fun _ _ => canonicalAttribute_congr
  have htexts : name.map (attributeTexts ext) = name'.map (attributeTexts ext) := by
    induction h with
    | nil => rfl
    | @cons rdn rdn' name name' hrdn _ ih =>
      rw [List.map_cons, List.map_cons, ih, attributeTexts_eq_iff.mpr]
      have hmap := hrdn.map (Function.extend (attributeKey ext) (canonicalAttribute ext) fun _ => "")
      rwa [List.map_map, List.map_map, hfactors.extend_comp] at hmap
  rw [← String.toList_inj, toList_canonicalDn, toList_canonicalDn, htexts]

/-- A piece of the canonical form: a type, an equals sign, and values with stars between them. -/
def IsPiece (A : Char → Prop) (piece : List Char) : Prop :=
  ∃ front back, piece = front ++ '=' :: back ∧ (∀ c ∈ front, c ≠ ',' ∧ c ≠ '+' ∧ c ≠ '=') ∧
    ∀ c ∈ back, A c ∨ c = '*'

lemma isPiece_of_mem {piece : List Char} (h : RdnOver ext A rdn)
    (hm : piece ∈ attributeTexts ext rdn) : IsPiece A piece := by
  obtain ⟨text, htext, rfl⟩ := List.mem_map.mp hm
  have htext' : text ∈ rdn.map (canonicalAttribute ext) := mem_sorted.mp htext
  obtain ⟨entry, hentry, rfl⟩ := List.mem_map.mp htext'
  refine ⟨_, _, toList_canonicalAttribute entry, h.type entry hentry, fun c hc => ?_⟩
  rcases Delimited.mem_intercalate hc with rfl | ⟨piece, hpiece, hc⟩
  · exact .inr rfl
  · obtain ⟨text, htext, rfl⟩ := List.mem_map.mp hpiece
    have htext' : text ∈ entry.2.map (normaliseAttribute ext) := mem_sorted.mp htext
    obtain ⟨value, hvalue, rfl⟩ := List.mem_map.mp htext'
    exact .inl (h.values entry hentry value hvalue c hc)

lemma grouped (h : NameOver ext A name) :
    Delimited.Grouped (IsPiece A) (name.map (attributeTexts ext)) := by
  intro group hm
  obtain ⟨rdn, hrdn, rfl⟩ := List.mem_map.mp hm
  refine ⟨?_, fun piece => isPiece_of_mem (h rdn hrdn)⟩
  rw [attributeTexts, Ne, List.map_eq_nil_iff, Text.sorted, ← List.length_eq_zero_iff,
    List.length_insertionSort, List.length_map, List.length_eq_zero_iff]
  exact (h rdn hrdn).ne_nil

/-- Where values hold no equals sign, or none of the characters between pieces, it can be told where
a piece ends. -/
lemma selfDelimiting_isPiece (h : ¬A '=' ∨ ¬A ',' ∧ ¬A '+') :
    Delimited.SelfDelimiting (fun c => c = ',' ∨ c = '+') (IsPiece A) := by
  rcases h with hequals | ⟨hcomma, hplus⟩
  · refine Delimited.selfDelimiting_of_mark (by decide : ¬('=' = ',' ∨ '=' = '+')) ?_
    rintro piece ⟨front, back, rfl, hfront, hback⟩
    refine ⟨front, back, rfl, fun c hc => ?_, fun hc => (hfront _ hc).2.2 rfl, fun hc => ?_⟩
    · obtain ⟨h1, h2, -⟩ := hfront c hc
      exact not_or.mpr ⟨h1, h2⟩
    · rcases hback _ hc with hA | hstar
      · exact hequals hA
      · exact absurd hstar (by decide)
  · refine Delimited.selfDelimiting_of_free ?_
    rintro piece ⟨front, back, rfl, hfront, hback⟩ c hc
    rcases List.mem_append.mp hc with hc | hc
    · obtain ⟨h1, h2, -⟩ := hfront c hc
      exact not_or.mpr ⟨h1, h2⟩
    · rcases List.mem_cons.mp hc with rfl | hc
      · decide
      · rintro (rfl | rfl)
        · exact (hback _ hc).elim hcomma (by decide)
        · exact (hback _ hc).elim hplus (by decide)

/-- Names over such an alphabet with the same canonical form are the same. -/
lemma sameName_of_canonicalDn_eq (hstar : ¬A '*') (hA : ¬A '=' ∨ ¬A ',' ∧ ¬A '+')
    (h : NameOver ext A name) (h' : NameOver ext A name')
    (heq : canonicalDn ext name = canonicalDn ext name') : SameName ext name name' := by
  have hpiece : ∀ piece, IsPiece A piece → piece ≠ [] := by
    rintro _ ⟨front, back, rfl, -⟩
    simp
  have hgroups : name.map (attributeTexts ext) = name'.map (attributeTexts ext) := by
    refine Delimited.joined_injOn (by decide : ',' ≠ '+') hpiece (selfDelimiting_isPiece hA)
      (grouped h) (grouped h') ?_
    rw [← toList_canonicalDn, ← toList_canonicalDn, heq]
  have hread : ∀ {rdn}, RdnOver ext A rdn →
      (rdn.map (canonicalAttribute ext)).map readAttribute = rdn.map (attributeKey ext) := by
    intro rdn hrdn
    rw [List.map_map]
    exact List.map_congr_left fun entry => readAttribute_canonicalAttribute hstar hrdn
  induction name generalizing name' with
  | nil =>
    cases name' with
    | nil => exact .nil
    | cons rdn' name' => cases hgroups
  | cons rdn name ih =>
    cases name' with
    | nil => cases hgroups
    | cons rdn' name' =>
      obtain ⟨hrdn, hname⟩ := List.forall_mem_cons.mp h
      obtain ⟨hrdn', hname'⟩ := List.forall_mem_cons.mp h'
      rw [List.map_cons, List.map_cons, List.cons.injEq] at hgroups
      have hperm := (attributeTexts_eq_iff.mp hgroups.1).map readAttribute
      rw [hread hrdn, hread hrdn'] at hperm
      refine .cons hperm (ih hname hname' ?_ hgroups.2)
      rw [← String.toList_inj, toList_canonicalDn, toList_canonicalDn, hgroups.2]

end Name

section Collisions
variable {ext} {A : Char → Prop}

/-- A star in a value is taken for two values. -/
lemma star_collides (hA : A '*') : ¬Faithful ext A := by
  intro h
  have hlower : ext.toLowerCase "1" = "1" := rfl
  have hstar : normaliseAttribute ext "*" = "*" := rfl
  have hempty : normaliseAttribute ext "" = "" := rfl
  have hsame := (h [[("1", ["*"])]] [[("1", ["", ""])]] ?_ ?_).mp rfl
  · obtain ⟨hrdn, -⟩ := List.forall₂_cons.mp hsame
    have hkey : attributeKey ext ("1", ["*"]) = attributeKey ext ("1", ["", ""]) := by
      simpa [SameRdn] using hrdn
    have hcard := congrArg (fun key => Multiset.card key.2) hkey
    simp [attributeKey] at hcard
  · refine List.forall_mem_singleton.mpr ⟨by simp, by simp, ?_, by simp, ?_⟩ <;>
      simp [hlower, hstar, hA]
  · refine List.forall_mem_singleton.mpr ⟨by simp, by simp, ?_, by simp, ?_⟩ <;>
      simp [hlower, hempty]

/-- A comma and an equals sign in a value are taken for another relative name. -/
lemma comma_collides (hA : A '=') (hA' : A ',') : ¬Faithful ext A := by
  intro h
  have hlower : ext.toLowerCase "" = "" := rfl
  have hvalue : normaliseAttribute ext ",=" = ",=" := rfl
  have hempty : normaliseAttribute ext "" = "" := rfl
  have hsame := (h [[("", [",="])]] [[("", [""])], [("", [""])]] ?_ ?_).mp rfl
  · exact absurd hsame.length_eq (by decide)
  · refine List.forall_mem_singleton.mpr ⟨by simp, by simp, ?_, by simp, ?_⟩ <;>
      simp [hlower, hvalue, hA, hA']
  · refine List.forall_mem_cons.mpr ⟨⟨by simp, by simp, ?_, by simp, ?_⟩,
      List.forall_mem_singleton.mpr ⟨by simp, by simp, ?_, by simp, ?_⟩⟩ <;>
      simp [hlower, hempty]

/-- A plus and an equals sign in a value are taken for another attribute. -/
lemma plus_collides (hA : A '=') (hA' : A '+') : ¬Faithful ext A := by
  intro h
  have hlower : ext.toLowerCase "" = "" := rfl
  have hlower' : ext.toLowerCase "1" = "1" := rfl
  have hvalue : normaliseAttribute ext "+=" = "+=" := rfl
  have hempty : normaliseAttribute ext "" = "" := rfl
  have hequal : canonicalDn ext [[("1", ["+="])]] = canonicalDn ext [[("1", [""]), ("", [""])]] := by
    have hfirst : canonicalAttribute ext ("1", [""]) = "1=" := rfl
    have hsecond : canonicalAttribute ext ("", [""]) = "=" := rfl
    have hsorted : Text.sorted ["1=", "="] = ["1=", "="] := by decide
    simp only [canonicalDn, List.map_cons, List.map_nil, hfirst, hsecond, hsorted]
    rfl
  have hsame := (h [[("1", ["+="])]] [[("1", [""]), ("", [""])]] ?_ ?_).mp hequal
  · obtain ⟨hrdn, -⟩ := List.forall₂_cons.mp hsame
    exact absurd hrdn.length_eq (by simp)
  · refine List.forall_mem_singleton.mpr ⟨by simp, by simp, ?_, by simp, ?_⟩ <;>
      simp [hlower', hvalue, hA, hA']
  · refine List.forall_mem_singleton.mpr ⟨by simp, by simp, ?_, by simp, ?_⟩ <;>
      simp [hlower, hlower', hempty]

/-- The canonical form tells apart all names over an alphabet, and only different ones, exactly when
no value can hold a star, and none an equals sign or none a comma or a plus sign. -/
theorem faithful_iff (ext : Externals) (A : Char → Prop) :
    Faithful ext A ↔ ¬A '*' ∧ (¬A '=' ∨ ¬A ',' ∧ ¬A '+') := by
  constructor
  · intro h
    refine ⟨fun hstar => star_collides hstar h, ?_⟩
    by_contra hno
    rw [not_or, not_not, not_and_or, not_not, not_not] at hno
    obtain ⟨hequals, hcomma | hplus⟩ := hno
    · exact comma_collides hequals hcomma h
    · exact plus_collides hequals hplus h
  · rintro ⟨hstar, hA⟩ name name' hname hname'
    exact ⟨sameName_of_canonicalDn_eq hstar hA hname hname', canonicalDn_congr⟩

/-- A common name that holds a comma, and the common name and the organisation it is taken for. -/
theorem commonName_collides : ¬∀ ext, Faithful ext fun _ => True := by
  intro h
  have htype : ∀ type ∈ ["CN", "O"], ∀ c ∈ (fixtureExternals.toLowerCase type).toList,
      c ≠ ',' ∧ c ≠ '+' ∧ c ≠ '=' := by
    intro type hm c hc
    have hall : ∀ type ∈ ["CN", "O"], ((fixtureExternals.toLowerCase type).toList.all fun c =>
        c ≠ ',' && c ≠ '+' && c ≠ '=') = true := by decide
    simpa [and_assoc] using List.all_eq_true.mp (hall type hm) c hc
  have hsame := (h fixtureExternals [[("CN", ["acme,O=root"])]]
    [[("CN", ["acme"])], [("O", ["root"])]] ?_ ?_).mp (by decide +kernel)
  · exact absurd hsame.length_eq (by decide)
  · exact List.forall_mem_singleton.mpr ⟨by simp, by simp,
      List.forall_mem_singleton.mpr (htype "CN" (by simp)), by simp, by simp⟩
  · exact List.forall_mem_cons.mpr ⟨⟨by simp, by simp,
      List.forall_mem_singleton.mpr (htype "CN" (by simp)), by simp, by simp⟩,
      List.forall_mem_singleton.mpr ⟨by simp, by simp,
        List.forall_mem_singleton.mpr (htype "O" (by simp)), by simp, by simp⟩⟩

end Collisions
end Portcall
