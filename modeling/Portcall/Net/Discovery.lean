import Portcall.Library.Glob
import Portcall.Net.PartialReads

/-! What a discovery pattern stands for, and when the bounded search finds the first of it. -/
namespace Portcall.Net
variable (ext : Externals) (fs : FileSystem) (lookup : Lookup)

section Pattern

/-- A `*` is any text, and every other character is itself, in either case on Windows. -/
def segmentGlob (platform : Portcall.Platform) (segment : String) : List (Glob.Item ℕ) :=
  segment.toList.flatMap fun c =>
    if c = '*' then [.anyRun]
    else (Text.codeUnits c).map fun unit => .only (segmentCase ext platform unit)

def SegmentMatches (platform : Portcall.Platform) (segment entry : String) : Prop :=
  Glob.Matches (segmentGlob ext platform segment)
    ((Text.utf16 entry).map (segmentCase ext platform))

/-- One segment takes a search from one path to another. -/
inductive Below (segment head : String) : String → Prop
  | literal (h : '*' ∉ segment.toList) :
      Below segment head (joinPath ext lookup.platform [head, segment])
  | wildcard {entries : List String} {entry : String} (h : '*' ∈ segment.toList)
    (hread : fs.readdir head = .ok entries) (hentry : entry ∈ entries)
    (hmatch : SegmentMatches ext lookup.platform segment entry) :
    Below segment head (joinPath ext lookup.platform [head, entry])

/-- All segments of a pattern do, one after the other. -/
inductive Leads : String → List String → String → Prop
  | arrived (path : String) : Leads path [] path
  | step {segment head next path : String} {rest : List String}
    (h : Below ext fs lookup segment head next) (hrest : Leads next rest path) :
    Leads head (segment :: rest) path

/-- The first segment is a name in the working directory: no home directory, root or drive. -/
def NamesEntry (first : String) : Prop :=
  first ≠ "~" ∧ first ≠ "" ∧ ¬(lookup.platform = .win32 ∧ isDrive first = true)

/-- Where a pattern starts. -/
inductive StartsAt (first : String) : String → Prop
  | home {home : String} (h : first = "~") (hhome : homeDirectory lookup = some home) :
    StartsAt first home
  | root (h : first = "") : StartsAt first "/"
  | drive (hwindows : lookup.platform = .win32) (h : isDrive first = true) :
    StartsAt first (first ++ "\\")
  | literal (hname : NamesEntry lookup first) (h : '*' ∉ first.toList) : StartsAt first first
  | wildcard {entries : List String} {entry : String} (hname : NamesEntry lookup first)
    (h : '*' ∈ first.toList) (hread : fs.readdir "." = .ok entries) (hentry : entry ∈ entries)
    (hmatch : SegmentMatches ext lookup.platform first entry) : StartsAt first entry

open Classical in
/-- The names in a directory that a segment matches, in order. -/
noncomputable def matchingNames (segment dir : String) : List String :=
  match fs.readdir dir with
  | .error _ => []
  | .ok entries => (Text.sorted entries).filter fun entry =>
    SegmentMatches ext lookup.platform segment entry

/-- Where one segment leads, in directory-entry name order. -/
noncomputable def below (segment head : String) : List String :=
  if '*' ∈ segment.toList then
    (matchingNames ext fs lookup segment head).map fun entry =>
      joinPath ext lookup.platform [head, entry]
  else [joinPath ext lookup.platform [head, segment]]

/-- Every existing path all segments lead to, in that order. -/
noncomputable def matchingFrom (heads : List String) : List String → List String
  | [] => heads.filter (pathExists fs)
  | segment :: rest => matchingFrom (heads.flatMap (below ext fs lookup segment)) rest

/-- Where a pattern starts if its first segment is taken as it is spelled. -/
def spelledStarts (first : String) : List String :=
  if first = "~" then (homeDirectory lookup).toList
  else if first = "" then ["/"]
  else if lookup.platform = .win32 ∧ isDrive first = true then [first ++ "\\"]
  else [first]

open Classical in
/-- Where a pattern starts, in order. -/
noncomputable def starts (first : String) : List String :=
  if NamesEntry lookup first ∧ '*' ∈ first.toList then matchingNames ext fs lookup first "."
  else spelledStarts lookup first

/-- Every existing path that matches a pattern. -/
noncomputable def matchingPaths (pattern : String) : List String :=
  matchingFrom ext fs lookup (starts ext fs lookup ((Text.split '/' pattern).headD ""))
    (Text.split '/' pattern).tail

/-- The search returns the first of these paths, and some path if there is one. -/
structure FindsFirst (pattern : String) : Prop where
  first : expandPattern ext fs lookup pattern =
    some ((matchingPaths ext fs lookup pattern).take maxDiscoveryMatches)
  some_of_exists : matchingPaths ext fs lookup pattern ≠ [] → ∃ paths,
    expandPattern ext fs lookup pattern = some paths ∧ paths ≠ []

/-- What the search goes on with behind one segment. -/
noncomputable def keptBelow (heads : List String) (segment : String) : List String :=
  if '*' ∈ segment.toList then
    (heads.flatMap (below ext fs lookup segment)).take maxDiscoveryMatches
  else heads.flatMap (below ext fs lookup segment)

/-- At every wildcard either the paths kept there lead to as many results as are asked for, or the
others lead to none. -/
def KeepsEnough (heads : List String) : List String → Prop
  | [] => True
  | segment :: rest =>
    ('*' ∈ segment.toList →
      maxDiscoveryMatches ≤
          (matchingFrom ext fs lookup (keptBelow ext fs lookup heads segment) rest).length ∨
        matchingFrom ext fs lookup
          ((heads.flatMap (below ext fs lookup segment)).drop maxDiscoveryMatches) rest = []) ∧
      KeepsEnough (keptBelow ext fs lookup heads segment) rest

/-- The regular expression made of a wildcard segment accepts, of the names in the directories it is
asked about, just those the segment matches. -/
def MatcherAgrees (heads : List String) (segment : String) : Prop :=
  ∃ isMatch, segmentMatcher ext segment lookup.platform = some isMatch ∧
    ∀ head ∈ heads, ∀ entries, fs.readdir head = .ok entries → ∀ entry ∈ entries,
      (isMatch entry = true ↔ SegmentMatches ext lookup.platform segment entry)

/-- It does at every wildcard the search comes to. -/
def MatchersAgree (heads : List String) : List String → Prop
  | [] => True
  | segment :: rest =>
    ('*' ∈ segment.toList → MatcherAgrees ext fs lookup heads segment) ∧
      MatchersAgree (keptBelow ext fs lookup heads segment) rest

/-- Of a whole pattern. -/
def PatternKeepsEnough (pattern : String) : Prop :=
  KeepsEnough ext fs lookup (spelledStarts lookup ((Text.split '/' pattern).headD ""))
    (Text.split '/' pattern).tail

def PatternMatchersAgree (pattern : String) : Prop :=
  spelledStarts lookup ((Text.split '/' pattern).headD "") ≠ [] →
    MatchersAgree ext fs lookup (spelledStarts lookup ((Text.split '/' pattern).headD ""))
      (Text.split '/' pattern).tail

/-- The first of the paths that match a pattern are those with its first segment as it is spelled:
always so, unless that segment is a name with a `*` in it. -/
def FirstAsSpelled (pattern : String) : Prop :=
  (matchingPaths ext fs lookup pattern).take maxDiscoveryMatches =
    (matchingFrom ext fs lookup (spelledStarts lookup ((Text.split '/' pattern).headD ""))
      (Text.split '/' pattern).tail).take maxDiscoveryMatches

end Pattern

section Matching
variable {ext fs lookup} {segment head path : String} {segments heads : List String}

lemma mem_matchingNames_iff {dir entry : String} : entry ∈ matchingNames ext fs lookup segment dir ↔
    ∃ entries, fs.readdir dir = .ok entries ∧ entry ∈ entries ∧
      SegmentMatches ext lookup.platform segment entry := by
  classical
  unfold matchingNames
  cases fs.readdir dir with
  | error errno => simp
  | ok entries =>
    simp only [List.mem_filter, Text.sorted, List.mem_insertionSort, decide_eq_true_eq,
      Except.ok.injEq, exists_eq_left']

lemma mem_below_iff : path ∈ below ext fs lookup segment head ↔
    Below ext fs lookup segment head path := by
  unfold below
  split_ifs with hstar
  · rw [List.mem_map]
    constructor
    · rintro ⟨entry, hm, rfl⟩
      obtain ⟨entries, hread, hentry, hmatch⟩ := mem_matchingNames_iff.mp hm
      exact .wildcard hstar hread hentry hmatch
    · rintro (hliteral | @⟨entries, entry, -, hread, hentry, hmatch⟩)
      · exact absurd hstar hliteral
      · exact ⟨entry, mem_matchingNames_iff.mpr ⟨entries, hread, hentry, hmatch⟩, rfl⟩
  · rw [List.mem_singleton]
    constructor
    · rintro rfl
      exact .literal hstar
    · rintro (- | ⟨hstar', -, -, -⟩)
      · rfl
      · exact absurd hstar' hstar

/-- A first segment without a `*` is taken as it is spelled. -/
lemma starts_of_not_mem {first : String} (h : '*' ∉ first.toList) :
    starts ext fs lookup first = spelledStarts lookup first :=
  if_neg fun hstar => h hstar.2

lemma mem_spelledStarts_iff {first : String} : path ∈ spelledStarts lookup first ↔
    first = "~" ∧ homeDirectory lookup = some path ∨ first = "" ∧ path = "/" ∨
      (lookup.platform = .win32 ∧ isDrive first = true) ∧ path = first ++ "\\" ∨
      NamesEntry lookup first ∧ path = first := by
  unfold spelledStarts NamesEntry
  split_ifs with hhome hroot hdrive
  · subst hhome
    simp [isDrive]
  · subst hroot
    simp [isDrive]
  · simp [hhome, hroot, hdrive]
  · simp [hhome, hroot, hdrive]

/-- The paths a pattern starts at are listed. -/
lemma mem_starts_iff {first : String} :
    path ∈ starts ext fs lookup first ↔ StartsAt ext fs lookup first path := by
  unfold starts
  split_ifs with hname
  · rw [mem_matchingNames_iff]
    constructor
    · rintro ⟨entries, hread, hentry, hmatch⟩
      exact .wildcard hname.1 hname.2 hread hentry hmatch
    · rintro (⟨h, -⟩ | ⟨h⟩ | ⟨hwindows, h⟩ | ⟨-, h⟩ | ⟨-, -, hread, hentry, hmatch⟩)
      · exact absurd h hname.1.1
      · exact absurd h hname.1.2.1
      · exact absurd ⟨hwindows, h⟩ hname.1.2.2
      · exact absurd hname.2 h
      · exact ⟨_, hread, hentry, hmatch⟩
  · rw [mem_spelledStarts_iff]
    constructor
    · rintro (⟨h, hhome⟩ | ⟨h, rfl⟩ | ⟨⟨hwindows, h⟩, rfl⟩ | ⟨h, rfl⟩)
      · exact .home h hhome
      · exact .root h
      · exact .drive hwindows h
      · exact .literal h fun hstar => hname ⟨h, hstar⟩
    · rintro (⟨h, hhome⟩ | ⟨h⟩ | ⟨hwindows, h⟩ | ⟨h, -⟩ | ⟨h, hstar, -, -, -⟩)
      · exact Or.inl ⟨h, hhome⟩
      · exact Or.inr (Or.inl ⟨h, rfl⟩)
      · exact Or.inr (Or.inr (Or.inl ⟨⟨hwindows, h⟩, rfl⟩))
      · exact Or.inr (Or.inr (Or.inr ⟨h, rfl⟩))
      · exact absurd ⟨h, hstar⟩ hname

/-- The paths listed are those that exist and to which the segments lead. -/
theorem mem_matchingFrom_iff : path ∈ matchingFrom ext fs lookup heads segments ↔
    pathExists fs path = true ∧ ∃ head ∈ heads, Leads ext fs lookup head segments path := by
  induction segments generalizing heads with
  | nil =>
    rw [matchingFrom, List.mem_filter, and_comm]
    refine and_congr_right fun _ => ⟨fun hm => ⟨path, hm, .arrived path⟩, ?_⟩
    rintro ⟨head, hm, ⟨⟩⟩
    exact hm
  | cons segment rest ih =>
    rw [matchingFrom, ih]
    refine and_congr_right fun _ => ⟨?_, ?_⟩
    · rintro ⟨next, hm, hrest⟩
      obtain ⟨head, hhead, hbelow⟩ := List.mem_flatMap.mp hm
      exact ⟨head, hhead, .step (mem_below_iff.mp hbelow) hrest⟩
    · rintro ⟨head, hhead, hleads⟩
      cases hleads with
      | @step _ _ next _ _ hbelow hrest =>
        exact ⟨next, List.mem_flatMap.mpr ⟨head, hhead, mem_below_iff.mpr hbelow⟩, hrest⟩

/-- The matching paths are those that exist and to which a pattern leads from where it starts. -/
theorem mem_matchingPaths_iff {pattern : String} : path ∈ matchingPaths ext fs lookup pattern ↔
    pathExists fs path = true ∧ ∃ head,
      StartsAt ext fs lookup ((Text.split '/' pattern).headD "") head ∧
        Leads ext fs lookup head (Text.split '/' pattern).tail path := by
  rw [matchingPaths, mem_matchingFrom_iff]
  simp only [mem_starts_iff]

lemma matchingFrom_append (before after : List String) :
    matchingFrom ext fs lookup (before ++ after) segments =
      matchingFrom ext fs lookup before segments ++ matchingFrom ext fs lookup after segments := by
  induction segments generalizing before after with
  | nil => exact List.filter_append ..
  | cons segment rest ih =>
    rw [matchingFrom, List.flatMap_append, ih]
    rfl

/-- Where a search may cut what it has: the results it keeps are the first of all exactly when they
are the first of those behind what it kept, and these are enough or there are no others. -/
lemma eq_take_append_iff {α : Type} {found kept cut : List α} {bound : ℕ}
    (hsub : found.Sublist kept) :
    found = (kept ++ cut).take bound ↔
      (bound ≤ kept.length ∨ cut = []) ∧ found = kept.take bound := by
  rcases Nat.lt_or_ge kept.length bound with hlt | hle
  · rw [List.take_append, List.take_of_length_le hlt.le]
    constructor
    · intro hfound
      have hnil : cut.take (bound - kept.length) = [] := by
        have hlength := hsub.length_le
        rw [hfound, List.length_append] at hlength
        exact List.eq_nil_of_length_eq_zero (by omega)
      rw [hnil, List.append_nil] at hfound
      refine ⟨.inr ?_, hfound⟩
      exact (List.take_eq_nil_iff.mp hnil).resolve_left (by omega)
    · rintro ⟨hle | rfl, hfound⟩
      · omega
      · simpa using hfound
  · rw [List.take_append_of_le_length hle]
    exact ⟨fun hfound => ⟨.inl hle, hfound⟩, And.right⟩

end Matching

section Search
variable {ext fs lookup} {pattern segment head : String} {segments heads : List String}

/-- What the search has after one more segment. -/
lemma expandSegment_eq
    (hagree : '*' ∈ segment.toList → MatcherAgrees ext fs lookup heads segment) :
    expandSegment ext fs lookup heads segment = some (keptBelow ext fs lookup heads segment) := by
  classical
  unfold expandSegment keptBelow
  by_cases hstar : '*' ∈ segment.toList
  · obtain ⟨isMatch, hmatcher, hsame⟩ := hagree hstar
    rw [if_neg (by simpa using hstar), hmatcher, Option.map_some, if_pos hstar]
    congr 2
    refine List.flatMap_congr fun head hhead => ?_
    unfold below
    rw [if_pos hstar]
    unfold matchingNames
    cases hread : fs.readdir head with
    | error errno => rfl
    | ok entries =>
      dsimp only
      congr 1
      refine List.filter_congr fun entry hm => ?_
      rw [Bool.eq_iff_iff, decide_eq_true_eq]
      exact hsame head hhead entries hread entry (by simpa [Text.sorted] using hm)
  · rw [if_pos (by simpa using hstar), if_neg hstar, List.map_eq_flatMap]
    congr 1
    refine List.flatMap_congr fun head _ => ?_
    unfold below
    rw [if_neg hstar]

/-- The search returns some of the matching paths, and the first of them exactly when it never cut
too much. -/
lemma foldlM_expandSegment (hagree : MatchersAgree ext fs lookup heads segments) :
    ∃ reached, segments.foldlM (expandSegment ext fs lookup) heads = some reached ∧
      ((reached.filter (pathExists fs)).take maxDiscoveryMatches).Sublist
        (matchingFrom ext fs lookup heads segments) ∧
      ((reached.filter (pathExists fs)).take maxDiscoveryMatches =
        (matchingFrom ext fs lookup heads segments).take maxDiscoveryMatches ↔
          KeepsEnough ext fs lookup heads segments) := by
  induction segments generalizing heads with
  | nil =>
    exact ⟨heads, rfl, List.take_sublist _ _, by simp [matchingFrom, KeepsEnough]⟩
  | cons segment rest ih =>
    obtain ⟨reached, hreached, hsub, hiff⟩ := ih hagree.2
    rw [List.foldlM_cons, expandSegment_eq hagree.1, matchingFrom, KeepsEnough, ← hiff]
    refine ⟨reached, hreached, ?_⟩
    by_cases hstar : '*' ∈ segment.toList
    · have hkept : keptBelow ext fs lookup heads segment =
          (heads.flatMap (below ext fs lookup segment)).take maxDiscoveryMatches := if_pos hstar
      have hall : matchingFrom ext fs lookup (heads.flatMap (below ext fs lookup segment)) rest =
          matchingFrom ext fs lookup (keptBelow ext fs lookup heads segment) rest ++
            matchingFrom ext fs lookup
              ((heads.flatMap (below ext fs lookup segment)).drop maxDiscoveryMatches) rest := by
        rw [hkept, ← matchingFrom_append, List.take_append_drop]
      rw [hall, forall_prop_of_true hstar]
      exact ⟨hsub.trans (List.sublist_append_left _ _), eq_take_append_iff hsub⟩
    · have hkept : keptBelow ext fs lookup heads segment =
          heads.flatMap (below ext fs lookup segment) := if_neg hstar
      rw [hkept] at hsub
      simp only [hkept, hstar, false_imp_iff, true_and]
      exact ⟨hsub, trivial⟩

section Matcher

/-- The atoms of one character that is no question mark. -/
def plainAtoms (c : Char) : List SegmentAtom := if c = '*' then [.anyRun] else literalAtoms c false

lemma literalAtoms_false (c : Char) :
    literalAtoms c false = (Text.codeUnits c).map fun unit => .literal unit false := by
  unfold literalAtoms
  split
  · rename_i hunits
    rw [hunits]
    rfl
  · rfl

lemma segmentAtoms_plain {chars : List Char} (h : '?' ∉ chars) :
    segmentAtoms chars = some (chars.flatMap plainAtoms) := by
  fun_induction segmentAtoms chars with
  | case1 => rfl
  | case2 | case3 | case5 | case6 => simp at h
  | case4 rest _ ih =>
    rw [ih fun hm => h (List.mem_cons_of_mem _ hm)]
    rfl
  | case7 c rest _ _ hstar _ _ ih =>
    rw [ih fun hm => h (List.mem_cons_of_mem _ hm), List.flatMap_cons, plainAtoms, if_neg hstar]
    rfl

/-- What an atom that is not optional matches, as an item of a glob. -/
def SegmentAtom.item (fold : ℕ → ℕ) : SegmentAtom → Glob.Item ℕ
  | .literal unit _ => .only (fold unit)
  | .anyRun => .anyRun

lemma segmentGlob_eq (platform : Portcall.Platform) (segment : String) :
    segmentGlob ext platform segment =
      (segment.toList.flatMap plainAtoms).map (SegmentAtom.item (segmentCase ext platform)) := by
  rw [segmentGlob, List.map_flatMap]
  refine List.flatMap_congr fun c _ => ?_
  unfold plainAtoms
  split_ifs
  · rfl
  · rw [literalAtoms_false, List.map_map]
    rfl

lemma not_optional_of_mem_plainAtoms {c : Char} {unit : ℕ} : .literal unit true ∉ plainAtoms c := by
  unfold plainAtoms
  split_ifs
  · simp
  · simp [literalAtoms_false]

lemma afterRuns_cons {unit : ℕ} {rest : List ℕ} (h : unit ∉ separators) :
    afterRuns (unit :: rest) = (unit :: rest) :: afterRuns rest := by
  rw [afterRuns, if_neg (by simpa using h)]

lemma matchesAtoms_plain {fold : ℕ → ℕ} {atoms : List SegmentAtom} {text : List ℕ}
    (hatoms : ∀ unit, .literal unit true ∉ atoms) (h : ∀ unit ∈ text, unit ∉ separators) :
    matchesAtoms fold atoms text = true ↔
      Glob.Matches (atoms.map (SegmentAtom.item fold)) (text.map fold) := by
  induction atoms generalizing text with
  | nil => simp [matchesAtoms]
  | cons atom atoms ih =>
    have ih : ∀ {text : List ℕ}, (∀ unit ∈ text, unit ∉ separators) →
        (matchesAtoms fold atoms text = true ↔
          Glob.Matches (atoms.map (SegmentAtom.item fold)) (text.map fold)) :=
      fun h => ih (fun unit hm => hatoms unit (List.mem_cons_of_mem _ hm)) h
    cases atom with
    | anyRun =>
      rw [matchesAtoms, List.map_cons, SegmentAtom.item]
      induction text with
      | nil =>
        rw [Glob.matches_anyRun_iff]
        simp [afterRuns, ih]
      | cons first rest ihrest =>
        obtain ⟨hfirst, hrest⟩ := List.forall_mem_cons.mp h
        rw [afterRuns_cons hfirst, List.any_cons, Bool.or_eq_true, ih h]
        refine (or_congr_right (ihrest hrest)).trans (Iff.trans ?_ Glob.matches_anyRun_iff.symm)
        simp
    | literal unit optional =>
      obtain rfl : optional = false := by
        cases optional
        · rfl
        · exact absurd List.mem_cons_self (hatoms unit)
      cases text with
      | nil => simp [matchesAtoms, SegmentAtom.item]
      | cons first rest =>
        obtain ⟨-, hrest⟩ := List.forall_mem_cons.mp h
        rw [List.map_cons, List.map_cons, SegmentAtom.item, Glob.matches_only_iff, matchesAtoms,
          Bool.false_and, Bool.false_or, Bool.and_eq_true, decide_eq_true_eq, ih hrest]
        simp [eq_comm]

/-- No character is spelled with a separator's code unit but the separator. -/
lemma not_mem_separators {name : String} (h : ∀ c ∈ name.toList, c ≠ '\\' ∧ c ≠ '/') :
    ∀ unit ∈ Text.utf16 name, unit ∉ separators := by
  intro unit hm hseparator
  obtain ⟨c, hc, hunit⟩ := List.mem_flatMap.mp hm
  have hsmall : unit = '\\'.toNat ∨ unit = '/'.toNat := by simpa [separators] using hseparator
  unfold Text.codeUnits at hunit
  dsimp only at hunit
  split_ifs at hunit with hbasic
  · rw [List.mem_singleton] at hunit
    rw [hunit, Char.toNat_inj, Char.toNat_inj] at hsmall
    exact hsmall.elim (h c hc).1 (h c hc).2
  · have hvalues : '\\'.toNat = 92 ∧ '/'.toNat = 47 := by decide
    simp only [List.mem_cons, List.not_mem_nil, or_false] at hunit
    omega

/-- They agree where no wildcard segment holds a question mark and no name a separator. -/
theorem matchersAgree_of_plain
    (hsegments : ∀ segment ∈ segments, '*' ∈ segment.toList → '?' ∉ segment.toList)
    (hnames : ∀ dir entries, fs.readdir dir = .ok entries → ∀ entry ∈ entries,
      ∀ c ∈ entry.toList, c ≠ '\\' ∧ c ≠ '/') :
    MatchersAgree ext fs lookup heads segments := by
  induction segments generalizing heads with
  | nil => trivial
  | cons segment rest ih =>
    obtain ⟨hsegment, hrest⟩ := List.forall_mem_cons.mp hsegments
    refine ⟨fun hstar => ?_, ih hrest⟩
    refine ⟨_, by rw [segmentMatcher, segmentAtoms_plain (hsegment hstar)]; rfl, ?_⟩
    intro head _ entries hread entry hentry
    rw [SegmentMatches, segmentGlob_eq]
    have hname := hnames head entries hread entry hentry
    refine matchesAtoms_plain (fun unit hm => ?_) (not_mem_separators hname)
    obtain ⟨c, -, hc⟩ := List.mem_flatMap.mp hm
    exact not_optional_of_mem_plainAtoms hc

end Matcher

section Pattern

/-- The search starts where the pattern does if its first segment is taken as it is spelled. -/
lemma patternHeads_eq (first : String) : patternHeads lookup first =
    if spelledStarts lookup first = [] then none else some (spelledStarts lookup first) := by
  unfold patternHeads spelledStarts
  by_cases hhome : first = "~"
  · rw [if_pos hhome, if_pos hhome]
    cases homeDirectory lookup <;> rfl
  · split_ifs <;> simp_all

lemma matchingFrom_nil : matchingFrom ext fs lookup [] segments = [] := by
  induction segments with
  | nil => rfl
  | cons segment rest ih => exact ih

lemma keepsEnough_nil : KeepsEnough ext fs lookup [] segments := by
  induction segments with
  | nil => trivial
  | cons segment rest ih =>
    have hkept : keptBelow ext fs lookup [] segment = [] := by simp [keptBelow]
    refine ⟨fun _ => Or.inr matchingFrom_nil, ?_⟩
    rwa [hkept]

/-- Without a home directory a pattern that starts there matches nothing. -/
lemma matchingPaths_of_spelledStarts_eq_nil
    (h : spelledStarts lookup ((Text.split '/' pattern).headD "") = []) :
    matchingPaths ext fs lookup pattern = [] := by
  have hfirst : '*' ∉ ((Text.split '/' pattern).headD "").toList := by
    unfold spelledStarts at h
    split_ifs at h with hhome
    rw [hhome]
    decide
  rw [matchingPaths, starts_of_not_mem hfirst, h, matchingFrom_nil]

/-- What the search returns, against the paths that match with the first segment as spelled. -/
lemma expandPattern_spec (hagree : PatternMatchersAgree ext fs lookup pattern) :
    ∃ found, expandPattern ext fs lookup pattern = some found ∧
      found.Sublist (matchingFrom ext fs lookup
        (spelledStarts lookup ((Text.split '/' pattern).headD "")) (Text.split '/' pattern).tail) ∧
      (found = (matchingFrom ext fs lookup
          (spelledStarts lookup ((Text.split '/' pattern).headD ""))
          (Text.split '/' pattern).tail).take maxDiscoveryMatches ↔
        PatternKeepsEnough ext fs lookup pattern) := by
  unfold PatternMatchersAgree at hagree
  unfold PatternKeepsEnough expandPattern
  dsimp only
  rw [patternHeads_eq]
  split_ifs with hnil
  · rw [hnil, matchingFrom_nil]
    exact ⟨[], rfl, List.Sublist.refl [], by simp [keepsEnough_nil]⟩
  · obtain ⟨reached, hreached, hsub, hiff⟩ := foldlM_expandSegment (hagree hnil)
    exact ⟨_, Option.map_eq_some_iff.mpr ⟨reached, hreached, rfl⟩, hsub, hiff⟩

lemma findsFirst_iff_eq : FindsFirst ext fs lookup pattern ↔ expandPattern ext fs lookup pattern =
    some ((matchingPaths ext fs lookup pattern).take maxDiscoveryMatches) := by
  refine ⟨FindsFirst.first, fun h => ⟨h, fun hsome => ⟨_, h, ?_⟩⟩⟩
  rw [Ne, List.take_eq_nil_iff, not_or]
  exact ⟨by decide, hsome⟩

/-- Where the regular expressions mean what the segments do, the search finds the first matching
paths exactly when these are the ones its first segment as spelled leads to, and no wildcard makes
it drop a directory whose results are wanted: at least where it does not do both at once. -/
theorem findsFirst_iff (hagree : PatternMatchersAgree ext fs lookup pattern)
    (hone : FirstAsSpelled ext fs lookup pattern ∨ PatternKeepsEnough ext fs lookup pattern) :
    FindsFirst ext fs lookup pattern ↔
      FirstAsSpelled ext fs lookup pattern ∧ PatternKeepsEnough ext fs lookup pattern := by
  obtain ⟨found, hfound, -, hiff⟩ := @expandPattern_spec ext fs lookup pattern hagree
  rw [findsFirst_iff_eq, hfound, Option.some.injEq]
  unfold FirstAsSpelled at hone ⊢
  constructor
  · rintro rfl
    rcases hone with hspelled | hkeeps
    · exact ⟨hspelled, hiff.mp hspelled⟩
    · exact ⟨hiff.mpr hkeeps, hkeeps⟩
  · exact fun ⟨hspelled, hkeeps⟩ => (hiff.mpr hkeeps).trans hspelled.symm

/-- A pattern that matches only with the `*` of its first segment taken for any text is searched in
vain. -/
theorem not_findsFirst_of_nothing_spelled (hagree : PatternMatchersAgree ext fs lookup pattern)
    (hspelled : matchingFrom ext fs lookup
      (spelledStarts lookup ((Text.split '/' pattern).headD "")) (Text.split '/' pattern).tail = [])
    (hmatching : matchingPaths ext fs lookup pattern ≠ []) :
    ¬FindsFirst ext fs lookup pattern := by
  obtain ⟨found, hfound, hsub, -⟩ := @expandPattern_spec ext fs lookup pattern hagree
  intro h
  obtain ⟨paths, hpaths, hne⟩ := h.some_of_exists hmatching
  rw [hfound, Option.some.injEq] at hpaths
  rw [hspelled] at hsub
  exact hne (hpaths ▸ List.sublist_nil.mp hsub)

end Pattern

end Search

section Java
variable {ext fs lookup} {patterns found paths : List String} {stores : List RuntimeStoreOutcome}

lemma pathExists_of_mem_expandPattern {pattern path : String}
    (h : expandPattern ext fs lookup pattern = some paths) (hm : path ∈ paths) :
    pathExists fs path = true := by
  unfold expandPattern at h
  dsimp only at h
  split at h
  · rw [← Option.some.inj h] at hm
    exact absurd hm List.not_mem_nil
  · obtain ⟨reached, -, rfl⟩ := Option.map_eq_some_iff.mp h
    exact (List.mem_filter.mp (List.mem_of_mem_take hm)).2

/-- The paths a pattern adds to those already found. -/
lemma mem_foldl_found (path : String) (new found : List String) :
    path ∈ new.foldl (fun found path => if found.contains path then found else found ++ [path]) found
      ↔ path ∈ found ∨ path ∈ new := by
  induction new generalizing found with
  | nil => simp
  | cons first new ih =>
    rw [List.foldl_cons, ih, List.mem_cons]
    split_ifs with hmem
    · rw [List.contains_iff_mem] at hmem
      exact ⟨Or.imp_right .inr, fun h => h.elim .inl (Or.elim · (fun he => .inl (he ▸ hmem)) .inr)⟩
    · rw [List.mem_append, List.mem_singleton, or_assoc]

/-- A discovery finds existing paths, and keeps what it has; it ends with nothing only when none of
its patterns expands to anything. -/
lemma discover_spec (h : discover ext fs lookup found patterns = some paths) :
    (∀ path ∈ paths, path ∈ found ∨ pathExists fs path = true) ∧
      (paths = [] → found = [] ∧
        ∀ pattern ∈ patterns, expandPattern ext fs lookup pattern = some []) := by
  induction patterns generalizing found with
  | nil =>
    obtain rfl := Option.some.inj h
    exact ⟨fun _ => .inl, fun hnil => ⟨hnil, fun _ hm => absurd hm List.not_mem_nil⟩⟩
  | cons pattern patterns ih =>
    obtain ⟨new, hnew, h⟩ := Option.bind_eq_some_iff.mp h
    dsimp only at h
    have hadded := fun path => mem_foldl_found path new found
    have hexists : ∀ path ∈ new, pathExists fs path = true :=
      fun _ => pathExists_of_mem_expandPattern hnew
    split_ifs at h with henough
    · obtain rfl := Option.some.inj h
      refine ⟨fun path hm => ((hadded path).mp hm).imp_right (hexists path), fun hnil => ?_⟩
      rw [hnil] at henough
      exact absurd henough (by decide)
    · obtain ⟨hpaths, hnone⟩ := ih h
      refine ⟨fun path hm => ?_, fun hnil => ?_⟩
      · rcases hpaths path hm with hm | hpath
        · exact ((hadded path).mp hm).imp_right (hexists path)
        · exact .inr hpath
      · obtain ⟨hfold, hrest⟩ := hnone hnil
        simp only [List.eq_nil_iff_forall_not_mem] at hfold
        obtain rfl : new = [] := List.eq_nil_iff_forall_not_mem.mpr fun path hm =>
          hfold path ((hadded path).mpr (.inr hm))
        refine ⟨List.eq_nil_iff_forall_not_mem.mpr fun path hm => ?_,
          List.forall_mem_cons.mpr ⟨hnew, hrest⟩⟩
        exact hfold path ((hadded path).mpr (.inl hm))

/-- A keystore that exists is not one that was not found. -/
lemma readJavaCacerts_failure_ne {path : String} {maxBytes : ℕ} (h : pathExists fs path = true) :
    (readJavaCacerts fs path maxBytes).failure ≠ some .notFound := by
  unfold pathExists at h
  unfold readJavaCacerts
  cases hstat : fs.stat path with
  | error errno => simp [hstat, Except.toOption] at h
  | ok size =>
    dsimp only
    split_ifs
    · nofun
    · cases fs.readBytes path with
      | error errno => nofun
      | ok bytes =>
        cases hfailure : (readKeystore bytes).failure with
        | none => simp [hfailure]
        | some failure => cases failure <;> simp [hfailure, KeystoreFailure.storeFailure]

/-- Where the searches for Java's keystores find the first of what there is, none is reported as
not found while there is one. -/
theorem javaStores_found (h : javaStores ext fs lookup = some stores)
    (hfinds : ∀ pattern ∈ cacertsPatterns lookup, FindsFirst ext fs lookup pattern)
    (hexists : ∃ pattern ∈ cacertsPatterns lookup, matchingPaths ext fs lookup pattern ≠ []) :
    ∀ store ∈ stores, store.failure ≠ some .notFound := by
  obtain ⟨found, hfound, hstores⟩ := Option.bind_eq_some_iff.mp h
  obtain ⟨hpaths, hnone⟩ := discover_spec hfound
  have hne : found ≠ [] := by
    intro hnil
    obtain ⟨pattern, hm, hmatching⟩ := hexists
    obtain ⟨paths, hexpands, hpaths⟩ := (hfinds pattern hm).some_of_exists hmatching
    rw [(hnone hnil).2 pattern hm, Option.some.injEq] at hexpands
    exact hpaths hexpands.symm
  rw [if_neg (by simpa using hne)] at hstores
  obtain rfl := Option.some.inj hstores
  intro store hs
  obtain ⟨path, hm, rfl⟩ := List.mem_map.mp hs
  exact readJavaCacerts_failure_ne ((hpaths path (List.mem_of_mem_take hm)).resolve_left
    List.not_mem_nil)

end Java

section Crowded

/-- `posix.join` of a directory and a name in it. -/
def posixJoin (parts : List String) : String :=
  match parts with
  | ["/", name] => "/" ++ name
  | _ => Text.join "/" parts

def posixExternals : Externals where
  x509 _ := none
  x509Der _ := none
  parseUrl _ := none
  pathJoin _ := posixJoin
  unicodeLower := id

def jvms : List String :=
  ["jre-1", "jre-2", "jre-3", "jre-4", "jre-5", "jre-6", "jre-7", "jre-8", "zulu-21"]

/-- A machine with eight directories of runtimes without a keystore, and a ninth with one. -/
def crowdedFiles : FileSystem where
  stat path := if path = "/usr/lib/jvm/zulu-21/lib/security/cacerts" then .ok 60
    else .error (some "ENOENT")
  readdir path := if path = "/usr/lib/jvm" then .ok jvms else .error (some "ENOENT")
  readText _ := .error (some "ENOENT")
  readBytes _ := .error (some "ENOENT")

def linuxLookup : Lookup := ⟨.linux, fun _ => none, maxRuntimeStoreBytes⟩

def jvmPattern : String := "/usr/lib/jvm/*/lib/security/cacerts"

lemma split_jvmPattern : Text.split '/' jvmPattern =
    ["", "usr", "lib", "jvm", "*", "lib", "security", "cacerts"] := by decide +kernel

lemma matchersAgree_jvmPattern :
    PatternMatchersAgree posixExternals crowdedFiles linuxLookup jvmPattern := by
  intro _
  rw [split_jvmPattern]
  refine matchersAgree_of_plain (by decide) fun dir entries hread entry hm => ?_
  have hplain : (jvms.all fun entry => entry.toList.all fun c => c ≠ '\\' && c ≠ '/') = true := by
    decide
  simp only [crowdedFiles] at hread
  split_ifs at hread
  obtain rfl := Except.ok.inj hread
  simpa using List.all_eq_true.mp (List.all_eq_true.mp hplain entry hm)

lemma below_literal {segment head next : String} (h : '*' ∉ segment.toList)
    (hnext : posixJoin [head, segment] = next) :
    Below posixExternals crowdedFiles linuxLookup segment head next :=
  hnext ▸ .literal h

lemma below_zulu : Below posixExternals crowdedFiles linuxLookup "*" "/usr/lib/jvm"
    "/usr/lib/jvm/zulu-21" := by
  have hnext : posixJoin ["/usr/lib/jvm", "zulu-21"] = "/usr/lib/jvm/zulu-21" := by decide
  have hmatch : SegmentMatches posixExternals .linux "*" "zulu-21" := by
    have hglob : segmentGlob posixExternals .linux "*" = [.anyRun] := rfl
    rw [SegmentMatches, hglob, ← List.append_nil (List.map _ _)]
    exact .anyRun _ .nil
  have hread : crowdedFiles.readdir "/usr/lib/jvm" = .ok jvms := by simp [crowdedFiles]
  exact hnext ▸ .wildcard (by decide) hread (by decide) hmatch

/-- The condition, on that machine: the pattern starts at the root. -/
theorem findsFirst_jvmPattern : FindsFirst posixExternals crowdedFiles linuxLookup jvmPattern ↔
    FirstAsSpelled posixExternals crowdedFiles linuxLookup jvmPattern ∧
      PatternKeepsEnough posixExternals crowdedFiles linuxLookup jvmPattern := by
  refine findsFirst_iff matchersAgree_jvmPattern (Or.inl ?_)
  have hroot : '*' ∉ ((Text.split '/' jvmPattern).headD "").toList := by
    rw [split_jvmPattern]
    decide
  rw [FirstAsSpelled, matchingPaths, starts_of_not_mem hroot]

/-- The keystore is there, and the search returns nothing. -/
theorem crowded_finds_nothing : ¬∀ ext fs lookup pattern, FindsFirst ext fs lookup pattern := by
  intro h
  have hnone : expandPattern posixExternals crowdedFiles linuxLookup jvmPattern = some [] := by
    decide +kernel
  have hexists : "/usr/lib/jvm/zulu-21/lib/security/cacerts" ∈
      matchingPaths posixExternals crowdedFiles linuxLookup jvmPattern := by
    rw [mem_matchingPaths_iff, split_jvmPattern]
    refine ⟨by decide, "/", .root rfl, ?_⟩
    refine .step (below_literal (by decide) (by decide : _ = "/usr")) ?_
    refine .step (below_literal (by decide) (by decide : _ = "/usr/lib")) ?_
    refine .step (below_literal (by decide) (by decide : _ = "/usr/lib/jvm")) ?_
    refine .step below_zulu ?_
    refine .step (below_literal (by decide) (by decide : _ = "/usr/lib/jvm/zulu-21/lib")) ?_
    refine .step (below_literal (by decide)
      (by decide : _ = "/usr/lib/jvm/zulu-21/lib/security")) ?_
    exact .step (below_literal (by decide) (by decide)) (.arrived _)
  obtain ⟨paths, hpaths, hne⟩ :=
    (h posixExternals crowdedFiles linuxLookup jvmPattern).some_of_exists (List.ne_nil_of_mem hexists)
  rw [hnone, Option.some.injEq] at hpaths
  exact hne hpaths.symm

end Crowded
end Portcall.Net
