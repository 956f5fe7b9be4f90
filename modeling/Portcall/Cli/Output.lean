import Portcall.Text
import Portcall.Library.PathWalk

/-! `--out`: the one file this program writes, and its confinement to the working directory. -/
namespace Portcall.Cli
open PathWalk

/-- A path that starts at the root, as `process.cwd()` does. -/
structure AbsolutePath where
  path : String
  absolute : path.toList.head? = some '/'

section Posix

/-- What a segment of a path says: nothing and `.` stay, `..` goes up, all else is a name. -/
def readStep (segment : List Char) : Step (List Char) :=
  if segment = [] ∨ segment = ['.'] then .here
  else if segment = ['.', '.'] then .up
  else .down segment

def spellStep : Step (List Char) → List Char
  | .here => ['.']
  | .up => ['.', '.']
  | .down name => name

/-- The names on the way from the root to a path. -/
def segments (path : String) : List (List Char) :=
  walk [] ((Text.splitChars '/' path.toList).map readStep)

def spellPath (steps : List (Step (List Char))) : List Char :=
  ['/'].intercalate (steps.map spellStep)

def isAbsolute (path : String) : Bool := Text.startsWith path "/"

/-- The path a target asks for, as it stands. -/
def requested (cwd : AbsolutePath) (target : String) : String :=
  if isAbsolute target then target else cwd.path ++ "/" ++ target

/-- `resolve(cwd, target)` -/
def resolve (cwd : AbsolutePath) (target : String) : String :=
  String.ofList ('/' :: spellPath ((segments (requested cwd target)).map .down))

/-- `relative(origin, destination)` of two absolute paths -/
def relativePath (origin destination : String) : String :=
  String.ofList (spellPath (relative (segments origin) (segments destination)))

end Posix

structure OutputPathError where
  message : String
  deriving DecidableEq, Repr

def refusal (target : String) (cwd : AbsolutePath) : OutputPathError where
  message := "refusing to write to '" ++ target ++ "': portcall does not write outside the " ++
    "working directory. Pass a path inside " ++ cwd.path ++
    ", or drop --out and redirect stdout."

def resolveOutputPath (target : String) (cwd : AbsolutePath) : Except OutputPathError String :=
  let resolved := resolve cwd target
  let rel := relativePath cwd.path resolved
  if rel = "" || Text.startsWith rel ".." || isAbsolute rel then .error (refusal target cwd)
  else .ok resolved

/-- A file and what is written to it. -/
structure Write where
  path : String
  contents : String
  deriving DecidableEq, Repr

def writeReport (target : String) (cwd : AbsolutePath) (contents : String) :
    Except OutputPathError Write :=
  (resolveOutputPath target cwd).map fun resolved => ⟨resolved, contents⟩

/-- One path is below another: it goes on where the other one ends. -/
def IsBelow (cwd : AbsolutePath) (path : String) : Prop :=
  ∃ name below, segments path = segments cwd.path ++ name :: below

section Names

/-- What can be a name on a way from the root. -/
structure IsName (name : List Char) : Prop where
  ne_nil : name ≠ []
  slash : '/' ∉ name
  dots : readStep name = .down name

lemma isName_of_mem_segments {path : String} {name : List Char} (h : name ∈ segments path) :
    IsName name := by
  rcases mem_walk h with hm | hm
  · exact absurd hm List.not_mem_nil
  · obtain ⟨piece, hp, hstep⟩ := List.mem_map.mp hm
    have hdown : readStep piece = .down piece ∧ piece = name ∧ piece ≠ [] := by
      unfold readStep at hstep ⊢
      split_ifs at hstep ⊢ with hhere hup
      exact ⟨rfl, Step.down.inj hstep, fun hnil => hhere (Or.inl hnil)⟩
    obtain ⟨hdown, rfl, hne⟩ := hdown
    exact ⟨hne, Text.not_mem_of_mem_splitChars hp, hdown⟩

lemma map_readStep {names : List (List Char)} (h : ∀ name ∈ names, IsName name) :
    names.map readStep = names.map .down :=
  List.map_congr_left fun name hm => (h name hm).dots

lemma spellPath_down (names : List (List Char)) :
    spellPath (names.map .down) = ['/'].intercalate names := by
  rw [spellPath, List.map_map]
  exact congrArg _ (List.map_id names)

/-- The names of a spelled path are the names it was spelled from. -/
lemma segments_spellPath {names : List (List Char)} (h : ∀ name ∈ names, IsName name) :
    segments (String.ofList ('/' :: spellPath (names.map .down))) = names := by
  rw [segments, String.toList_ofList, spellPath_down, ← List.nil_append ('/' :: _),
    Text.splitChars_append_cons List.not_mem_nil, List.map_cons, walk_cons]
  change walk [] _ = names
  cases names with
  | nil => rfl
  | cons name names =>
    have hpieces := (Text.splitChars_eq_iff (List.cons_ne_nil _ _)).mpr
      ⟨fun piece hm => (h piece hm).slash, rfl⟩
    rw [hpieces, map_readStep h, walk_down, List.nil_append]

/-- Resolving changes how a place is written, not which place it is. -/
lemma segments_resolve (cwd : AbsolutePath) (target : String) :
    segments (resolve cwd target) = segments (requested cwd target) :=
  segments_spellPath fun _ => isName_of_mem_segments

end Names

section Confinement
variable {cwd : AbsolutePath} {target : String}

lemma spellPath_cons (name : List Char) (below : List (List Char)) :
    ∃ rest, spellPath ((name :: below).map .down) = name ++ rest ∧
      (rest = [] ∨ rest.head? = some '/') := by
  rw [spellPath_down]
  cases below with
  | nil => exact ⟨[], by simp, Or.inl rfl⟩
  | cons next below =>
    exact ⟨'/' :: ['/'].intercalate (next :: below), by simp [List.intercalate], Or.inr rfl⟩

/-- Whether a spelled path begins with two dots is settled in its first name. -/
lemma dots_prefix_iff {name : List Char} (h : IsName name) (below : List (List Char)) :
    ['.', '.'] <+: spellPath ((name :: below).map .down) ↔ ['.', '.'] <+: name := by
  obtain ⟨rest, hspell, hrest⟩ := spellPath_cons name below
  rw [hspell]
  refine ⟨fun hdots => ?_, fun hdots => hdots.trans (List.prefix_append _ _)⟩
  match name, h.ne_nil with
  | [a], _ =>
    rw [List.singleton_append, List.cons_prefix_cons] at hdots
    obtain ⟨rfl, tail, htail⟩ := hdots
    rcases hrest with rfl | hhead
    · cases htail
    · rw [← htail] at hhead
      cases hhead
  | a :: b :: name, _ =>
    rw [List.cons_append, List.cons_append, List.cons_prefix_cons, List.cons_prefix_cons] at hdots
    exact List.cons_prefix_cons.mpr ⟨hdots.1, List.cons_prefix_cons.mpr ⟨hdots.2.1, List.nil_prefix⟩⟩

/-- Where the path leads out of the directory its relative spelling begins with two dots. -/
lemma relativePath_dots {origin destination : String}
    (h : ¬segments origin <+: segments destination) :
    Text.startsWith (relativePath origin destination) ".." = true := by
  obtain ⟨rest, hrest⟩ := relative_of_not_prefix h
  rw [Text.startsWith, List.isPrefixOf_iff_prefix, relativePath, String.toList_ofList, hrest,
    spellPath, List.map_cons]
  cases rest with
  | nil => exact ⟨[], by simp [spellStep]⟩
  | cons step rest => exact ⟨_, by simp [spellStep, List.intercalate]; rfl⟩

lemma relativePath_below {name : List Char} {below : List (List Char)} {path : String}
    (h : segments path = segments cwd.path ++ name :: below) :
    relativePath cwd.path path = String.ofList (spellPath ((name :: below).map .down)) := by
  rw [relativePath, h, relative_append]

/-- What the check makes of a path in the directory. -/
lemma resolveOutputPath_below {name : List Char} {below : List (List Char)}
    (h : segments (resolve cwd target) = segments cwd.path ++ name :: below) :
    resolveOutputPath target cwd =
      if ['.', '.'] <+: name then .error (refusal target cwd) else .ok (resolve cwd target) := by
  have hname : IsName name := isName_of_mem_segments (by rw [h]; simp)
  obtain ⟨rest, hspell, -⟩ := spellPath_cons name below
  obtain ⟨first, tail, rfl⟩ := List.exists_cons_of_ne_nil hname.ne_nil
  have hempty : relativePath cwd.path (resolve cwd target) ≠ "" := by
    rw [relativePath_below h, hspell, Ne, String.ofList_eq_empty_iff]
    exact List.cons_ne_nil _ _
  have hroot : isAbsolute (relativePath cwd.path (resolve cwd target)) = false := by
    rw [isAbsolute, Text.startsWith, relativePath_below h, hspell, Bool.eq_false_iff, Ne,
      List.isPrefixOf_iff_prefix, String.toList_ofList (l := first :: tail ++ rest)]
    intro hslash
    exact hname.slash ((List.cons_prefix_cons.mp hslash).1 ▸ List.mem_cons_self)
  have hdots : Text.startsWith (relativePath cwd.path (resolve cwd target)) ".." = true ↔
      ['.', '.'] <+: first :: tail := by
    rw [Text.startsWith, List.isPrefixOf_iff_prefix, relativePath_below h,
      String.toList_ofList (l := spellPath _)]
    exact dots_prefix_iff hname below
  simp only [resolveOutputPath, hroot, Bool.or_false, Bool.or_eq_true, decide_eq_true_eq, hempty,
    false_or, hdots]

/-- Outside of the directory, and at the directory itself, the target is refused. -/
lemma resolveOutputPath_outside (h : ¬IsBelow cwd (resolve cwd target)) :
    resolveOutputPath target cwd = .error (refusal target cwd) := by
  rw [resolveOutputPath]
  by_cases hstarts : segments cwd.path <+: segments (resolve cwd target)
  · obtain ⟨rest, hrest⟩ := hstarts
    cases rest with
    | nil =>
      have hempty : relativePath cwd.path (resolve cwd target) = "" := by
        rw [relativePath, ← hrest, relative_append]
        rfl
      simp [hempty]
    | cons name below => exact absurd ⟨name, below, hrest.symm⟩ h
  · simp [relativePath_dots hstarts]

/-- The contract of `--out`: what is below the directory is written to, all else is refused. -/
def Confines (cwd : AbsolutePath) (target : String) : Prop :=
  (IsBelow cwd (resolve cwd target) →
    resolveOutputPath target cwd = .ok (resolve cwd target)) ∧
  (¬IsBelow cwd (resolve cwd target) →
    resolveOutputPath target cwd = .error (refusal target cwd))

/-- Whatever the target, nothing is written but below the directory. -/
theorem writeReport_below {contents : String} {write : Write}
    (h : writeReport target cwd contents = .ok write) :
    IsBelow cwd write.path ∧ write.contents = contents := by
  rw [writeReport] at h
  by_cases hbelow : IsBelow cwd (resolve cwd target)
  · obtain ⟨name, below, hsegments⟩ := id hbelow
    rw [resolveOutputPath_below hsegments] at h
    split_ifs at h
    · cases h
    · obtain rfl := Except.ok.inj h
      exact ⟨hbelow, rfl⟩
  · rw [resolveOutputPath_outside hbelow] at h
    cases h

/-- A way down that begins with such a name is refused. -/
lemma Confines.no_dots (h : Confines cwd target) : ¬∃ name below,
    segments (requested cwd target) = segments cwd.path ++ name :: below ∧
      ['.', '.'] <+: name := by
  rw [← segments_resolve]
  rintro ⟨name, below, hsegments, hdots⟩
  have hok := h.1 ⟨name, below, hsegments⟩
  rw [resolveOutputPath_below hsegments, if_pos hdots] at hok
  cases hok

/-- The contract is kept unless the way down from the directory begins with a name that itself
begins with two dots: such a name is taken for the way up. -/
theorem confines_iff : Confines cwd target ↔ ¬∃ name below,
    segments (requested cwd target) = segments cwd.path ++ name :: below ∧
      ['.', '.'] <+: name := by
  refine ⟨Confines.no_dots, fun hnone => ⟨fun hbelow => ?_, resolveOutputPath_outside⟩⟩
  rw [← segments_resolve] at hnone
  obtain ⟨name, below, hsegments⟩ := hbelow
  rw [resolveOutputPath_below hsegments,
    if_neg fun hdots => hnone ⟨name, below, hsegments, hdots⟩]

/-- A file whose name begins with two dots is in the directory and refused. -/
theorem not_confines_dots : ¬∀ cwd target, Confines cwd target := by
  intro h
  have hbelow : segments (requested ⟨"/work", rfl⟩ "..report.json") =
      segments "/work" ++ "..report.json".toList :: [] := by decide +kernel
  exact (h ⟨"/work", rfl⟩ "..report.json").no_dots ⟨_, _, hbelow, by decide +kernel⟩

end Confinement

example : resolveOutputPath "reports/../today.json" ⟨"/work", rfl⟩ = .ok "/work/today.json" := by
  decide +kernel

end Portcall.Cli
