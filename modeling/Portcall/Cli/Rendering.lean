import Portcall.Cli.Options

/-! Command lines written out from what is asked for, and read back: in any order, in either
spelling, and with a flag given more than once. -/
namespace Portcall.Cli

/-- A value a flag can be given: it does not look like an option. -/
@[ext] structure FlagValue where
  text : String
  noDash : Text.startsWith text "-" = false
  deriving DecidableEq

@[ext] structure Seconds where
  count : ℕ
  pos : 1 ≤ count
  le : count ≤ maxTimeoutSeconds
  deriving DecidableEq

/-- What an operator asks of `check`. -/
structure CheckRequest where
  profile : FlagValue
  format : Format
  redact : Bool
  timeout : Seconds
  out : Option FlagValue
  deriving DecidableEq

def CheckRequest.command (request : CheckRequest) : CheckCommand where
  profile := request.profile.text
  format := request.format
  redact := request.redact
  timeoutMs := request.timeout.count * 1000
  out := request.out.map FlagValue.text

inductive Flag where
  | profile (value : FlagValue)
  | format (value : Format)
  | timeout (value : Seconds)
  | out (value : FlagValue)
  | noRedact
  deriving DecidableEq

namespace Flag

/-- The name of a flag and the value that goes with it, if it takes one. -/
def written : Flag → String × Option String
  | .profile value => ("--profile", some value.text)
  | .format value => ("--format", some value.name)
  | .timeout value => ("--timeout", some (toString value.count))
  | .out value => ("--out", some value.text)
  | .noRedact => ("--no-redact", none)

/-- The tokens of a flag, `flag=value` being one of them and `flag value` two. -/
def tokens (inline : Bool) (flag : Flag) : List String :=
  match flag.written with
  | (name, none) => [name]
  | (name, some value) => if inline then [name ++ "=" ++ value] else [name, value]

/-- What a flag says. -/
def option : Flag → CheckOption
  | .profile value => .profile value.text
  | .format value => .format value
  | .timeout value => .timeout value.count
  | .out value => .out value.text
  | .noRedact => .noRedact

def profile? : Flag → Option FlagValue
  | .profile value => some value
  | _ => none

def format? : Flag → Option Format
  | .format value => some value
  | _ => none

def timeout? : Flag → Option Seconds
  | .timeout value => some value
  | _ => none

def out? : Flag → Option FlagValue
  | .out value => some value
  | _ => none

end Flag

/-- The flags of a request, each of them once. -/
def CheckRequest.flags (request : CheckRequest) : List Flag :=
  [.profile request.profile, .format request.format, .timeout request.timeout] ++
    (request.out.map Flag.out).toList ++ if request.redact then [] else [.noRedact]

/-- A command line, with the spelling of each flag. -/
def render (argv : List (Flag × Bool)) : List String :=
  "check" :: argv.flatMap fun (flag, inline) => flag.tokens inline

/-- The value that the last flag of a kind gives. -/
def lastGiven {α : Type} (kind : Flag → Option α) (flags : List Flag) : Option α :=
  (flags.filterMap kind).getLast?

def defaultTimeout : Seconds := ⟨defaultTimeoutSeconds, by decide, by decide⟩

/-- The flags ask for the request: the last one of each kind does, and what none of them gives is
what it is by default. -/
structure Asks (flags : List Flag) (request : CheckRequest) : Prop where
  profile : lastGiven Flag.profile? flags = some request.profile
  format : (lastGiven Flag.format? flags).getD .text = request.format
  timeout : (lastGiven Flag.timeout? flags).getD defaultTimeout = request.timeout
  out : lastGiven Flag.out? flags = request.out
  redact : request.redact = false ↔ Flag.noRedact ∈ flags

/-- A command line is read back as the request it was written from: whatever the order of its flags
and the spelling of each, and of flags given more than once the last. -/
structure ReadBack (request : CheckRequest) (argv : List (Flag × Bool)) : Prop where
  permuted : (argv.map Prod.fst).Perm request.flags →
    parseArgs (render argv) = .ok (.check request.command)
  lastWins : parseArgs (render argv) = .ok (.check request.command) ↔
    Asks (argv.map Prod.fst) request

variable {precision : Precision}

section Spelling
variable {flags : List Flag} {argv : List (Flag × Bool)}

lemma startsWith_dash_toString (n : ℕ) : Text.startsWith (toString n) "-" = false := by
  by_contra h
  rw [Bool.not_eq_false, Text.startsWith, List.isPrefixOf_iff_prefix] at h
  exact absurd (Text.isDigit_of_mem_toString (h.subset List.mem_cons_self)) (by decide)

/-- What a flag is written as makes the option it says. -/
lemma Flag.reads (flag : Flag) {name value : String} (h : flag.written = (name, some value)) :
    FlagReads precision name value flag.option ∧ Text.startsWith value "-" = false := by
  cases flag with
  | profile value =>
    cases h
    exact ⟨.profile _, value.noDash⟩
  | format value =>
    cases h
    exact ⟨.format (by cases value <;> decide), by cases value <;> decide⟩
  | timeout value =>
    cases h
    have hcount : value.count < 2 ^ 53 := value.le.trans_lt (by decide)
    refine ⟨.timeout (precision.number_toString hcount) ?_ ?_, startsWith_dash_toString _⟩
    · exact_mod_cast value.pos
    · exact_mod_cast value.le
  | out value =>
    cases h
    exact ⟨.out _, value.noDash⟩
  | noRedact => cases h

lemma Flag.spells (flag : Flag) (inline : Bool) :
    Spells precision flag.option (flag.tokens inline) := by
  rw [Flag.tokens]
  split
  · next name h =>
    cases flag <;> cases h
    exact .noRedact
  · next name value h =>
    obtain ⟨hreads, hdash⟩ := flag.reads h
    cases inline with
    | true => exact .inline hreads hdash
    | false => exact .separate hreads hdash

/-- The loop reads a rendered command line flag by flag. -/
lemma parseArgs_render_eq (argv : List (Flag × Bool)) :
    parseArgs (render argv) precision =
      finish precision (readAll {} ((argv.map Prod.fst).map Flag.option)) := by
  have hspells : SpellsAll precision ((argv.map Prod.fst).map Flag.option)
      (argv.flatMap fun (flag, inline) => flag.tokens inline) := by
    induction argv with
    | nil => exact .nil
    | cons given argv ih => exact .cons (given.1.spells given.2) ih
  have hloop := @checkLoop_spellsAll precision {} _ _ [] hspells
  rw [List.append_nil, checkLoop] at hloop
  exact hloop

end Spelling

section Last
variable {α β : Type} {flags flags' : List Flag}

/-- The last option of a kind says what the last flag of that kind gives. -/
lemma lastOf_map_option {kind : CheckOption → Option α} (kind' : Flag → Option β) (f : β → α)
    (h : ∀ flag, kind (Flag.option flag) = (kind' flag).map f) (flags : List Flag) :
    lastOf kind (flags.map Flag.option) = (lastGiven kind' flags).map f := by
  rw [lastOf, lastGiven, List.filterMap_map, ← List.getLast?_map, List.map_filterMap]
  exact congrArg List.getLast? (List.filterMap_congr fun flag _ => h flag)

/-- Of a kind that is there once at the most, the order of the flags does not matter. -/
lemma lastGiven_of_perm {kind : Flag → Option α} (given : Option α) (h : flags.Perm flags')
    (hgiven : flags'.filterMap kind = given.toList) : lastGiven kind flags = given := by
  have hkind := h.filterMap kind
  rw [hgiven] at hkind
  rw [lastGiven]
  cases given with
  | none =>
    rw [List.Perm.eq_nil hkind]
    rfl
  | some a =>
    rw [List.perm_singleton.mp hkind]
    rfl

end Last

section Reading
variable {request : CheckRequest} {flags : List Flag} {argv : List (Flag × Bool)}

/-- The flags of a request ask for it in any order. -/
lemma asks_of_perm (h : flags.Perm request.flags) : Asks flags request := by
  obtain ⟨profile, format, redact, timeout, out⟩ := request
  refine ⟨lastGiven_of_perm _ h ?_, ?_, ?_, lastGiven_of_perm _ h ?_, ?_⟩
  · cases out <;> cases redact <;> rfl
  · rw [lastGiven_of_perm (some format) h (by cases out <;> cases redact <;> rfl)]
    rfl
  · rw [lastGiven_of_perm (some timeout) h (by cases out <;> cases redact <;> rfl)]
    rfl
  · cases out <;> cases redact <;> rfl
  · rw [h.mem_iff]
    cases out <;> cases redact <;> simp [CheckRequest.flags]

lemma finish_eq_ok_iff {options : CheckOptions} {command : CheckCommand} :
    finish precision options = .ok (.check command) ↔
      options.profile = some command.profile ∧ options.format = command.format ∧
        options.redact = command.redact ∧ options.out = command.out ∧
        mathRound (precision.keep (options.timeoutSeconds * 1000)) = command.timeoutMs := by
  constructor
  · intro h
    obtain ⟨hprofile, hformat, hredact, hout, htimeout⟩ := finish_eq_ok h
    exact ⟨hprofile, hformat.symm, hredact.symm, hout.symm, htimeout.symm⟩
  · rintro ⟨hprofile, hformat, hredact, hout, htimeout⟩
    rw [finish, hprofile, hformat, hredact, hout, htimeout]

/-- The budget of whole seconds, in milliseconds. -/
lemma mathRound_seconds (seconds : Seconds) :
    mathRound (precision.keep ((seconds.count : ℚ) * 1000)) = (seconds.count : ℤ) * 1000 := by
  have hcount : seconds.count * 1000 < 2 ^ 53 :=
    (Nat.mul_le_mul_right 1000 seconds.le).trans_lt (by decide)
  have hkeep := precision.keep_natCast hcount
  push_cast at hkeep
  rw [hkeep, ← mathRound_intCast ((seconds.count : ℤ) * 1000)]
  push_cast
  rfl

lemma noRedact_mem_map_iff : CheckOption.noRedact ∈ flags.map Flag.option ↔
    Flag.noRedact ∈ flags := by
  rw [List.mem_map]
  constructor
  · rintro ⟨flag, hm, hflag⟩
    cases flag <;> cases hflag
    exact hm
  · exact fun hm => ⟨_, hm, rfl⟩

/-- The last flag of each kind is the one that counts. -/
lemma parseArgs_render_iff : parseArgs (render argv) precision = .ok (.check request.command) ↔
    Asks (argv.map Prod.fst) request := by
  generalize hflags : argv.map Prod.fst = flags
  have htext : Function.Injective FlagValue.text := fun _ _ => FlagValue.ext
  have hprofile : (readAll {} (flags.map Flag.option)).profile = some request.command.profile ↔
      lastGiven Flag.profile? flags = some request.profile := by
    rw [readAll_profile,
      lastOf_map_option Flag.profile? FlagValue.text (by rintro ⟨⟩ <;> rfl)]
    exact (Option.map_injective htext).eq_iff (b := some request.profile)
  have hformat : (readAll {} (flags.map Flag.option)).format = request.command.format ↔
      (lastGiven Flag.format? flags).getD .text = request.format := by
    rw [readAll_format, lastOf_map_option Flag.format? id (by rintro ⟨⟩ <;> rfl),
      Option.map_id]
    rfl
  have hredact : (readAll {} (flags.map Flag.option)).redact = request.command.redact ↔
      (request.redact = false ↔ Flag.noRedact ∈ flags) := by
    rw [← noRedact_mem_map_iff, ← readAll_redact]
    change _ = request.redact ↔ _
    cases request.redact <;> cases (readAll {} (flags.map Flag.option)).redact <;> decide
  have hout : (readAll {} (flags.map Flag.option)).out = request.command.out ↔
      lastGiven Flag.out? flags = request.out := by
    rw [readAll_out,
      lastOf_map_option Flag.out? FlagValue.text (by rintro ⟨⟩ <;> rfl)]
    exact (Option.map_injective htext).eq_iff
  have htimeout :
      mathRound (precision.keep ((readAll {} (flags.map Flag.option)).timeoutSeconds * 1000)) =
        request.command.timeoutMs ↔
      (lastGiven Flag.timeout? flags).getD defaultTimeout = request.timeout := by
    have hseconds : ((lastGiven Flag.timeout? flags).map fun seconds => (seconds.count : ℚ)).getD
        defaultTimeoutSeconds = ((lastGiven Flag.timeout? flags).getD defaultTimeout).count :=
      Option.getD_map (fun seconds : Seconds => (seconds.count : ℚ)) defaultTimeout _
    rw [readAll_seconds, lastOf_map_option Flag.timeout?
      (fun seconds => (seconds.count : ℚ)) (by rintro ⟨⟩ <;> rfl), hseconds, mathRound_seconds]
    change _ = (request.timeout.count : ℤ) * 1000 ↔ _
    rw [Seconds.ext_iff]
    omega
  rw [parseArgs_render_eq, hflags, finish_eq_ok_iff, hprofile, hformat, hredact, hout, htimeout]
  exact ⟨fun ⟨h₁, h₂, h₃, h₄, h₅⟩ => ⟨h₁, h₂, h₅, h₄, h₃⟩, fun h =>
    ⟨h.profile, h.format, h.redact, h.out, h.timeout⟩⟩

theorem parseArgs_render (request : CheckRequest) (argv : List (Flag × Bool)) :
    ReadBack request argv :=
  ⟨fun h => parseArgs_render_iff.mpr (asks_of_perm h), parseArgs_render_iff⟩

/-- Values with a space and `=` in them, and one that is a command of its own. -/
def wordsRequest : CheckRequest where
  profile := ⟨"profiles", by decide⟩
  format := .html
  redact := false
  timeout := ⟨90, by decide, by decide⟩
  out := some ⟨"a b=c.html", by decide⟩

def wordsArgv : List (Flag × Bool) :=
  [(.noRedact, false), (.out ⟨"a b=c.html", by decide⟩, true),
    (.timeout ⟨90, by decide, by decide⟩, false), (.profile ⟨"profiles", by decide⟩, true),
    (.format .html, false)]

theorem parseArgs_render_words :
    render wordsArgv = ["check", "--no-redact", "--out=a b=c.html", "--timeout", "90",
      "--profile=profiles", "--format", "html"] ∧
    parseArgs (render wordsArgv) =
      .ok (.check ⟨⟨"profiles", .html, false⟩, 90000, some "a b=c.html"⟩) :=
  ⟨by decide +kernel, (parseArgs_render wordsRequest wordsArgv).permuted (by decide)⟩

end Reading

end Portcall.Cli
