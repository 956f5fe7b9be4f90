import Portcall.Cli.Args
import Mathlib.Data.List.Induction

/-! The options of `check` as a grammar, and `parseArgs` as its reader: which command lines it
accepts, what they come to, and where `--help` is heard. -/
namespace Portcall.Cli

/-- What one option says. -/
inductive CheckOption where
  | noRedact
  | profile (value : String)
  | format (value : Format)
  | out (value : String)
  | timeout (seconds : ℚ)
  deriving DecidableEq, Repr

/-- The option a flag and its value make. -/
inductive FlagReads (precision : Precision) : String → String → CheckOption → Prop
  | profile (value : String) : FlagReads precision "--profile" value (.profile value)
  | format {value : String} {format : Format} (h : isFormat value = some format) :
    FlagReads precision "--format" value (.format format)
  | out (value : String) : FlagReads precision "--out" value (.out value)
  | timeout {value : String} {seconds : ℚ} (h : precision.number value = .finite seconds)
    (hpos : 0 < seconds) (hmax : seconds ≤ maxTimeoutSeconds) :
    FlagReads precision "--timeout" value (.timeout seconds)

/-- The tokens one option takes: alone, as `flag=value`, or as a flag and the token after it. -/
inductive Spells (precision : Precision) : CheckOption → List String → Prop
  | noRedact : Spells precision .noRedact ["--no-redact"]
  | inline {option : CheckOption} {flag value : String} (h : FlagReads precision flag value option)
    (hvalue : Text.startsWith value "-" = false) : Spells precision option [flag ++ "=" ++ value]
  | separate {option : CheckOption} {flag value : String} (h : FlagReads precision flag value option)
    (hvalue : Text.startsWith value "-" = false) : Spells precision option [flag, value]

/-- A whole command line after `check`: options, one after another. -/
inductive SpellsAll (precision : Precision) : List CheckOption → List String → Prop
  | nil : SpellsAll precision [] []
  | cons {option : CheckOption} {options : List CheckOption} {tokens rest : List String}
    (h : Spells precision option tokens) (htail : SpellsAll precision options rest) :
    SpellsAll precision (option :: options) (tokens ++ rest)

variable {precision : Precision}

/-- What an option does to what was read before it: the last one of a kind counts. -/
def CheckOption.apply (options : CheckOptions) : CheckOption → CheckOptions
  | .noRedact => { options with redact := false }
  | .profile value => { options with profile := some value }
  | .format value => { options with format := value }
  | .out value => { options with out := some value }
  | .timeout seconds => { options with timeoutSeconds := seconds }

def readAll (options : CheckOptions) (given : List CheckOption) : CheckOptions :=
  given.foldl CheckOption.apply options

section Tokens

lemma splitFlag_inline {flag : String} (value : String) (hdash : Text.startsWith flag "--" = true)
    (hlength : 2 < flag.toList.length) (hequals : '=' ∉ flag.toList) :
    splitFlag (flag ++ "=" ++ value) = (flag, some value) := by
  have hchars : (flag ++ "=" ++ value).toList = flag.toList ++ '=' :: value.toList := by
    simp [String.toList_append]
  have hidx : (flag ++ "=" ++ value).toList.idxOf '=' = flag.toList.length := by
    rw [hchars, List.idxOf_append_of_notMem hequals, List.idxOf_cons_self, Nat.add_zero]
  have hstart : Text.startsWith (flag ++ "=" ++ value) "--" = true := by
    rw [Text.startsWith, List.isPrefixOf_iff_prefix] at hdash ⊢
    rw [hchars]
    exact hdash.trans (List.prefix_append _ _)
  rw [splitFlag, hidx, hstart]
  simp only [Bool.true_and, Bool.and_eq_true, decide_eq_true_eq]
  rw [if_pos ⟨hlength, by rw [hchars]; simp⟩, hchars]
  simp

/-- A token that splits is its flag, `=` and its value. -/
lemma eq_of_splitFlag {arg flag value : String} (h : splitFlag arg = (flag, some value)) :
    arg = flag ++ "=" ++ value := by
  rw [splitFlag] at h
  split_ifs at h with hc
  · simp only [Bool.and_eq_true, decide_eq_true_eq] at hc
    obtain ⟨rfl, hvalue⟩ := Prod.mk.inj h
    obtain rfl := Option.some.inj hvalue
    apply String.toList_injective
    simp only [String.toList_append, String.toList_ofList]
    have hget : arg.toList[arg.toList.idxOf '='] = '=' := List.getElem_idxOf hc.2
    conv_lhs => rw [← List.take_append_drop (arg.toList.idxOf '=') arg.toList,
      List.drop_eq_getElem_cons hc.2, hget]
    simp
  · cases (Prod.mk.inj h).2

lemma eq_of_splitFlag_none {arg flag : String} (h : splitFlag arg = (flag, none)) : arg = flag := by
  rw [splitFlag] at h
  split_ifs at h
  · cases (Prod.mk.inj h).2
  · exact (Prod.mk.inj h).1

end Tokens

section Except
variable {α β : Type} {x : Except String α} {b : β}

lemma bind_eq_ok {f : α → Except String β} (h : x >>= f = .ok b) :
    ∃ a, x = .ok a ∧ f a = .ok b := by
  cases x with
  | error message => cases h
  | ok a => exact ⟨a, rfl, h⟩

lemma map_eq_ok {f : α → β} (h : x.map f = .ok b) : ∃ a, x = .ok a ∧ f a = b := by
  cases x with
  | error message => cases h
  | ok a => exact ⟨a, rfl, Except.ok.inj h⟩

end Except

section Step
variable {options : CheckOptions} {arg flag value : String}

lemma valueOf_eq_ok_iff {text : String} : valueOf flag (some value) = .ok text ↔
    Text.startsWith value "-" = false ∧ text = value := by
  rw [valueOf]
  split_ifs with h
  · simp [h]
  · simp [h, eq_comm]

lemma timeoutOf_eq_ok_iff {seconds : ℚ} : timeoutOf precision value = .ok seconds ↔
    precision.number value = .finite seconds ∧ 0 < seconds ∧ seconds ≤ maxTimeoutSeconds := by
  rw [timeoutOf]
  cases hnumber : precision.number value with
  | nan => simp
  | infinity negative => simp
  | finite parsed =>
    simp only [Number.finite.injEq]
    constructor
    · intro h
      split_ifs at h with hpos hmax
      obtain rfl := Except.ok.inj h
      exact ⟨rfl, not_le.mp hpos, not_lt.mp hmax⟩
    · rintro ⟨rfl, hpos, hmax⟩
      rw [if_neg (not_le.mpr hpos), if_neg (not_lt.mpr hmax)]

lemma formatOf_eq_ok_iff {format : Format} :
    formatOf value = .ok format ↔ isFormat value = some format := by
  rw [formatOf]
  split
  · next h => simp [h]
  · next h => simp [h]

/-- The `switch` accepts a flag with a value exactly when they make an option, and then does what
that option says. -/
lemma applyFlag_eq_ok_iff {options' : CheckOptions} :
    applyFlag precision arg flag (some value) options = .ok options' ↔
      Text.startsWith value "-" = false ∧
        ∃ option, FlagReads precision flag value option ∧ options' = option.apply options := by
  constructor
  · intro h
    unfold applyFlag at h
    split_ifs at h with hflag hflag hflag hflag <;> try subst hflag
    · obtain ⟨text, htext, rfl⟩ := map_eq_ok h
      obtain ⟨hvalue, rfl⟩ := valueOf_eq_ok_iff.mp htext
      exact ⟨hvalue, _, .profile _, rfl⟩
    · obtain ⟨text, htext, hformat⟩ := bind_eq_ok h
      obtain ⟨hvalue, rfl⟩ := valueOf_eq_ok_iff.mp htext
      obtain ⟨format, hname, hbody⟩ := bind_eq_ok hformat
      obtain rfl := Except.ok.inj hbody
      exact ⟨hvalue, _, .format (formatOf_eq_ok_iff.mp hname), rfl⟩
    · obtain ⟨text, htext, rfl⟩ := map_eq_ok h
      obtain ⟨hvalue, rfl⟩ := valueOf_eq_ok_iff.mp htext
      exact ⟨hvalue, _, .out _, rfl⟩
    · obtain ⟨text, htext, htimeout⟩ := bind_eq_ok h
      obtain ⟨hvalue, rfl⟩ := valueOf_eq_ok_iff.mp htext
      obtain ⟨seconds, hseconds, hbody⟩ := bind_eq_ok htimeout
      obtain rfl := Except.ok.inj hbody
      obtain ⟨hnumber, hpos, hmax⟩ := timeoutOf_eq_ok_iff.mp hseconds
      exact ⟨hvalue, _, .timeout hnumber hpos hmax, rfl⟩
  · rintro ⟨hvalue, option, hreads, rfl⟩
    have hok : ∀ flag, valueOf flag (some value) = .ok value :=
      fun flag => valueOf_eq_ok_iff.mpr ⟨hvalue, rfl⟩
    cases hreads with
    | profile => rw [applyFlag, if_pos rfl, hok]; rfl
    | format h =>
      rw [applyFlag, if_neg (by decide), if_pos rfl, hok]
      simp only [bind, Except.bind, formatOf_eq_ok_iff.mpr h]
      rfl
    | out => rw [applyFlag, if_neg (by decide), if_neg (by decide), if_pos rfl, hok]; rfl
    | timeout hnumber hpos hmax =>
      rw [applyFlag, if_neg (by decide), if_neg (by decide), if_neg (by decide), if_pos rfl, hok]
      simp only [bind, Except.bind, timeoutOf_eq_ok_iff.mpr ⟨hnumber, hpos, hmax⟩]
      rfl

lemma applyFlag_none_ne_ok {options' : CheckOptions} :
    applyFlag precision arg flag none options ≠ .ok options' := by
  unfold applyFlag valueOf
  split_ifs <;> simp [Except.map, bind, Except.bind]

end Step

section Loop
variable {options : CheckOptions} {option : CheckOption} {given : List CheckOption}
  {tokens rest : List String}

/-- A token with `=` in it is neither of the two that stand alone. -/
lemma alone_of_equals {arg : String} (h : '=' ∈ arg.toList) :
    isHelp arg = false ∧ arg ≠ "--no-redact" := by
  constructor
  · rw [isHelp, Bool.or_eq_false_iff, decide_eq_false_iff_not, decide_eq_false_iff_not]
    constructor <;> rintro rfl <;> exact absurd h (by decide)
  · rintro rfl
    exact absurd h (by decide)

lemma FlagReads.splitFlag_inline {flag value : String} (h : FlagReads precision flag value option) :
    splitFlag (flag ++ "=" ++ value) = (flag, some value) := by
  cases h <;> exact Cli.splitFlag_inline value (by decide) (by decide) (by decide)

lemma FlagReads.flag_alone {flag value : String} (h : FlagReads precision flag value option) :
    isHelp flag = false ∧ flag ≠ "--no-redact" ∧ splitFlag flag = (flag, none) := by
  cases h <;> decide

/-- The loop reads the tokens of one option and goes on with what the option says. -/
lemma checkLoop_spells (h : Spells precision option tokens) :
    checkLoop precision options (tokens ++ rest) =
      checkLoop precision (option.apply options) rest := by
  cases h with
  | noRedact =>
    rw [List.singleton_append, checkLoop.eq_def]
    rfl
  | @inline _ flag value h hvalue =>
    obtain ⟨hhelp, hredact⟩ := alone_of_equals (show '=' ∈ (flag ++ "=" ++ value).toList by
      simp [String.toList_append])
    rw [List.singleton_append, checkLoop.eq_def]
    simp only [hhelp, Bool.false_eq_true, if_false, if_neg hredact, h.splitFlag_inline,
      applyFlag_eq_ok_iff.mpr ⟨hvalue, option, h, rfl⟩]
  | @separate _ flag value h hvalue =>
    obtain ⟨hhelp, hredact, hsplit⟩ := h.flag_alone
    rw [List.cons_append, List.singleton_append, checkLoop.eq_def]
    simp only [hhelp, Bool.false_eq_true, if_false, if_neg hredact, hsplit,
      applyFlag_eq_ok_iff.mpr ⟨hvalue, option, h, rfl⟩]

lemma checkLoop_spellsAll (h : SpellsAll precision given tokens) :
    checkLoop precision options (tokens ++ rest) =
      checkLoop precision (readAll options given) rest := by
  induction h generalizing options with
  | nil => rfl
  | cons h _ ih => rw [List.append_assoc, checkLoop_spells h, ih]; rfl

/-- The two ways a command line has of ending well: a call for help after whole options, or whole
options to the end. -/
def EndsWell (precision : Precision) (options : CheckOptions) (tokens : List String)
    (command : Command) : Prop :=
  (command = .help ∧ ∃ given before help after, tokens = before ++ help :: after ∧
    isHelp help = true ∧ SpellsAll precision given before) ∨
  ∃ given, SpellsAll precision given tokens ∧ finish precision (readAll options given) = .ok command

lemma EndsWell.cons {command : Command} (h : Spells precision option tokens)
    (hrest : EndsWell precision (option.apply options) rest command) :
    EndsWell precision options (tokens ++ rest) command := by
  rcases hrest with ⟨hhelp, given, before, help, after, rfl, hcall, hall⟩ | ⟨given, hall, hfinish⟩
  · exact Or.inl ⟨hhelp, option :: given, tokens ++ before, help, after,
      (List.append_assoc _ _ _).symm, hcall, .cons h hall⟩
  · exact Or.inr ⟨option :: given, .cons h hall, hfinish⟩

/-- A loop that returns a command has ended well. -/
lemma endsWell_of_checkLoop {command : Command}
    (h : checkLoop precision options tokens = .ok command) :
    EndsWell precision options tokens command := by
  fun_induction checkLoop precision options tokens with
  | case1 options => exact Or.inr ⟨[], .nil, h⟩
  | case2 options arg rest hhelp =>
    obtain rfl := Except.ok.inj h
    exact Or.inl ⟨rfl, [], [], arg, rest, rfl, hhelp, .nil⟩
  | case3 options rest hhelp ih => exact .cons .noRedact (ih h)
  | case4 => cases h
  | case5 options arg rest hhelp hredact flag value hsplit options' happly ih =>
    obtain ⟨hvalue, option, hreads, rfl⟩ := applyFlag_eq_ok_iff.mp happly
    rw [eq_of_splitFlag hsplit]
    exact .cons (.inline hreads hvalue) (ih h)
  | case6 => cases h
  | case7 options arg hhelp hredact flag hsplit options' happly =>
    exact absurd happly applyFlag_none_ne_ok
  | case8 => cases h
  | case9 options arg hhelp hredact flag value rest hsplit options' happly ih =>
    obtain ⟨hvalue, option, hreads, rfl⟩ := applyFlag_eq_ok_iff.mp happly
    rw [eq_of_splitFlag_none hsplit]
    exact .cons (.separate hreads hvalue) (ih h)

end Loop

section Help
variable {tokens : List String}

/-- The tokens before the first call for help. -/
def beforeHelp (tokens : List String) : List String := tokens.takeWhile fun token => !isHelp token

lemma exists_call (h : ∃ token ∈ tokens, isHelp token = true) :
    ∃ help after, tokens = beforeHelp tokens ++ help :: after ∧ isHelp help = true := by
  cases hrest : tokens.dropWhile (fun token => !isHelp token) with
  | nil =>
    obtain ⟨token, hm, hcall⟩ := h
    have hnot := List.dropWhile_eq_nil_iff.mp hrest token hm
    simp [hcall] at hnot
  | cons help after =>
    refine ⟨help, after, ?_, ?_⟩
    · rw [← hrest, beforeHelp, List.takeWhile_append_dropWhile]
    · have hnot := List.head_dropWhile_not (fun token => !isHelp token)
        (l := tokens) (by rw [hrest]; exact List.cons_ne_nil _ _)
      simpa [hrest] using hnot

lemma Spells.not_help {option : CheckOption} (h : Spells precision option tokens) :
    ∀ token ∈ tokens, isHelp token = false := by
  cases h with
  | noRedact => decide
  | @inline _ flag value _ _ =>
    rw [List.forall_mem_singleton]
    exact (alone_of_equals (by simp [String.toList_append])).1
  | @separate _ flag value h hvalue =>
    rw [List.forall_mem_cons, List.forall_mem_singleton]
    refine ⟨h.flag_alone.1, ?_⟩
    rw [isHelp, Bool.or_eq_false_iff, decide_eq_false_iff_not, decide_eq_false_iff_not]
    constructor <;> rintro rfl <;> exact absurd hvalue (by decide)

lemma SpellsAll.not_help {given : List CheckOption} (h : SpellsAll precision given tokens) :
    ∀ token ∈ tokens, isHelp token = false := by
  induction h with
  | nil => exact List.forall_mem_nil _
  | cons h _ ih => exact List.forall_mem_append.mpr ⟨h.not_help, ih⟩

lemma finish_ne_help (options : CheckOptions) : finish precision options ≠ .ok .help := by
  unfold finish
  split <;> simp

/-- A call for help is answered exactly when whole options stand before it: an option that is not
known, or that still wants its value, is reported instead. -/
theorem parseArgs_help_iff (h : ∃ token ∈ tokens, isHelp token = true) :
    parseArgs ("check" :: tokens) = .ok .help ↔
      ∃ given, SpellsAll .double given (beforeHelp tokens) := by
  have hparse : parseArgs ("check" :: tokens) = checkLoop .double {} tokens := rfl
  rw [hparse]
  constructor
  · intro hloop
    rcases endsWell_of_checkLoop hloop with ⟨-, given, before, help, after, rfl, hcall, hall⟩ |
      ⟨given, -, hfinish⟩
    · have hbefore : beforeHelp (before ++ help :: after) = before := by
        rw [beforeHelp, List.takeWhile_append_of_pos (by simpa using hall.not_help)]
        simp [hcall]
      exact ⟨given, hbefore.symm ▸ hall⟩
    · exact absurd hfinish (finish_ne_help _)
  · rintro ⟨given, hall⟩
    obtain ⟨help, after, htokens, hcall⟩ := exists_call h
    rw [htokens, checkLoop_spellsAll hall, checkLoop.eq_def]
    simp only [hcall, if_true]

theorem parseArgs_help_profile : parseArgs ["check", "--profile", "p", "-h", "--bogus"] =
    .ok .help := by
  refine (parseArgs_help_iff ⟨"-h", by simp, by decide⟩).mpr ⟨[.profile "p"], ?_⟩
  exact .cons (.separate (.profile "p") (by decide)) .nil

/-- An option that is not known is reported, whatever follows it. -/
theorem parseArgs_bogus_help : ¬∀ tokens : List String, (∃ token ∈ tokens, isHelp token = true) →
    parseArgs ("check" :: tokens) = .ok .help := by
  intro h
  exact absurd (h ["--bogus", "--help"] ⟨"--help", by simp, by decide⟩) (by decide)

end Help

section Usable
variable {given : List CheckOption} {tokens : List String} {command : CheckCommand}

def CheckOption.profileValue : CheckOption → Option String
  | .profile value => some value
  | _ => none

def CheckOption.outValue : CheckOption → Option String
  | .out value => some value
  | _ => none

def CheckOption.formatValue : CheckOption → Option Format
  | .format value => some value
  | _ => none

def CheckOption.seconds : CheckOption → Option ℚ
  | .timeout seconds => some seconds
  | _ => none

/-- The value that the last option of a kind gives. -/
def lastOf {α : Type} (kind : CheckOption → Option α) (given : List CheckOption) : Option α :=
  (given.filterMap kind).getLast?

/-- A command a run can be made of. -/
structure Usable (tokens : List String) (command : CheckCommand) : Prop where
  profile : command.profile ≠ ""
  out : command.out ≠ some ""
  format : command.format ∈ formats
  timeout : 1 ≤ command.timeoutMs ∧ command.timeoutMs ≤ 3600000
  redact : command.redact = false ↔ "--no-redact" ∈ tokens

/-- Reading one option after another leaves, in each place, what the last one said of it. -/
lemma readAll_concat (options : CheckOptions) (option : CheckOption) :
    readAll options (given ++ [option]) = option.apply (readAll options given) := by
  rw [readAll, List.foldl_concat]
  rfl

lemma lastOf_concat {α : Type} (kind : CheckOption → Option α) (option : CheckOption) :
    lastOf kind (given ++ [option]) = (kind option).or (lastOf kind given) := by
  rw [lastOf, lastOf, List.filterMap_append]
  cases h : kind option <;> simp [h]

lemma readAll_profile : (readAll {} given).profile = lastOf CheckOption.profileValue given := by
  induction given using List.reverseRecOn with
  | nil => rfl
  | append_singleton given option ih =>
    rw [readAll_concat, lastOf_concat]
    cases option <;> first | exact ih | rfl

lemma readAll_out : (readAll {} given).out = lastOf CheckOption.outValue given := by
  induction given using List.reverseRecOn with
  | nil => rfl
  | append_singleton given option ih =>
    rw [readAll_concat, lastOf_concat]
    cases option <;> first | exact ih | rfl

lemma readAll_format :
    (readAll {} given).format = (lastOf CheckOption.formatValue given).getD .text := by
  induction given using List.reverseRecOn with
  | nil => rfl
  | append_singleton given option ih =>
    rw [readAll_concat, lastOf_concat]
    cases option <;> first | exact ih | rfl

lemma readAll_seconds : (readAll {} given).timeoutSeconds =
    (lastOf CheckOption.seconds given).getD defaultTimeoutSeconds := by
  induction given using List.reverseRecOn with
  | nil => rfl
  | append_singleton given option ih =>
    rw [readAll_concat, lastOf_concat]
    cases option <;> first | exact ih | rfl

lemma readAll_redact : (readAll {} given).redact = false ↔ .noRedact ∈ given := by
  induction given using List.reverseRecOn with
  | nil => decide
  | append_singleton given option ih =>
    rw [readAll_concat, List.mem_append, List.mem_singleton]
    cases option <;> simp [CheckOption.apply, ih]

lemma noRedact_mem_iff (h : SpellsAll precision given tokens) :
    "--no-redact" ∈ tokens ↔ .noRedact ∈ given := by
  induction h with
  | nil => simp
  | @cons option options tokens rest h _ ih =>
    rw [List.mem_append, List.mem_cons, ih]
    refine or_congr_left ?_
    cases h with
    | noRedact => simp
    | @inline _ flag value h _ =>
      have hne : flag ++ "=" ++ value ≠ "--no-redact" :=
        (alone_of_equals (by simp [String.toList_append])).2
      cases h <;> simpa [eq_comm] using hne
    | @separate _ flag value h hvalue =>
      have hne : value ≠ "--no-redact" := by
        rintro rfl
        exact absurd hvalue (by decide)
      cases h <;> simpa [eq_comm] using hne

/-- The seconds an option gives are in the range the loop lets through. -/
lemma Spells.seconds_range {option : CheckOption} (h : Spells precision option tokens)
    {seconds : ℚ}
    (hseconds : option.seconds = some seconds) : 0 < seconds ∧ seconds ≤ maxTimeoutSeconds := by
  cases h with
  | noRedact => cases hseconds
  | inline h _ | separate h _ =>
    cases h with
    | timeout _ hpos hmax =>
      obtain rfl := Option.some.inj hseconds
      exact ⟨hpos, hmax⟩
    | _ => cases hseconds

lemma SpellsAll.seconds_range (h : SpellsAll precision given tokens) {seconds : ℚ}
    (hm : seconds ∈ given.filterMap CheckOption.seconds) :
    0 < seconds ∧ seconds ≤ maxTimeoutSeconds := by
  induction h with
  | nil => simp at hm
  | @cons option options tokens rest h _ ih =>
    rw [List.filterMap_cons] at hm
    cases hoption : option.seconds with
    | none => exact ih (by simpa [hoption] using hm)
    | some first =>
      rw [hoption] at hm
      rcases List.mem_cons.mp hm with rfl | hm
      · exact h.seconds_range hoption
      · exact ih hm

/-- The budget is never beyond the largest one; it is a budget when it does not round to nothing. -/
lemma budget_range (h : SpellsAll precision given tokens) :
    (1 ≤ mathRound ((readAll {} given).timeoutSeconds * 1000) ↔
      ∀ seconds ∈ lastOf CheckOption.seconds given, 1 / 2000 ≤ seconds) ∧
    mathRound ((readAll {} given).timeoutSeconds * 1000) ≤ 3600000 := by
  rw [readAll_seconds, one_le_mathRound_iff]
  cases hlast : lastOf CheckOption.seconds given with
  | none =>
    simp only [Option.getD_none, defaultTimeoutSeconds, Option.mem_def, reduceCtorEq,
      false_implies, implies_true, iff_true]
    exact ⟨by norm_num, mathRound_le (by norm_num)⟩
  | some seconds =>
    have hmax := (h.seconds_range (List.mem_of_getLast? hlast)).2
    simp only [maxTimeoutSeconds, Nat.cast_ofNat] at hmax
    simp only [Option.getD_some, Option.mem_def, Option.some.injEq, forall_eq']
    refine ⟨⟨fun h => by linarith, fun h => by linarith⟩, mathRound_le ?_⟩
    push_cast
    linarith

lemma checkLoop_of_parseArgs {argv : List String}
    (h : parseArgs argv precision = .ok (.check command)) :
    ∃ tokens, argv = "check" :: tokens ∧ checkLoop precision {} tokens = .ok (.check command) := by
  cases argv with
  | nil => cases h
  | cons first rest =>
    unfold parseArgs at h
    dsimp only at h
    split_ifs at h with hhelp hversion hprofiles hcheck
    · cases h
    · cases h
    · cases rest <;> cases h
    · exact ⟨rest, congrArg (· :: rest) hcheck, h⟩

lemma finish_eq_ok {options : CheckOptions} (h : finish precision options = .ok (.check command)) :
    options.profile = some command.profile ∧ command.format = options.format ∧
      command.redact = options.redact ∧ command.out = options.out ∧
      command.timeoutMs = mathRound (precision.keep (options.timeoutSeconds * 1000)) := by
  unfold finish at h
  cases hprofile : options.profile with
  | none => simp [hprofile] at h
  | some profile =>
    rw [hprofile] at h
    obtain rfl := Command.check.inj (Except.ok.inj h)
    exact ⟨rfl, rfl, rfl, rfl, rfl⟩

lemma usable_iff (hall : SpellsAll .exact given tokens)
    (hfinish : finish .exact (readAll {} given) = .ok (.check command)) : Usable tokens command ↔
      lastOf CheckOption.profileValue given ≠ some "" ∧
      lastOf CheckOption.outValue given ≠ some "" ∧
      ∀ seconds ∈ lastOf CheckOption.seconds given, 1 / 2000 ≤ seconds := by
  obtain ⟨hprofile, -, hredact, hout, htimeout⟩ := finish_eq_ok hfinish
  obtain ⟨hone, hmax⟩ := budget_range hall
  rw [Precision.keep] at htimeout
  rw [← htimeout] at hone hmax
  rw [← readAll_profile, ← readAll_out, ← hone, hprofile, ← hout, Ne, Option.some.injEq]
  constructor
  · exact fun h => ⟨h.profile, h.out, h.timeout.1⟩
  · rintro ⟨hprofile, hout, hbudget⟩
    refine ⟨hprofile, hout, ?_, ⟨hbudget, hmax⟩, ?_⟩
    · cases command.format <;> decide
    · rw [hredact, readAll_redact, noRedact_mem_iff hall]

/-- An accepted command can be run exactly when the last profile and the last file it names are
not empty and the last budget it names does not round to nothing. -/
theorem parseArgs_usable_iff {argv : List String}
    (h : parseArgs argv .exact = .ok (.check command)) :
    Usable argv.tail command ↔ ∃ given, SpellsAll .exact given argv.tail ∧
      lastOf CheckOption.profileValue given ≠ some "" ∧
      lastOf CheckOption.outValue given ≠ some "" ∧
      ∀ seconds ∈ lastOf CheckOption.seconds given, 1 / 2000 ≤ seconds := by
  obtain ⟨tokens, rfl, hloop⟩ := checkLoop_of_parseArgs h
  rw [List.tail_cons]
  constructor
  · intro husable
    rcases endsWell_of_checkLoop hloop with ⟨hhelp, -⟩ | ⟨given, hall, hfinish⟩
    · cases hhelp
    · exact ⟨given, hall, (usable_iff hall hfinish).mp husable⟩
  · rintro ⟨given, hall, hvalues⟩
    refine (usable_iff hall ?_).mpr hvalues
    rw [← hloop, ← List.append_nil tokens, checkLoop_spellsAll hall, checkLoop]

theorem parseArgs_usable_file : ∃ command,
    parseArgs ["check", "--profile", "p", "--out=r.json"] .exact = .ok (.check command) ∧
      Usable ["--profile", "p", "--out=r.json"] command := by
  have hparse : parseArgs ["check", "--profile", "p", "--out=r.json"] .exact =
      .ok (.check ⟨⟨"p", .text, true⟩, 60000, some "r.json"⟩) := by decide +kernel
  refine ⟨_, hparse, (parseArgs_usable_iff hparse).mpr ⟨[.profile "p", .out "r.json"], ?_⟩⟩
  refine ⟨.cons (.separate (.profile "p") (by decide))
    (.cons (.inline (.out "r.json") (by decide)) .nil), by decide, by decide, ?_⟩
  exact fun seconds hm => absurd hm (Option.not_mem_none seconds)

/-- A tenth of a millisecond is a positive number of seconds and no time at all. -/
theorem parseArgs_zero_budget : ¬∀ argv command, parseArgs argv .exact = .ok (.check command) →
    Usable argv.tail command := by
  intro h
  have hparse : parseArgs ["check", "--profile", "p", "--timeout", "0.0001"] .exact =
      .ok (.check ⟨⟨"p", .text, true⟩, 0, none⟩) := by decide +kernel
  exact absurd (h _ _ hparse).timeout.1 (by decide)

end Usable

end Portcall.Cli
