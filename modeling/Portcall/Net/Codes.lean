import Portcall.Externals

/-! Machine codes: the one string a thrown value may carry into the report. -/
namespace Portcall

def isMachineCodeChar (c : Char) : Bool := ('A' ≤ c && c ≤ 'Z') || Text.isDigit c || c = '_'

/-- `/^[A-Z][A-Z0-9_]{1,63}$/` -/
def isMachineCode (code : String) : Bool :=
  match code.toList with
  | [] => false
  | first :: rest =>
    'A' ≤ first && first ≤ 'Z' && rest.all isMachineCodeChar && 1 ≤ rest.length && rest.length ≤ 63

/-- What an error is an instance of. -/
inductive ThrownClass where
  | networkPolicyError (host : String)
  /-- With the `code` of each of its errors. -/
  | aggregateError (errors : List (Option String))
  | error
  | notAnError
  deriving DecidableEq, Repr

/-- An error of an operation of the runtime's own, as far as anything reads it: plain data. A `code`
is `none` where the error has none, or one that is not a string. -/
structure Thrown where
  thrownClass : ThrownClass
  name : String := ""
  code : Option String := none
  /-- The `code` of its `cause`. -/
  causeCode : Option String := none
  deriving DecidableEq, Repr

/-- Anything that can be thrown, as far as anything reads it. Reading it may run code of its own (a
getter, a proxy's trap, an iterator), so each question put to it is answered for itself, and with
`none` where the value throws instead. -/
structure ThrownValue where
  /-- `error instanceof NetworkPolicyError` -/
  isPolicyError : Throwing Bool
  /-- `error instanceof Error` -/
  isError : Throwing Bool
  /-- `error.name`, the first time and the second. -/
  name : Throwing String
  nameAgain : Throwing String
  /-- `error.code`; `some none` where there is none, or one that is not a string. -/
  code : Throwing (Option String)
  /-- `error.cause.code`, likewise. -/
  causeCode : Throwing (Option String)
  /-- `error instanceof AggregateError` -/
  isAggregateError : Throwing Bool
  /-- The `code` of each item of `for (const inner of error.errors)`, likewise; `none` is where the
  iteration throws, as it does at once over what is not iterable, or where it comes to no end. -/
  errors : List (Throwing (Option String))
  /-- `error instanceof NetworkPolicyError`, asked again. -/
  isPolicyErrorAgain : Throwing Bool
  host : Throwing String
  deriving DecidableEq, Repr

section Plain

def ThrownClass.isPolicyError : ThrownClass → Bool
  | .networkPolicyError _ => true
  | _ => false

def ThrownClass.isError : ThrownClass → Bool
  | .notAnError => false
  | _ => true

def ThrownClass.isAggregateError : ThrownClass → Bool
  | .aggregateError _ => true
  | _ => false

def ThrownClass.errors : ThrownClass → List (Option String)
  | .aggregateError errors => errors
  | _ => []

def ThrownClass.host : ThrownClass → String
  | .networkPolicyError host => host
  | _ => ""

/-- Plain data answers whatever it is asked. -/
def Thrown.value (thrown : Thrown) : ThrownValue where
  isPolicyError := some thrown.thrownClass.isPolicyError
  isError := some thrown.thrownClass.isError
  name := some thrown.name
  nameAgain := some thrown.name
  code := some thrown.code
  causeCode := some thrown.causeCode
  isAggregateError := some thrown.thrownClass.isAggregateError
  errors := thrown.thrownClass.errors.map some
  isPolicyErrorAgain := some thrown.thrownClass.isPolicyError
  host := some thrown.thrownClass.host

end Plain

/-- The code, if it is a machine code. -/
def codeOf (code : Option String) : Option String := code.filter isMachineCode

/-- The first machine code that the items of an iteration carry. -/
def firstCode : List (Throwing (Option String)) → Throwing (Option String)
  | [] => some none
  | item :: rest => do
    let code ← item
    if (codeOf code).isSome then return codeOf code
    firstCode rest

/-- The one code a thrown value carries: its own, its cause's, or one of its errors'. -/
def ThrownValue.extractCode (error : ThrownValue) : Throwing (Option String) := do
  let direct ← error.code
  if (codeOf direct).isSome then return codeOf direct
  let fromCause ← error.causeCode
  if (codeOf fromCause).isSome then return codeOf fromCause
  let aggregate ← error.isAggregateError
  if aggregate then firstCode error.errors else return none

/-- The same of an error that is plain data. -/
def extractCode (thrown : Thrown) : Option String :=
  match codeOf thrown.code with
  | some code => some code
  | none =>
    match codeOf thrown.causeCode with
    | some code => some code
    | none =>
      match thrown.thrownClass with
      | .aggregateError errors => errors.findSome? codeOf
      | _ => none

lemma firstCode_some (code : Option String) (rest : List (Throwing (Option String))) :
    firstCode (some code :: rest) =
      if (codeOf code).isSome then some (codeOf code) else firstCode rest := rfl

lemma firstCode_map_some (codes : List (Option String)) :
    firstCode (codes.map some) = some (codes.findSome? codeOf) := by
  induction codes with
  | nil => rfl
  | cons code rest ih =>
    rw [List.map_cons, firstCode_some, ih, List.findSome?_cons]
    cases codeOf code <;> simp

lemma extractCode_value (thrown : Thrown) :
    thrown.value.extractCode = some (extractCode thrown) := by
  obtain ⟨thrownClass, name, code, causeCode⟩ := thrown
  unfold ThrownValue.extractCode extractCode Thrown.value
  cases hcode : codeOf code with
  | some found => simp [hcode]
  | none =>
    cases hcause : codeOf causeCode with
    | some found => simp [hcode, hcause]
    | none =>
      cases thrownClass <;>
        simp [hcode, hcause, ThrownClass.isAggregateError, ThrownClass.errors, firstCode_map_some]

lemma isMachineCode_of_codeOf {code : Option String} {found : String}
    (h : codeOf code = some found) : isMachineCode found = true :=
  (Option.filter_eq_some_iff.mp h).2

/-- Whatever is extracted is a machine code. -/
theorem isMachineCode_of_extractCode {thrown : Thrown} {found : String}
    (h : extractCode thrown = some found) : isMachineCode found = true := by
  unfold extractCode at h
  split at h
  · rename_i hcode
    cases h
    exact isMachineCode_of_codeOf hcode
  · split at h
    · rename_i hcode
      cases h
      exact isMachineCode_of_codeOf hcode
    · split at h
      · obtain ⟨code, -, hcode⟩ := List.exists_of_findSome?_eq_some h
        exact isMachineCode_of_codeOf hcode
      · cases h

example : isMachineCode "ECONNREFUSED" ∧ ¬isMachineCode "getaddrinfo" := by decide

end Portcall
