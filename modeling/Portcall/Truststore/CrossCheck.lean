import Portcall.Truststore.RuntimeFindings

/-! The cross-check: what this machine holds, then what each declared runtime does with that. -/
namespace Portcall.Truststore

structure CrossCheckInput where
  osStores : List TrustStoreOutcome
  runtimeStores : List RuntimeStoreOutcome
  runtimes : List Runtime
  publicRootPems : List String
  observedAnchors : List ObservedAnchor
  osCommands : List TrustStoreCommand
  deriving DecidableEq, Repr

def CrossCheckInput.outcomesOf (input : CrossCheckInput) (runtime : Runtime) :
    List RuntimeStoreOutcome :=
  input.runtimeStores.filter fun outcome => outcome.runtime = runtime

def indeterminateFinding (osStores : List TrustStoreOutcome) : Finding where
  id := "truststore.crosscheck.indeterminate"
  probe := probeName
  severity := .unknown
  title := "No OS trust store could be read, so no runtime could be cross-checked"
  evidence := [⟨"stores attempted", toString osStores.length, .number⟩]
  remediation := some (
    "No OS trust store could be read, so portcall cannot tell which of this machine’s " ++
    "roots your runtimes are missing. The findings above say why the read failed; fix " ++
    "that and re-run.")

/-- The whole verdict. -/
def crossCheck (ext : Externals) (input : CrossCheckInput) : Throwing (List Finding) := do
  let publicIndex ← certificateIndex ext input.publicRootPems
  let added := locallyAdded ext input.osStores publicIndex
  let coverage := osCoverage ext input.osStores
  let stores := osFindings ext input.osStores input.osCommands
    (added.map fun anchor => derKey anchor.der)
  let runtimes ← input.runtimes.mapM fun runtime =>
    runtimeFindings ext runtime (input.outcomesOf runtime) added input.observedAnchors coverage
  return stores ++ runtimes.flatten ++
    if coverage.level = .none then [indeterminateFinding input.osStores] else []

/-- The probe: the stores as the two readers returned them, for the runtimes the profile
declares, against the anchors `tls` left behind. -/
def runTruststore (ext : Externals) (profile : Profile) (osStores : List TrustStoreOutcome)
    (runtimeStores : List RuntimeStoreOutcome) (publicRootPems : List String)
    (observedAnchors : List ObservedAnchor) (osCommands : List TrustStoreCommand) :
    Throwing (List Finding) :=
  crossCheck ext
    { osStores, runtimeStores, runtimes := profile.runtimes, publicRootPems, observedAnchors,
      osCommands }

end Portcall.Truststore
