import Mathlib.Logic.Relation
import Portcall.Tls.Handoff

/-! The targets are captured concurrently: in whatever order they complete, the run observes the
same anchors, each as often. -/
namespace Portcall.Tls

/-- The probe under way: the targets whose captures are pending, and what was pushed so far. -/
structure InFlight where
  pending : List TlsTarget
  observed : List ObservedAnchor

section Interleaving
variable (ext : Externals) (capturer : TlsCapture) (policy : TlsPolicy) (proxy : Option HostPort)
  (options : ChainEvaluationOptions)

/-- Some pending target completes. Once both its captures are in, it pushes its anchors without
waiting for anything, so no other target pushes in between. -/
inductive CaptureStep : InFlight → InFlight → Prop
  | intro {before after : List TlsTarget} {target : TlsTarget} {observed : List ObservedAnchor}
      {findings : List Finding} {anchors : List ObservedAnchor}
      (h : checkTarget ext capturer policy proxy options target = some (findings, anchors)) :
      CaptureStep ⟨before ++ target :: after, observed⟩ ⟨before ++ after, observed ++ anchors⟩

/-- What a target pushes. -/
def pushedBy (target : TlsTarget) : List ObservedAnchor :=
  ((checkTarget ext capturer policy proxy options target).map Prod.snd).getD []

/-- What was pushed, and what is still going to be. -/
def InFlight.anchors (state : InFlight) : List ObservedAnchor :=
  state.observed ++ state.pending.flatMap (pushedBy ext capturer policy proxy options)

variable {ext capturer policy proxy options} {state state' : InFlight}

/-- A completion moves anchors from what is going to be pushed to what was. -/
lemma CaptureStep.anchors_perm (h : CaptureStep ext capturer policy proxy options state state') :
    (state.anchors ext capturer policy proxy options).Perm
      (state'.anchors ext capturer policy proxy options) := by
  obtain ⟨hcheck⟩ := h
  rename_i before after target observed findings anchors
  have hpushed : pushedBy ext capturer policy proxy options target = anchors := by
    rw [pushedBy, hcheck]
    rfl
  rw [InFlight.anchors, InFlight.anchors, List.flatMap_append, List.flatMap_append,
    List.flatMap_cons, hpushed, List.append_assoc]
  apply List.Perm.append_left
  rw [← List.append_assoc, ← List.append_assoc]
  exact List.perm_append_comm.append_right _

/-- Over any number of completions none is lost and none pushed twice. -/
theorem anchors_perm_of_run
    (h : Relation.ReflTransGen (CaptureStep ext capturer policy proxy options) state state') :
    (state.anchors ext capturer policy proxy options).Perm
      (state'.anchors ext capturer policy proxy options) := by
  induction h with
  | refl => exact List.Perm.refl _
  | tail _ hstep ih => exact ih.trans hstep.anchors_perm

/-- Whatever is pending, the targets can all complete. -/
theorem exists_run (targets : List TlsTarget) (observed : List ObservedAnchor) :
    ∃ observed', Relation.ReflTransGen (CaptureStep ext capturer policy proxy options)
      ⟨targets, observed⟩ ⟨[], observed'⟩ := by
  induction targets generalizing observed with
  | nil => exact ⟨observed, .refl⟩
  | cons target targets ih =>
    obtain ⟨_, _, -, -, hcheck⟩ := @checkTarget_eq_some ext capturer target proxy policy options
    obtain ⟨observed', hrun⟩ := ih (observed ++ _)
    refine ⟨observed', .head ?_ hrun⟩
    exact @CaptureStep.intro ext capturer policy proxy options [] targets target observed _ _ hcheck

/-- The anchors of a run in source order. -/
lemma flatMap_pushedBy {targets : List TlsTarget}
    {results : List (List Finding × List ObservedAnchor)}
    (h : targets.mapM (checkTarget ext capturer policy proxy options) = some results) :
    targets.flatMap (pushedBy ext capturer policy proxy options) = results.flatMap Prod.snd := by
  have hforall := OptionMap.mapM_eq_some_iff.mp h
  clear h
  induction hforall with
  | nil => rfl
  | cons hcheck _ ih =>
    rw [List.flatMap_cons, List.flatMap_cons, ih, pushedBy, hcheck]
    rfl

end Interleaving

/-- The captures of a profile's targets, started together, all completed, and this is what they
pushed. -/
def AllCaptured (ext : Externals) (profile : Profile) (capturer : TlsCapture) (env : Environment)
    (options : ChainEvaluationOptions) (observed : List ObservedAnchor) : Prop :=
  Relation.ReflTransGen
    (CaptureStep ext capturer profile.tls (discoverEnvProxy ext env) options)
    ⟨tlsTargets profile.endpoints, []⟩ ⟨[], observed⟩

section AllCaptured
variable {ext : Externals} {profile : Profile} {publicRootPems : List String}
  {capturer : TlsCapture} {env : Environment} {options : ChainEvaluationOptions}
  {observed observed' : List ObservedAnchor}

/-- Some order completes them all. -/
theorem exists_allCaptured : ∃ observed, AllCaptured ext profile capturer env options observed :=
  exists_run _ _

/-- Two orders of completion leave the same anchors. -/
theorem observed_perm (h : AllCaptured ext profile capturer env options observed)
    (h' : AllCaptured ext profile capturer env options observed') : observed.Perm observed' := by
  have hperm := (anchors_perm_of_run h).symm.trans (anchors_perm_of_run h')
  simpa [InFlight.anchors] using hperm

/-- They are the anchors the probe returns. -/
theorem observed_perm_runTls {now : ℤ} {roots : CertificateIndex}
    (hroots : certificateIndex ext publicRootPems = some roots)
    (h : AllCaptured ext profile capturer env ⟨roots, now⟩ observed) :
    ∃ findings anchors,
      runTls ext profile publicRootPems capturer env now = some (findings, anchors) ∧
      observed.Perm anchors := by
  obtain ⟨results, hresults, hrun⟩ := runTls_eq_mapM profile capturer env now hroots
  refine ⟨_, _, hrun, ?_⟩
  have hperm := (anchors_perm_of_run h).symm
  rw [← flatMap_pushedBy hresults]
  simpa [InFlight.anchors] using hperm

end AllCaptured
end Portcall.Tls
