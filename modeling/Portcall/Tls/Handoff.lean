import Portcall.Tls.Probe
import Portcall.Tls.Reading

/-! From a captured chain to the run's observations: every chain is evaluated, every anchor is
pushed, and an anchor carries bytes only where a private root was presented. -/
namespace Portcall.Tls
variable {ext : Externals} {roots : CertificateIndex} {chain : List X509Certificate}

/-- The chain of one capture that completed: a target of the profile, dialled directly or through
the proxy the environment names. -/
inductive Captured (ext : Externals) (profile : Profile) (capturer : TlsCapture)
    (env : Environment) (target : TlsTarget) : CapturedChain → Prop where
  | direct {chain : TlsChain} (htarget : target ∈ tlsTargets profile.endpoints)
      (hok : capturer ⟨target.host, target.port⟩ none = .ok chain) :
      Captured ext profile capturer env target (TlsChain.captured chain .direct)
  | proxy {chain : TlsChain} {proxy : HostPort} (htarget : target ∈ tlsTargets profile.endpoints)
      (hproxy : discoverEnvProxy ext env = some proxy)
      (hok : capturer ⟨target.host, target.port⟩ (some proxy) = .ok chain) :
      Captured ext profile capturer env target (TlsChain.captured chain .proxy)

/-- The issuance path of a captured chain ends in this self-signed certificate, and nothing on it
is in the bundle. -/
structure EndsInPrivateRoot (ext : Externals) (roots : CertificateIndex) (capture : CapturedChain)
    (chain : List X509Certificate) (root : X509Certificate) : Prop where
  parsed : parseChain ext capture.chainDer = some chain
  terminus : (pathCertificates ext chain).getLast? = some root
  selfSigned : subjectDn ext root = issuerDn ext root
  unbundled : ¬BundledOnPath ext roots chain

section Evaluate
variable {capture : CapturedChain} {target : ChainTarget} {policy : TlsPolicy}
  {options : ChainEvaluationOptions}

lemma anchorOf_isSome {verdict : RootVerdict} (hne : chain ≠ [])
    (h : classifyRoot ext chain roots = some verdict) : (anchorOf chain verdict).isSome := by
  rw [anchorOf, path_of_classifyRoot h, getLast?_pathCertificates,
    List.getLast?_eq_some_getLast (pathCertificates_ne_nil hne)]
  rfl

lemma rootFindings_isSome {verdict : RootVerdict} (hne : chain ≠ [])
    (h : classifyRoot ext chain roots = some verdict) :
    (rootFindings target capture chain verdict policy roots).isSome := by
  have hanchor := anchorOf_isSome hne h
  unfold rootFindings
  cases verdict.rootClass with
  | «public» => rfl
  | «private» => rw [Option.isSome_map, privateRoot, Option.isSome_map, hanchor]
  | indeterminate => rw [Option.isSome_map, rootIndeterminate, Option.isSome_map, hanchor]

/-- What a chain that parses is evaluated to: the anchor is the one its verdict names. -/
theorem evaluateChain_of_parseChain (hparse : parseChain ext capture.chainDer = some chain)
    (hne : chain ≠ []) :
    ∃ evaluation verdict, evaluateChain ext capture target policy options = some evaluation ∧
      classifyRoot ext chain options.roots = some verdict ∧
      evaluation.anchor = observedAnchor target capture chain ext verdict := by
  obtain ⟨leaf, rest, rfl⟩ := List.exists_cons_of_ne_nil hne
  obtain ⟨verdict, hverdict⟩ := Option.isSome_iff_exists.mp
    (@classifyRoot_isSome ext options.roots _ hne)
  obtain ⟨root, hroot⟩ := Option.isSome_iff_exists.mp
    (@rootFindings_isSome ext options.roots _ capture target policy _ hne hverdict)
  have hder : capture.chainDer.isEmpty = false := by
    rw [List.isEmpty_eq_false_iff]
    intro hnil
    rw [hnil] at hparse
    simp [parseChain] at hparse
  refine ⟨{
    findings := root ++ protocolFindings target capture policy ++
      validityFindings target capture (leaf :: rest) options.now ++
      nameFindings target capture ext leaf
    anchor := observedAnchor target capture (leaf :: rest) ext verdict }, verdict, ?_, hverdict, rfl⟩
  unfold evaluateChain
  simp only [hder, hparse, hverdict, hroot, Bool.false_eq_true, if_false, Option.bind_eq_bind,
    Option.bind_some]
  rfl

/-- An evaluation never throws. -/
theorem evaluateChain_isSome : (evaluateChain ext capture target policy options).isSome := by
  cases hparse : parseChain ext capture.chainDer with
  | none =>
    unfold evaluateChain
    rw [hparse]
    split_ifs <;> rfl
  | some chain =>
    cases chain with
    | nil =>
      unfold evaluateChain
      rw [hparse]
      split_ifs <;> rfl
    | cons leaf rest =>
      obtain ⟨evaluation, _, he, -⟩ := evaluateChain_of_parseChain hparse (List.cons_ne_nil _ _)
      rw [he]
      rfl

/-- A chain that ends in a private root leaves that root's bytes. -/
theorem anchor_of_endsInPrivateRoot {root : X509Certificate}
    (h : EndsInPrivateRoot ext options.roots capture chain root) :
    ∃ evaluation anchor, evaluateChain ext capture target policy options = some evaluation ∧
      evaluation.anchor = some anchor ∧ anchor.der = some root.rawData := by
  have hne : chain ≠ [] := by
    rintro rfl
    have := h.terminus
    simp [pathCertificates] at this
  obtain ⟨evaluation, verdict, he, hverdict, ha⟩ := evaluateChain_of_parseChain h.parsed hne
  have hreading := @classifyRoot_reading ext options.roots chain
  rw [hverdict, Option.map_some, readPath, if_neg (by simpa [BundledOnPath] using h.unbundled),
    h.terminus, Option.map_some, if_pos h.selfSigned, Option.some.injEq] at hreading
  rw [observedAnchor_reading _ _ hverdict, hreading, readAnchor, h.terminus, Option.map_some] at ha
  exact ⟨evaluation, _, he, ha, rfl⟩

/-- A reading leaves bytes only for a self-signed last certificate that is not in the bundle. -/
lemma terminus_of_readAnchor {name : String} {path : Via} {certificates : List X509Certificate}
    {reading : RootClass × RootReason} {anchor : ObservedAnchor} {der : List UInt8}
    (hreading : readPath ext roots certificates = some reading)
    (ha : readAnchor ext name path certificates reading = some anchor)
    (hder : anchor.der = some der) :
    ∃ root, certificates.getLast? = some root ∧ subjectDn ext root = issuerDn ext root ∧
      (¬∃ certificate ∈ certificates, roots.hasCertificate certificate.rawData = true) ∧
      root.rawData = der := by
  rw [readPath] at hreading
  split_ifs at hreading with hbundled
  · cases hreading
    cases ha
  obtain ⟨root, hroot, hr⟩ := Option.map_eq_some_iff.mp hreading
  refine ⟨root, hroot, ?_⟩
  have hunbundled : ¬∃ certificate ∈ certificates,
      roots.hasCertificate certificate.rawData = true := by
    simpa using hbundled
  split_ifs at hr with hself hsubject
  · subst hr
    rw [readAnchor, hroot, Option.map_some, Option.some.injEq] at ha
    subst ha
    exact ⟨hself, hunbundled, Option.some.inj hder⟩
  · subst hr
    rw [readAnchor, hroot, Option.map_some, Option.some.injEq] at ha
    subst ha
    cases hder
  · subst hr
    rw [readAnchor, hroot, Option.map_some, Option.some.injEq] at ha
    subst ha
    cases hder

/-- Bytes are left by nothing else: not by a path that stops short of a root, and not by one that
meets a bundled one. -/
theorem endsInPrivateRoot_of_anchor {evaluation : ChainEvaluation} {anchor : ObservedAnchor}
    {der : List UInt8} (he : evaluateChain ext capture target policy options = some evaluation)
    (ha : evaluation.anchor = some anchor) (hder : anchor.der = some der) :
    ∃ chain root, EndsInPrivateRoot ext options.roots capture chain root ∧ root.rawData = der := by
  have hempty : ∀ {findings : List Finding},
      some (⟨findings, none⟩ : ChainEvaluation) ≠ some evaluation := by
    rintro findings he
    cases he
    cases ha
  cases hparse : parseChain ext capture.chainDer with
  | none =>
    unfold evaluateChain at he
    rw [hparse] at he
    split_ifs at he
    · exact absurd he hempty
    · exact absurd he hempty
  | some chain =>
    cases chain with
    | nil =>
      unfold evaluateChain at he
      rw [hparse] at he
      split_ifs at he
      · exact absurd he hempty
      · exact absurd he hempty
    | cons leaf rest =>
      obtain ⟨evaluation', verdict, he', hverdict, ha'⟩ :=
        @evaluateChain_of_parseChain _ _ capture target policy options hparse
          (List.cons_ne_nil _ _)
      rw [he, Option.some.injEq] at he'
      subst he'
      have hreading := @classifyRoot_reading ext options.roots (leaf :: rest)
      rw [hverdict, Option.map_some] at hreading
      rw [observedAnchor_reading _ _ hverdict, ha] at ha'
      obtain ⟨root, hroot, hself, hunbundled, hd⟩ :=
        terminus_of_readAnchor hreading.symm ha'.symm hder
      exact ⟨_, root, ⟨hparse, hroot, hself, hunbundled⟩, hd⟩

end Evaluate

section Run
variable {profile : Profile} {publicRootPems : List String} {capturer : TlsCapture}
  {env : Environment} {now : ℤ} {target : TlsTarget} {proxy : Option HostPort}
  {policy : TlsPolicy} {options : ChainEvaluationOptions}

lemma checkPath_isSome {path : Via} {outcome : TlsChainOutcome} :
    (checkPath ext target policy proxy options path outcome).isSome := by
  cases outcome with
  | failed failed => rfl
  | ok chain =>
    obtain ⟨evaluation, he⟩ := Option.isSome_iff_exists.mp (@evaluateChain_isSome ext
      (TlsChain.captured chain path) ⟨target.host, target.required⟩ policy options)
    simp only [checkPath, he]
    rfl

/-- A target's two paths, evaluated: its findings and anchors are theirs, and the comparison. -/
lemma checkTarget_eq_some :
    ∃ direct proxied,
      checkPath ext target policy proxy options .direct
        (capturer ⟨target.host, target.port⟩ none) = some direct ∧
      ((proxy.mapM fun via => checkPath ext target policy proxy options .proxy
        (capturer ⟨target.host, target.port⟩ (some via))).map fun viaProxy =>
          viaProxy.getD ⟨[], none, none⟩) = some proxied ∧
      checkTarget ext capturer policy proxy options target = some
        (direct.findings ++ proxied.findings ++
            compareChains ext direct.chain proxied.chain target.host,
          direct.anchor.toList ++ proxied.anchor.toList) := by
  obtain ⟨direct, hdirect⟩ := Option.isSome_iff_exists.mp (@checkPath_isSome ext target proxy
    policy options .direct (capturer ⟨target.host, target.port⟩ none))
  cases proxy with
  | none =>
    refine ⟨direct, ⟨[], none, none⟩, hdirect, rfl, ?_⟩
    simp only [checkTarget, hdirect]
    rfl
  | some via =>
    obtain ⟨proxied, hproxied⟩ := Option.isSome_iff_exists.mp (@checkPath_isSome ext target
      (some via) policy options .proxy (capturer ⟨target.host, target.port⟩ (some via)))
    refine ⟨direct, proxied, hdirect, by simp [hproxied], ?_⟩
    simp only [checkTarget, hdirect, Option.mapM_some, hproxied]
    rfl

lemma anchor_of_checkPath {path : Via} {chain : TlsChain} {result : PathResult}
    {evaluation : ChainEvaluation}
    (h : checkPath ext target policy proxy options path (.ok chain) = some result)
    (he : evaluateChain ext (TlsChain.captured chain path) ⟨target.host, target.required⟩ policy
      options = some evaluation) : result.anchor = evaluation.anchor := by
  simp only [checkPath, he] at h
  cases h
  rfl

/-- The probe returns whenever the bundle parses: what its targets return, in order. -/
lemma runTls_eq_mapM (profile : Profile) (capturer : TlsCapture) (env : Environment) (now : ℤ)
    (hroots : certificateIndex ext publicRootPems = some roots) :
    ∃ results, (tlsTargets profile.endpoints).mapM (checkTarget ext capturer profile.tls
        (discoverEnvProxy ext env) ⟨roots, now⟩) = some results ∧
      runTls ext profile publicRootPems capturer env now =
        some (results.flatMap Prod.fst, results.flatMap Prod.snd) := by
  have hall : ∀ target ∈ tlsTargets profile.endpoints, (checkTarget ext capturer profile.tls
      (discoverEnvProxy ext env) ⟨roots, now⟩ target).isSome := by
    intro target _
    obtain ⟨_, _, -, -, h⟩ := @checkTarget_eq_some ext capturer target
      (discoverEnvProxy ext env) profile.tls ⟨roots, now⟩
    rw [h]
    rfl
  obtain ⟨results, hresults⟩ := Option.isSome_iff_exists.mp (OptionMap.mapM_isSome_iff.mpr hall)
  refine ⟨results, hresults, ?_⟩
  unfold runTls
  by_cases hnone : (tlsTargets profile.endpoints).isEmpty = true
  · rw [List.isEmpty_iff.mp hnone, List.mapM_nil] at hresults
    cases hresults
    exact if_pos hnone
  · simp only [hroots, hresults, if_neg hnone, Option.bind_eq_bind, Option.bind_some]
    rfl

/-- It pushes the anchor of every chain it captured. -/
theorem runTls_eq_some (profile : Profile) (capturer : TlsCapture) (env : Environment) (now : ℤ)
    (hroots : certificateIndex ext publicRootPems = some roots) :
    ∃ findings anchors,
      runTls ext profile publicRootPems capturer env now = some (findings, anchors) ∧
      ∀ target capture evaluation anchor, Captured ext profile capturer env target capture →
        evaluateChain ext capture ⟨target.host, target.required⟩ profile.tls ⟨roots, now⟩ =
          some evaluation → evaluation.anchor = some anchor → anchor ∈ anchors := by
  obtain ⟨results, hresults, hrun⟩ := runTls_eq_mapM profile capturer env now hroots
  refine ⟨results.flatMap Prod.fst, results.flatMap Prod.snd, hrun, ?_⟩
  intro target capture evaluation anchor hcaptured he ha
  obtain ⟨direct, proxied, hdirect, hproxied, hcheck⟩ := @checkTarget_eq_some ext
    capturer target (discoverEnvProxy ext env) profile.tls ⟨roots, now⟩
  have hmem : target ∈ tlsTargets profile.endpoints ∧
      anchor ∈ direct.anchor.toList ++ proxied.anchor.toList := by
    cases hcaptured with
    | direct htarget hok =>
      rw [hok] at hdirect
      refine ⟨htarget, List.mem_append_left _ ?_⟩
      rw [anchor_of_checkPath hdirect he, ha]
      simp
    | proxy htarget henv hok =>
      rw [henv, Option.mapM_some, hok] at hproxied
      obtain ⟨viaProxy, hvia, rfl⟩ := Option.map_eq_some_iff.mp hproxied
      obtain ⟨result, hresult, rfl⟩ := Option.map_eq_some_iff.mp hvia
      refine ⟨htarget, List.mem_append_right _ ?_⟩
      rw [Option.getD_some, anchor_of_checkPath hresult he, ha]
      simp
  exact List.mem_flatMap.mpr ⟨_, (OptionMap.mem_of_mapM_eq_some hresults _).mpr
    ⟨target, hmem.1, hcheck⟩, hmem.2⟩

end Run
end Portcall.Tls
