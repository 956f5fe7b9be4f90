import Portcall.Proxy.Routes

/-! Where every declared endpoint of a run ends up: exempted, sent direct, undecided, or among
the destinations of a CONNECT finding. -/
namespace Portcall.Proxy

/-- The findings that answer for the whole run. -/
def runWideIds : List String :=
  ["proxy.pac-fetch-failed", "proxy.wpad-unusable", "proxy.none-configured"]

/-- The findings a cluster of CONNECT outcomes can become. -/
def connectIds : List String :=
  ["proxy.reachable", "proxy.auth-required", "proxy.connect-rejected", "proxy.connect-dns-failure",
    "proxy.connect-refused", "proxy.connect-unreachable", "proxy.connect-timeout",
    "proxy.connect-reset", "proxy.connect-unclassified", "proxy.aborted"]

/-- Some finding answers for the whole run. -/
def RunWide (findings : List Finding) : Prop := ∃ finding ∈ findings, finding.id ∈ runWideIds

/-- Every endpoint is in exactly one place: a bypass finding, a direct finding, an inconclusive
finding, or the destinations of one CONNECT finding. -/
def Accounts (endpoints : List Endpoint) (findings : List Finding) : Prop :=
  ∃ bypassed direct inconclusive routed : List Endpoint,
    (bypassed ++ (direct ++ (inconclusive ++ routed))).Perm endpoints ∧
    withIds ["proxy.no-proxy-bypass"] findings = bypassed.map noProxyBypassFinding ∧
    withIds ["proxy.pac-direct"] findings = direct.map pacDirectFinding ∧
    (withIds ["proxy.pac-inconclusive"] findings).map (fun finding => finding.values "endpoint") =
      inconclusive.map (fun endpoint => [endpoint.host]) ∧
    ((withIds connectIds findings).flatMap destinations).Perm
      (routed.map fun endpoint => printed (targetOf endpoint))

/-- Where the environment decides, the value in effect for every endpoint that is not exempted
is the URL of a proxy. -/
def EnvProxiesParse (ext : Externals) (context : ProxyContext) (profile : Profile) : Prop :=
  profile.pacUrl = none → envProxyConfigured ext context = true →
    ∀ endpoint ∈ routedEndpoints ext context profile, (envProxyFor ext context endpoint).isSome

section Ids
variable {ext : Externals} {context : ProxyContext} {profile : Profile}

lemma id_connectVerdictFinding (cluster : ProxyCluster) :
    (connectVerdictFinding cluster).id ∈ connectIds := by
  unfold connectVerdictFinding connectIds
  split <;> simp

lemma id_of_mem_probeRoutes {connect : ProxyConnect} {routes : List ProxyRoute} {finding : Finding}
    (h : finding ∈ probeRoutes ext connect routes) : finding.id ∈ connectIds := by
  obtain ⟨cluster, -, rfl⟩ := List.mem_map.mp h
  exact id_connectVerdictFinding cluster

lemma id_of_mem_syntaxFindings {finding : Finding}
    (h : finding ∈ syntaxFindings ext context profile) : finding.id = "proxy.no-proxy-syntax" := by
  obtain ⟨entry, -, rfl⟩ := List.mem_map.mp h
  rfl

end Ids

/-- The parts of a leg's report, under the ids that tell them apart. -/
structure LegReport (bypassed direct : List Endpoint) (inconclusive connect findings : List Finding) :
    Prop where
  bypassed : withIds ["proxy.no-proxy-bypass"] findings = bypassed.map noProxyBypassFinding
  direct : withIds ["proxy.pac-direct"] findings = direct.map pacDirectFinding
  inconclusive : withIds ["proxy.pac-inconclusive"] findings = inconclusive
  connect : withIds connectIds findings = connect
  notRunWide : ¬RunWide findings

lemma withIds_of_id_eq {ids : List String} {id : String} {findings : List Finding}
    (h : ∀ finding ∈ findings, finding.id = id) :
    withIds ids findings = if id ∈ ids then findings else [] := by
  split_ifs with hid
  · exact withIds_eq_self fun finding hm => h finding hm ▸ hid
  · exact withIds_eq_nil fun finding hm => h finding hm ▸ hid

section Parts
variable {syntaxPart inconclusive connect : List Finding}

/-- What a choice of ids keeps of a leg's report: every part whole or not at all, but the last. -/
lemma withIds_parts (bypassed direct : List Endpoint)
    (hissues : ∀ finding ∈ syntaxPart, finding.id = "proxy.no-proxy-syntax")
    (hinconclusive : ∀ finding ∈ inconclusive, finding.id = "proxy.pac-inconclusive")
    (ids : List String) :
    withIds ids (syntaxPart ++ (bypassed.map noProxyBypassFinding ++
        direct.map pacDirectFinding ++ inconclusive ++ connect)) =
      (if "proxy.no-proxy-syntax" ∈ ids then syntaxPart else []) ++
        ((if "proxy.no-proxy-bypass" ∈ ids then bypassed.map noProxyBypassFinding else []) ++
          (if "proxy.pac-direct" ∈ ids then direct.map pacDirectFinding else []) ++
          (if "proxy.pac-inconclusive" ∈ ids then inconclusive else []) ++
          withIds ids connect) := by
  have hbypassed : ∀ finding ∈ bypassed.map noProxyBypassFinding,
      finding.id = "proxy.no-proxy-bypass" := by
    intro finding hm
    obtain ⟨endpoint, -, rfl⟩ := List.mem_map.mp hm
    rfl
  have hdirect : ∀ finding ∈ direct.map pacDirectFinding, finding.id = "proxy.pac-direct" := by
    intro finding hm
    obtain ⟨endpoint, -, rfl⟩ := List.mem_map.mp hm
    rfl
  simp only [withIds_append, withIds_of_id_eq hissues, withIds_of_id_eq hbypassed,
    withIds_of_id_eq hdirect, withIds_of_id_eq hinconclusive]

/-- The ids keep the parts of a leg's report apart. -/
theorem legReport (bypassed direct : List Endpoint)
    (hissues : ∀ finding ∈ syntaxPart, finding.id = "proxy.no-proxy-syntax")
    (hinconclusive : ∀ finding ∈ inconclusive, finding.id = "proxy.pac-inconclusive")
    (hconnect : ∀ finding ∈ connect, finding.id ∈ connectIds) :
    LegReport bypassed direct inconclusive connect
      (syntaxPart ++ (bypassed.map noProxyBypassFinding ++ direct.map pacDirectFinding ++
        inconclusive ++ connect)) := by
  have hparts := @withIds_parts _ _ connect bypassed direct hissues hinconclusive
  have hnot : ∀ ids : List String, (∀ id ∈ ids, id ∉ connectIds) → withIds ids connect = [] :=
    fun ids hids => withIds_eq_nil fun finding hm hid => hids _ hid (hconnect finding hm)
  refine ⟨?_, ?_, ?_, ?_, ?_⟩
  · rw [hparts, hnot ["proxy.no-proxy-bypass"] (by decide)]
    simp
  · rw [hparts, hnot ["proxy.pac-direct"] (by decide)]
    simp
  · rw [hparts, hnot ["proxy.pac-inconclusive"] (by decide)]
    simp
  · rw [hparts, withIds_eq_self hconnect]
    simp [connectIds]
  · rintro ⟨finding, hm, hid⟩
    have hmem : finding ∈ withIds runWideIds _ := List.mem_filter.mpr ⟨hm, decide_eq_true hid⟩
    rw [hparts, hnot runWideIds (by decide)] at hmem
    simp [runWideIds] at hmem

end Parts

section Legs
variable {ext : Externals} {context : ProxyContext} {profile : Profile}

lemma bypassed_append_routed :
    (bypassedEndpoints ext context profile ++ routedEndpoints ext context profile).Perm
      profile.endpoints := List.filter_append_perm _ _

/-- A verdict is direct, or undecided, or a proxy. -/
def isDirect : PacVerdict → Bool
  | .direct => true
  | _ => false

def isInconclusive : PacVerdict → Bool
  | .unresolved | .error => true
  | _ => false

/-- The endpoints a script was asked about, by what it answered. -/
theorem perm_of_verdicts (verdict : Endpoint → PacVerdict) (endpoints : List Endpoint) :
    (endpoints.filter (fun endpoint => isDirect (verdict endpoint)) ++
      (endpoints.filter (fun endpoint => isInconclusive (verdict endpoint)) ++
        (endpoints.filterMap fun endpoint =>
          proxyPair? endpoint (verdict endpoint)).map Prod.snd)).Perm endpoints := by
  induction endpoints with
  | nil => exact List.Perm.refl _
  | cons endpoint endpoints ih =>
    cases hv : verdict endpoint with
    | direct => simpa [isDirect, isInconclusive, proxyPair?, hv] using ih
    | unresolved =>
      simpa [isDirect, isInconclusive, proxyPair?, hv] using List.perm_middle.trans (ih.cons _)
    | error =>
      simpa [isDirect, isInconclusive, proxyPair?, hv] using List.perm_middle.trans (ih.cons _)
    | proxy via =>
      simp only [isDirect, isInconclusive, proxyPair?, hv, List.filter_cons, List.filterMap_cons,
        List.map_cons, Bool.false_eq_true, if_false]
      rw [← List.append_assoc]
      refine List.perm_middle.trans (List.Perm.cons _ ?_)
      rw [List.append_assoc]
      exact ih

/-- A pair made for an endpoint keeps the endpoint. -/
lemma map_snd_filterMap_sublist {f : Endpoint → Option (HostPort × Endpoint)}
    (h : ∀ endpoint pair, f endpoint = some pair → pair.2 = endpoint) (endpoints : List Endpoint) :
    ((endpoints.filterMap f).map Prod.snd).Sublist endpoints := by
  induction endpoints with
  | nil => exact List.Sublist.slnil
  | cons endpoint endpoints ih =>
    rw [List.filterMap_cons]
    cases hf : f endpoint with
    | none => exact ih.cons _
    | some pair =>
      rw [List.map_cons, h endpoint pair hf]
      exact ih.cons_cons _

lemma snd_of_proxyPair? {endpoint : Endpoint} {verdict : PacVerdict} {pair : HostPort × Endpoint}
    (h : proxyPair? endpoint verdict = some pair) : pair.2 = endpoint := by
  cases verdict <;> cases h
  rfl

lemma directFindings_eq (verdict : Endpoint → PacVerdict) (endpoints : List Endpoint) :
    (endpoints.filterMap fun endpoint => directFinding? endpoint (verdict endpoint)) =
      (endpoints.filter fun endpoint => isDirect (verdict endpoint)).map pacDirectFinding := by
  induction endpoints with
  | nil => rfl
  | cons endpoint endpoints ih =>
    rw [List.filterMap_cons, List.filter_cons]
    cases hv : verdict endpoint with
    | direct => exact congrArg (pacDirectFinding endpoint :: ·) ih
    | proxy via => exact ih
    | unresolved => exact ih
    | error => exact ih

lemma values_inconclusiveFindings (verdict : Endpoint → PacVerdict) (endpoints : List Endpoint) :
    (endpoints.filterMap fun endpoint => inconclusiveFinding? endpoint (verdict endpoint)).map
        (fun finding => finding.values "endpoint") =
      (endpoints.filter fun endpoint => isInconclusive (verdict endpoint)).map
        fun endpoint => [endpoint.host] := by
  induction endpoints with
  | nil => rfl
  | cons endpoint endpoints ih =>
    rw [List.filterMap_cons, List.filter_cons]
    cases hv : verdict endpoint with
    | direct => exact ih
    | proxy via => exact ih
    | unresolved => exact congrArg ([endpoint.host] :: ·) ih
    | error => exact congrArg ([endpoint.host] :: ·) ih

lemma id_of_mem_inconclusiveFindings {verdict : Endpoint → PacVerdict} {endpoints : List Endpoint}
    {finding : Finding} (h : finding ∈ endpoints.filterMap fun endpoint =>
      inconclusiveFinding? endpoint (verdict endpoint)) :
    finding.id = "proxy.pac-inconclusive" := by
  obtain ⟨endpoint, -, hf⟩ := List.mem_filterMap.mp h
  cases hv : verdict endpoint <;> rw [hv] at hf <;> cases hf <;> rfl

/-- A leg that obtained a script accounts for every endpoint. -/
theorem accounts_pacLeg (hsep : Separate ext profile.endpoints) (scriptText : String) :
    Accounts profile.endpoints
      (syntaxFindings ext context profile ++ pacLegFindings ext context profile scriptText) := by
  have hperm := perm_of_verdicts (pacVerdict context scriptText)
    (routedEndpoints ext context profile)
  have hpairs : Separate ext (((routedEndpoints ext context profile).filterMap fun endpoint =>
      proxyPair? endpoint (pacVerdict context scriptText endpoint)).map Prod.snd) :=
    hsep.sublist ((map_snd_filterMap_sublist (fun _ _ => snd_of_proxyPair?) _).trans
      List.filter_sublist)
  have hreport := legReport (bypassedEndpoints ext context profile)
    ((routedEndpoints ext context profile).filter fun endpoint =>
      isDirect (pacVerdict context scriptText endpoint))
    (fun _ hm => @id_of_mem_syntaxFindings ext context profile _ hm)
    (fun _ hm => @id_of_mem_inconclusiveFindings (pacVerdict context scriptText)
      (routedEndpoints ext context profile) _ hm)
    (fun _ hm => @id_of_mem_probeRoutes ext context.connect
      (evaluatePacPerEndpoint ext context scriptText (routedEndpoints ext context profile)).routes
      _ hm)
  rw [← directFindings_eq] at hreport
  refine ⟨_, _, _, _, (hperm.append_left _).trans bypassed_append_routed, hreport.bypassed,
    hreport.direct, ?_, ?_⟩
  · exact (congrArg _ hreport.inconclusive).trans (values_inconclusiveFindings _ _)
  · have hconnect : withIds connectIds (syntaxFindings ext context profile ++
        pacLegFindings ext context profile scriptText) = probeRoutes ext context.connect
          (evaluatePacPerEndpoint ext context scriptText
            (routedEndpoints ext context profile)).routes := hreport.connect
    rw [hconnect]
    refine (destinations_probeRoutes _ _).trans (List.Perm.of_eq ?_)
    rw [evaluatePacPerEndpoint, addRoutes_eq_map hpairs, List.map_map, List.map_map]
    rfl

/-- The pairs of the environment's leg. -/
def envPairs (ext : Externals) (context : ProxyContext) (endpoints : List Endpoint) :
    List (HostPort × Endpoint) :=
  endpoints.filterMap fun endpoint =>
    (envProxyFor ext context endpoint).map fun proxy => (proxy, endpoint)

lemma envPairs_snd_sublist (endpoints : List Endpoint) :
    ((envPairs ext context endpoints).map Prod.snd).Sublist endpoints := by
  refine map_snd_filterMap_sublist (fun endpoint pair h => ?_) endpoints
  obtain ⟨proxy, -, rfl⟩ := Option.map_eq_some_iff.mp h
  rfl

/-- No endpoint is dropped exactly when each has a proxy. -/
lemma length_envPairs_eq_iff (endpoints : List Endpoint) :
    (envPairs ext context endpoints).length = endpoints.length ↔
      ∀ endpoint ∈ endpoints, (envProxyFor ext context endpoint).isSome := by
  rw [envPairs, List.length_filterMap_eq_countP, List.countP_eq_length]
  simp

lemma envLeg_report : LegReport (bypassedEndpoints ext context profile) [] []
    (probeRoutes ext context.connect (envRoutes ext context (routedEndpoints ext context profile)))
    (syntaxFindings ext context profile ++ envLegFindings ext context profile) := by
  have hreport := legReport (bypassedEndpoints ext context profile) []
    (fun _ hm => @id_of_mem_syntaxFindings ext context profile _ hm)
    (fun (_ : Finding) (hm : _ ∈ []) => absurd hm (List.not_mem_nil))
    (fun _ hm => @id_of_mem_probeRoutes ext context.connect
      (envRoutes ext context (routedEndpoints ext context profile)) _ hm)
  simpa [envLegFindings] using hreport

/-- Where every endpoint is accounted for, the parts of the report are as many as the endpoints. -/
lemma LegReport.length_eq {bypassed direct endpoints : List Endpoint}
    {inconclusive connect findings : List Finding}
    (hreport : LegReport bypassed direct inconclusive connect findings)
    (h : Accounts endpoints findings) :
    bypassed.length + direct.length + inconclusive.length +
      (connect.flatMap destinations).length = endpoints.length := by
  obtain ⟨bypassed', direct', inconclusive', routed, hperm, hb, hd, hi, hr⟩ := h
  rw [hreport.bypassed] at hb
  rw [hreport.direct] at hd
  rw [hreport.inconclusive] at hi
  rw [hreport.connect] at hr
  have hb := congrArg List.length hb
  have hd := congrArg List.length hd
  have hi := congrArg List.length hi
  have hr := hr.length_eq
  have hperm := hperm.length_eq
  simp only [List.length_map, List.length_append] at hb hd hi hr hperm
  omega

lemma envRoutes_eq_map (hsep : Separate ext profile.endpoints) :
    envRoutes ext context (routedEndpoints ext context profile) =
      (envPairs ext context (routedEndpoints ext context profile)).map fun pair =>
        ⟨pair.1, targetOf pair.2, pair.2.required⟩ :=
  addRoutes_eq_map (hsep.sublist ((envPairs_snd_sublist _).trans List.filter_sublist))

/-- The environment's leg accounts for every endpoint exactly when the value in effect for each
one that is not exempted is the URL of a proxy. -/
theorem accounts_envLeg_iff (hsep : Separate ext profile.endpoints) :
    Accounts profile.endpoints
        (syntaxFindings ext context profile ++ envLegFindings ext context profile) ↔
      ∀ endpoint ∈ routedEndpoints ext context profile,
        (envProxyFor ext context endpoint).isSome := by
  have hreport := @envLeg_report ext context profile
  have hdest := @destinations_probeRoutes ext context.connect
    (envRoutes ext context (routedEndpoints ext context profile))
  rw [envRoutes_eq_map hsep, List.map_map] at hdest
  rw [← length_envPairs_eq_iff]
  constructor
  · intro h
    have hall := hreport.length_eq h
    have hlen := (@bypassed_append_routed ext context profile).length_eq
    rw [envRoutes_eq_map hsep, hdest.length_eq, List.length_map] at hall
    simp only [List.length_nil] at hall
    rw [List.length_append] at hlen
    omega
  · intro hall
    have hrouted : (envPairs ext context (routedEndpoints ext context profile)).map Prod.snd =
        routedEndpoints ext context profile :=
      (envPairs_snd_sublist _).eq_of_length (by rw [List.length_map, hall])
    refine ⟨_, [], [], routedEndpoints ext context profile, bypassed_append_routed,
      hreport.bypassed, hreport.direct, ?_, ?_⟩
    · rw [hreport.inconclusive]
      rfl
    · rw [hreport.connect, envRoutes_eq_map hsep]
      refine hdest.trans (List.Perm.of_eq ?_)
      conv_rhs => rw [← hrouted]
      rw [List.map_map]
      rfl

end Legs

lemma discoveryLeg_eq_env_iff {ext : Externals} {context : ProxyContext} {profile : Profile} :
    discoveryLeg ext context profile = .env ↔
      profile.pacUrl = none ∧ envProxyConfigured ext context = true := by
  unfold discoveryLeg
  cases profile.pacUrl with
  | some url => cases hf : context.fetcher url <;> simp [hf]
  | none =>
    by_cases henv : envProxyConfigured ext context = true
    · simp [henv]
    · cases context.fetcher wpadUrl <;> simp [henv]

/-- A run accounts for every declared endpoint, or says why it cannot for the whole run, exactly
when no value the environment gives for an endpoint fails to be the URL of a proxy. -/
theorem runProxy_accounts_iff (ext : Externals) (loaded : LoadedProfile ext)
    (context : ProxyContext) :
    RunWide (runProxy ext context loaded.profile) ∨
        Accounts loaded.profile.endpoints (runProxy ext context loaded.profile) ↔
      EnvProxiesParse ext context loaded.profile := by
  have hsep := separate_of_loaded loaded
  have hwide : ∀ finding, finding.id ∈ runWideIds →
      RunWide (syntaxFindings ext context loaded.profile ++ [finding]) :=
    fun finding hid => ⟨finding, by simp, hid⟩
  have hcondition : EnvProxiesParse ext context loaded.profile ↔
      (discoveryLeg ext context loaded.profile = .env →
        ∀ endpoint ∈ routedEndpoints ext context loaded.profile,
          (envProxyFor ext context endpoint).isSome) := by
    rw [discoveryLeg_eq_env_iff, and_imp]
    rfl
  rw [runProxy, if_neg (by simp [loaded.endpoints_ne_nil]), hcondition]
  cases discoveryLeg ext context loaded.profile with
  | pacFetchFailed url outcome =>
    exact iff_of_true (Or.inl (hwide _ (by simp [pacFetchFailedFinding, runWideIds]))) nofun
  | script scriptText => exact iff_of_true (Or.inr (accounts_pacLeg hsep scriptText)) nofun
  | env =>
    rw [legFindings, or_iff_right envLeg_report.notRunWide, accounts_envLeg_iff hsep]
    simp
  | wpadFailed outcome =>
    refine iff_of_true (Or.inl ?_) nofun
    rw [legFindings]
    split_ifs
    · exact hwide _ (by simp [noneConfiguredFinding, runWideIds])
    · exact hwide _ (by simp [wpadUnusableFinding, runWideIds])

section Dropped

/-- The URL parser on a text it throws on; nothing else is asked of it here. -/
def throwingExternals : Externals where
  x509 _ := none
  x509Der _ := none
  parseUrl _ := none
  pathJoin _ parts := Text.join "/" parts
  unicodeLower := id

/-- A profile of one endpoint. -/
def oneEndpoint : LoadedProfile throwingExternals where
  id := "one"
  source := .file
  profile :=
    { name := "one"
      endpoints := [⟨"api.example.com", 443, "api", true⟩]
      runtimes := [.node] }
  schema := by decide
  distinct := by decide

/-- A machine where `HTTPS_PROXY` is set to a scheme and nothing after it. -/
def schemeOnly : ProxyContext where
  env name := if name = "HTTPS_PROXY" then some "http://" else none
  resolver _ := .ok ["192.0.2.1"] 3
  fetcher _ := .failed ⟨.dns, some "ENOTFOUND", none, 2⟩
  connect _ _ := ⟨.ok 200 {}, none⟩
  sandbox _ := .direct
  myAddress := "127.0.0.1"
  now _ := 0

/-- That run reports nothing at all, and so accounts for nothing. -/
theorem dropped_endpoint :
    runProxy throwingExternals schemeOnly oneEndpoint.profile = [] ∧
      ¬(RunWide (runProxy throwingExternals schemeOnly oneEndpoint.profile) ∨
        Accounts oneEndpoint.profile.endpoints
          (runProxy throwingExternals schemeOnly oneEndpoint.profile)) := by
  have hnone : runProxy throwingExternals schemeOnly oneEndpoint.profile = [] := by decide
  refine ⟨hnone, ?_⟩
  rw [hnone]
  rintro (⟨finding, hm, -⟩ | ⟨bypassed, direct, inconclusive, routed, hperm, hb, hd, hi, hr⟩)
  · simp at hm
  · have hlen := hperm.length_eq
    have hb := congrArg List.length hb
    have hd := congrArg List.length hd
    have hi := congrArg List.length hi
    have hr := hr.length_eq
    simp only [withIds_nil, List.flatMap_nil, List.map_nil, List.length_nil, List.length_map,
      List.length_append, oneEndpoint, List.length_cons] at hlen hb hd hi hr
    omega

end Dropped
end Portcall.Proxy
