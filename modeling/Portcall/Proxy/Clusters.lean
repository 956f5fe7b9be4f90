import Portcall.Proxy.Routes

/-! What a cluster says of each of its routes: the cluster key tells verdicts apart, so the finding
of a cluster is the finding of every attempt in it. -/
namespace Portcall.Proxy
variable {ext : Externals}

/-- What is relied on in the code outside: lower-casing puts no delimiter into a text, and a
parsed URL has no bar in its hostname. -/
structure DelimiterSafe (ext : Externals) : Prop where
  lower : ∀ (text : String) (c : Char), c = ':' ∨ c = '|' →
    c ∈ (ext.unicodeLower text).toList → c ∈ text.toList
  hostname : ∀ (text : String) (url : Url), ext.parseUrl text = some url →
    '|' ∉ url.hostname.toList

/-- A host a proxy can have: a script names none with a colon, and no parsed URL has a bar. -/
def IsProxyHost (host : String) : Prop := ':' ∉ host.toList ∨ '|' ∉ host.toList

instance (host : String) : Decidable (IsProxyHost host) := inferInstanceAs (Decidable (_ ∨ _))

section Address
variable {host host' rest rest' : List Char} {port port' : ℕ}

/-- No digit is a colon, so the last one ends the host. -/
lemma address_inj (h : host ++ ':' :: (toString port).toList =
    host' ++ ':' :: (toString port').toList) : host = host' ∧ port = port' := by
  have hcolon : ∀ n : ℕ, ':' ∉ (toString n).toList := fun n => Text.not_mem_toString n (by decide)
  have hlast := congrArg (Text.splitLast ':') h
  rw [Text.splitLast_append _ (hcolon _), Text.splitLast_append _ (hcolon _), Option.some_inj,
    Prod.mk.injEq] at hlast
  exact ⟨hlast.1, Text.toString_nat_injective (String.toList_injective hlast.2)⟩

/-- An address without a bar. -/
lemma bar_not_mem_address (port : ℕ) (h : '|' ∉ host) :
    '|' ∉ host ++ ':' :: (toString port).toList := by
  rw [List.mem_append, List.mem_cons, not_or, not_or]
  exact ⟨h, by decide, Text.not_mem_toString port (by decide)⟩

/-- A bar in the one host and none in the other is seen in the key. -/
lemma bar_mem_of_address_append_eq (hcolon : ':' ∉ host) (hbar : '|' ∈ host)
    (h : host ++ ':' :: ((toString port).toList ++ '|' :: rest) =
      host' ++ ':' :: ((toString port').toList ++ '|' :: rest')) : '|' ∈ host' := by
  by_contra hbar'
  obtain ⟨before, after, rfl, hbefore⟩ := List.eq_append_cons_of_mem hbar
  obtain ⟨rfl, -⟩ := Text.append_cons_inj hbefore (bar_not_mem_address port' hbar')
    (by simpa only [List.append_assoc, List.cons_append] using h)
  exact hcolon (by simp)

/-- An address is found again at the front of a key if one of the two delimiters is in neither
host. -/
lemma address_append_inj (hhost : ':' ∉ host ∨ '|' ∉ host) (hhost' : ':' ∉ host' ∨ '|' ∉ host')
    (h : host ++ ':' :: ((toString port).toList ++ '|' :: rest) =
      host' ++ ':' :: ((toString port').toList ++ '|' :: rest')) :
    host = host' ∧ port = port' ∧ rest = rest' := by
  have hdigits : ∀ n : ℕ, '|' ∉ (toString n).toList := fun n => Text.not_mem_toString n (by decide)
  by_cases hbar : '|' ∈ host
  · have hbar' := bar_mem_of_address_append_eq (hhost.resolve_right (not_not_intro hbar)) hbar h
    obtain ⟨rfl, hrest⟩ := Text.append_cons_inj (hhost.resolve_right (not_not_intro hbar))
      (hhost'.resolve_right (not_not_intro hbar')) h
    obtain ⟨hport, rfl⟩ := Text.append_cons_inj (hdigits _) (hdigits _) hrest
    exact ⟨rfl, Text.toString_nat_injective (String.toList_injective hport), rfl⟩
  · have hbar' : '|' ∉ host' := fun hm =>
      hbar (bar_mem_of_address_append_eq (hhost'.resolve_right (not_not_intro hm)) hm h.symm)
    obtain ⟨haddress, rfl⟩ := Text.append_cons_inj (bar_not_mem_address port hbar)
      (bar_not_mem_address port' hbar') (by simpa only [List.append_assoc, List.cons_append] using h)
    obtain ⟨rfl, rfl⟩ := address_inj haddress
    exact ⟨rfl, rfl, rfl⟩

end Address

section Keys

lemma DelimiterSafe.not_mem_toLowerCase (hsafe : DelimiterSafe ext) {text : String} {c : Char}
    (hc : c = ':' ∨ c = '|') (h : c ∉ text.toList) : c ∉ (ext.toLowerCase text).toList := by
  unfold Externals.toLowerCase
  split_ifs
  · rw [String.toList_ofList]
    refine Text.not_mem_map_toLower ?_ h
    rcases hc with rfl | rfl <;> decide
  · exact fun hm => h (hsafe.lower text c hc hm)

/-- Every proxy of these routes has a host without a colon, or every one a host without a bar. -/
def HostsSafe (routes : List ProxyRoute) : Prop :=
  (∀ route ∈ routes, ':' ∉ route.proxy.host.toList) ∨
    ∀ route ∈ routes, '|' ∉ route.proxy.host.toList

lemma bar_not_mem_text (verdict : RouteVerdict) : '|' ∉ verdict.text.toList := by
  cases verdict with
  | aborted => decide
  | measured verdict => cases verdict <;> decide

lemma text_injective : Function.Injective RouteVerdict.text := by
  intro left right h
  cases left with
  | aborted =>
    cases right with
    | aborted => rfl
    | measured right => cases right <;> exact absurd h (by decide)
  | measured left =>
    cases right with
    | aborted => cases left <;> exact absurd h (by decide)
    | measured right =>
      cases left <;> cases right <;> first | rfl | exact absurd h (by decide)

lemma toList_clusterKey (outcome : RouteOutcome) :
    (clusterKey ext outcome).toList =
      (ext.toLowerCase outcome.route.proxy.host).toList ++ ':' ::
        ((toString outcome.route.proxy.port).toList ++ '|' ::
          (outcome.verdict.text.toList ++ '|' ::
            (outcome.code.toList ++ '|' :: outcome.scheme.text.toList))) := by
  simp [clusterKey, Text.join, targetKey]

/-- Outcomes under one key have one verdict. -/
theorem verdict_eq_of_clusterKey_eq (hsafe : DelimiterSafe ext) {routes : List ProxyRoute}
    (hhosts : HostsSafe routes) {left right : RouteOutcome} (hl : left.route ∈ routes)
    (hr : right.route ∈ routes) (h : clusterKey ext left = clusterKey ext right) :
    left.verdict = right.verdict := by
  have hlist := congrArg String.toList h
  rw [toList_clusterKey, toList_clusterKey] at hlist
  have hhost : ∀ outcome : RouteOutcome, outcome.route ∈ routes →
      IsProxyHost (ext.toLowerCase outcome.route.proxy.host) := fun outcome hm => hhosts.imp
    (fun hcolon => hsafe.not_mem_toLowerCase (Or.inl rfl) (hcolon _ hm))
    fun hbar => hsafe.not_mem_toLowerCase (Or.inr rfl) (hbar _ hm)
  obtain ⟨-, -, hrest⟩ := address_append_inj (hhost left hl) (hhost right hr) hlist
  exact text_injective (String.toList_injective
    (Text.append_cons_inj (bar_not_mem_text _) (bar_not_mem_text _) hrest).1)

end Keys

section Cluster
variable {connect : ProxyConnect} {routes : List ProxyRoute} {members : ProxyCluster}

/-- Every route's destination stands once among the clusters. -/
lemma flatMap_targets_cluster (outcomes : List RouteOutcome) :
    ((cluster ext outcomes).flatMap ProxyCluster.targets).Perm
      (outcomes.map fun outcome => outcome.route.target) :=
  InsertionMap.flatMap_values_group _ _ _ ProxyCluster.targets
    (fun outcome : RouteOutcome => outcome.route.target) (fun _ => rfl) (fun _ _ => rfl) _

lemma mem_targets_iff {outcomes : List RouteOutcome} {target : HostPort} :
    (∃ members ∈ cluster ext outcomes, target ∈ members.targets) ↔
      ∃ outcome ∈ outcomes, outcome.route.target = target := by
  have hmem := (@flatMap_targets_cluster ext outcomes).mem_iff (a := target)
  rwa [List.mem_flatMap, List.mem_map] at hmem

/-- A cluster is the outcomes under one key: it has their verdict, and lists their targets. -/
lemma outcomes_of_mem_cluster {outcomes : List RouteOutcome} (h : members ∈ cluster ext outcomes) :
    ∃ first ∈ outcomes, members.verdict = first.verdict ∧ first.route.target ∈ members.targets ∧
      ∀ target ∈ members.targets, ∃ outcome ∈ outcomes,
        outcome.route.target = target ∧ clusterKey ext outcome = clusterKey ext first := by
  obtain ⟨first, rest, hsub, hkeys, rfl⟩ := InsertionMap.exists_of_mem_values_group _ _ _ h
  have hfold : ∀ (rest : List RouteOutcome) (start : ProxyCluster),
      (rest.foldl (fun existing outcome =>
          { existing with
            targets := existing.targets ++ [outcome.route.target]
            required := existing.required || outcome.route.required }) start).verdict =
          start.verdict ∧
        (rest.foldl (fun existing outcome =>
          { existing with
            targets := existing.targets ++ [outcome.route.target]
            required := existing.required || outcome.route.required }) start).targets =
          start.targets ++ rest.map fun outcome => outcome.route.target := by
    intro rest
    induction rest with
    | nil => simp
    | cons outcome rest ih =>
      intro start
      rw [List.foldl_cons, (ih _).1, (ih _).2]
      simp
  have htargets := (hfold rest ⟨first.route.proxy, [first.route.target], first.route.required,
    first.verdict, first.code, first.scheme⟩).2
  refine ⟨first, hsub.subset List.mem_cons_self, (hfold rest _).1, ?_, fun target ht => ?_⟩
  · rw [htargets]
    exact List.mem_cons_self
  rw [htargets, List.singleton_append, List.mem_cons, List.mem_map] at ht
  rcases ht with rfl | ⟨outcome, hm, rfl⟩
  · exact ⟨first, hsub.subset List.mem_cons_self, rfl, rfl⟩
  · exact ⟨outcome, hsub.subset (List.mem_cons_of_mem _ hm), rfl, hkeys outcome hm⟩

@[simp] lemma route_probeRoute (route : ProxyRoute) : (probeRoute connect route).route = route := by
  unfold probeRoute
  dsimp only
  split_ifs <;> rfl

/-- The cluster that lists a route's target has the verdict of the route's own attempt. -/
theorem verdict_of_mem_targets (hsafe : DelimiterSafe ext) (hhosts : HostsSafe routes)
    (hnodup : (routes.map ProxyRoute.target).Nodup) {route : ProxyRoute} (hroute : route ∈ routes)
    (hmembers : members ∈ cluster ext (routes.map (probeRoute connect)))
    (htarget : route.target ∈ members.targets) :
    members.verdict = (probeRoute connect route).verdict := by
  obtain ⟨first, hfirst, hverdict, -, hall⟩ := outcomes_of_mem_cluster hmembers
  obtain ⟨outcome, houtcome, ht, hkey⟩ := hall _ htarget
  obtain ⟨firstRoute, hf, rfl⟩ := List.mem_map.mp hfirst
  obtain ⟨other, ho, rfl⟩ := List.mem_map.mp houtcome
  rw [route_probeRoute] at ht
  have hsame : other = route := List.inj_on_of_nodup_map hnodup ho hroute ht
  subst hsame
  rw [hverdict]
  exact (verdict_eq_of_clusterKey_eq hsafe hhosts (by rwa [route_probeRoute])
    (by rwa [route_probeRoute]) hkey).symm

/-- An attempt that decides nothing: the run ended it, or no class fits it. -/
def Undecided (attempt : ProxyConnectAttempt) : Prop :=
  attempt.endedByRun = true ∨ classifyConnect attempt = .unclassified

lemma severity_connectVerdictFinding_iff (members : ProxyCluster) :
    (connectVerdictFinding members).severity = .unknown ↔
      members.verdict = .aborted ∨ members.verdict = .measured .unclassified := by
  unfold connectVerdictFinding
  split <;> rename_i hv <;> simp [hv]

lemma undecided_iff (route : ProxyRoute) :
    Undecided (connect route.proxy route.target).attempt ↔
      (probeRoute connect route).verdict = .aborted ∨
        (probeRoute connect route).verdict = .measured .unclassified := by
  unfold Undecided probeRoute
  dsimp only
  split_ifs with h <;> simp [h]

end Cluster
end Portcall.Proxy
