import Portcall.Library.Classes
import Portcall.Proxy.Accounting
import Portcall.Proxy.Clusters
import Portcall.Shared.LowerCase

/-! The keys of the routes and of the clusters never merge two different tuples, whatever text a
script or a peer puts into them: routes and clusters are the classes of what they are made from. -/
namespace Portcall.Proxy

section Keys
variable {ext : Externals}

/-- One host up to case, and one port. -/
def SameHostPort (ext : Externals) (left right : HostPort) : Prop :=
  ext.toLowerCase left.host = ext.toLowerCase right.host ∧ left.port = right.port

/-- One proxy and one destination. -/
def SameRoute (ext : Externals) (left right : HostPort × Endpoint) : Prop :=
  SameHostPort ext left.1 right.1 ∧ SameHostPort ext (targetOf left.2) (targetOf right.2)

/-- One proxy and one outcome. -/
def SameOutcome (ext : Externals) (left right : RouteOutcome) : Prop :=
  SameHostPort ext left.route.proxy right.route.proxy ∧ left.verdict = right.verdict ∧
    left.code = right.code ∧ left.scheme = right.scheme

lemma IsProxyHost.toLowerCase (hlower : LowersByCharacter ext) {host : String}
    (h : IsProxyHost host) : IsProxyHost (ext.toLowerCase host) :=
  h.imp
    (fun hcolon hm => hcolon ((hlower.toLowerCase host).mem_of_mark (by decide) hm))
    fun hbar hm => hbar ((hlower.toLowerCase host).mem_of_mark (by decide) hm)

lemma bar_not_mem_schemeText (scheme : AuthScheme) : '|' ∉ scheme.text.toList := by
  cases scheme <;> decide

lemma schemeText_injective : Function.Injective AuthScheme.text := by
  intro left right h
  cases left <;> cases right <;> first | rfl | exact absurd h (by decide)

lemma toList_targetKey (target : HostPort) : (targetKey ext target).toList =
    (ext.toLowerCase target.host).toList ++ ':' :: (toString target.port).toList := by
  simp [targetKey]

/-- One key, one destination. -/
lemma targetKey_eq_iff {left right : HostPort} :
    targetKey ext left = targetKey ext right ↔ SameHostPort ext left right := by
  refine ⟨fun h => ?_, fun h => by rw [targetKey, targetKey, h.1, h.2]⟩
  have hlist := congrArg String.toList h
  rw [toList_targetKey, toList_targetKey] at hlist
  obtain ⟨hhost, hport⟩ := address_inj hlist
  exact ⟨String.toList_injective hhost, hport⟩

/-- One key, one route. -/
theorem routeKey_eq_iff (hlower : LowersByCharacter ext) {left right : HostPort × Endpoint}
    (hl : IsProxyHost left.1.host) (hr : IsProxyHost right.1.host) :
    targetKey ext left.1 ++ "|" ++ targetKey ext (targetOf left.2) =
        targetKey ext right.1 ++ "|" ++ targetKey ext (targetOf right.2) ↔
      SameRoute ext left right := by
  refine ⟨fun h => ?_, fun h => ?_⟩
  · have hlist := congrArg String.toList h
    simp only [String.toList_append, toList_targetKey, List.append_assoc, List.cons_append] at hlist
    obtain ⟨hhost, hport, hrest⟩ :=
      address_append_inj (hl.toLowerCase hlower) (hr.toLowerCase hlower) hlist
    obtain ⟨hhost', hport'⟩ := address_inj hrest
    exact ⟨⟨String.toList_injective hhost, hport⟩, String.toList_injective hhost', hport'⟩
  · rw [targetKey_eq_iff.mpr h.1, targetKey_eq_iff.mpr h.2]

/-- One key, one outcome. -/
theorem clusterKey_eq_iff (hlower : LowersByCharacter ext) {left right : RouteOutcome}
    (hl : IsProxyHost left.route.proxy.host) (hr : IsProxyHost right.route.proxy.host) :
    clusterKey ext left = clusterKey ext right ↔ SameOutcome ext left right := by
  refine ⟨fun h => ?_, fun h => ?_⟩
  · have hlist := congrArg String.toList h
    rw [toList_clusterKey, toList_clusterKey] at hlist
    obtain ⟨hhost, hport, hrest⟩ :=
      address_append_inj (hl.toLowerCase hlower) (hr.toLowerCase hlower) hlist
    obtain ⟨hverdict, hrest⟩ :=
      Text.append_cons_inj (bar_not_mem_text _) (bar_not_mem_text _) hrest
    -- the code is whatever a peer made it, but no scheme has a bar
    have hlast := congrArg (Text.splitLast '|') hrest
    rw [Text.splitLast_append _ (bar_not_mem_schemeText _),
      Text.splitLast_append _ (bar_not_mem_schemeText _), Option.some_inj, Prod.mk.injEq] at hlast
    exact ⟨⟨String.toList_injective hhost, hport⟩,
      text_injective (String.toList_injective hverdict), String.toList_injective hlast.1,
      schemeText_injective (String.toList_injective hlast.2)⟩
  · rw [clusterKey, clusterKey, targetKey_eq_iff.mpr h.1, h.2.1, h.2.2.1, h.2.2.2]

end Keys

/-- The route of the endpoints that share it. -/
structure IsRouteOf (ext : Externals) (pairs : List (HostPort × Endpoint)) (route : ProxyRoute) :
    Prop where
  shared : ∀ pair ∈ pairs,
    SameHostPort ext pair.1 route.proxy ∧ SameHostPort ext (targetOf pair.2) route.target
  first : ∃ pair ∈ pairs, route.proxy = pair.1 ∧ route.target = targetOf pair.2
  required : route.required = pairs.any fun pair => pair.2.required

/-- The cluster of the routes that had its outcome. -/
structure IsClusterOf (ext : Externals) (outcomes : List RouteOutcome) (members : ProxyCluster) :
    Prop where
  shared : ∀ outcome ∈ outcomes, SameHostPort ext outcome.route.proxy members.proxy ∧
    outcome.verdict = members.verdict ∧ outcome.code = members.code ∧
    outcome.scheme = members.scheme
  targets : members.targets = outcomes.map fun outcome => outcome.route.target
  required : members.required = outcomes.any fun outcome => outcome.route.required

section Collect
variable {ext : Externals}

lemma foldl_route (rest : List (HostPort × Endpoint)) (start : ProxyRoute) :
    rest.foldl (fun existing pair =>
        { existing with required := existing.required || pair.2.required }) start =
      { start with required := start.required || rest.any fun pair => pair.2.required } := by
  induction rest generalizing start with
  | nil => simp
  | cons pair rest ih => rw [List.foldl_cons, ih, List.any_cons, Bool.or_assoc]

lemma foldl_cluster (rest : List RouteOutcome) (start : ProxyCluster) :
    rest.foldl (fun existing outcome =>
        { existing with
          targets := existing.targets ++ [outcome.route.target]
          required := existing.required || outcome.route.required }) start =
      { start with
        targets := start.targets ++ rest.map fun outcome => outcome.route.target
        required := start.required || rest.any fun outcome => outcome.route.required } := by
  induction rest generalizing start with
  | nil => simp
  | cons outcome rest ih =>
    rw [List.foldl_cons, ih, List.map_cons, List.any_cons, List.append_assoc, Bool.or_assoc]
    rfl

/-- The deduplication finds the classes of endpoints that share a route. -/
theorem classes_addRoutes (hlower : LowersByCharacter ext) {pairs : List (HostPort × Endpoint)}
    (hproxy : ∀ pair ∈ pairs, IsProxyHost pair.1.host) : ∃ classes,
      Classes (SameRoute ext) pairs classes ∧
        List.Forall₂ (IsRouteOf ext) classes (addRoutes ext pairs) := by
  have hclasses := (InsertionMap.classes_classesBy (fun pair : HostPort × Endpoint =>
    targetKey ext pair.1 ++ "|" ++ targetKey ext (targetOf pair.2)) pairs).congr
    fun left hl right hr => routeKey_eq_iff hlower (hproxy left hl) (hproxy right hr)
  refine ⟨_, hclasses, hclasses.forall₂ (InsertionMap.forall₂_classesBy _ _ _ pairs) ?_⟩
  rintro _ route - hrel ⟨first, rest, rfl, rfl⟩
  rw [foldl_route]
  exact {
    shared := fun pair hm => hrel pair hm first List.mem_cons_self
    first := ⟨first, List.mem_cons_self, rfl, rfl⟩
    required := rfl }

/-- The clustering finds the classes of routes that had one outcome. -/
theorem classes_cluster (hlower : LowersByCharacter ext) {outcomes : List RouteOutcome}
    (hproxy : ∀ outcome ∈ outcomes, IsProxyHost outcome.route.proxy.host) : ∃ classes,
      Classes (SameOutcome ext) outcomes classes ∧
        List.Forall₂ (IsClusterOf ext) classes (cluster ext outcomes) := by
  have hclasses := (InsertionMap.classes_classesBy (clusterKey ext) outcomes).congr
    fun left hl right hr => clusterKey_eq_iff hlower (hproxy left hl) (hproxy right hr)
  refine ⟨_, hclasses, hclasses.forall₂ (InsertionMap.forall₂_classesBy _ _ _ outcomes) ?_⟩
  rintro _ members - hrel ⟨first, rest, rfl, rfl⟩
  rw [foldl_cluster]
  exact {
    shared := fun outcome hm => hrel outcome hm first List.mem_cons_self
    targets := rfl
    required := rfl }

/-- A route goes through a proxy that was chosen. -/
lemma proxy_of_mem_addRoutes {pairs : List (HostPort × Endpoint)} {route : ProxyRoute}
    (h : route ∈ addRoutes ext pairs) : ∃ pair ∈ pairs, route.proxy = pair.1 := by
  obtain ⟨first, rest, hsub, -, rfl⟩ := InsertionMap.exists_of_mem_values_group _ _ _ h
  rw [foldl_route]
  exact ⟨first, hsub.subset List.mem_cons_self, rfl⟩

/-- Whatever proxy is chosen for each endpoint and whatever comes of asking it: there is one route
for each proxy and destination, one cluster for each proxy and outcome, and every route's
destination stands once among the clusters, in that of the route's outcome. -/
theorem routes_and_clusters (hlower : LowersByCharacter ext) {pairs : List (HostPort × Endpoint)}
    (hproxy : ∀ pair ∈ pairs, IsProxyHost pair.1.host) (connect : ProxyConnect) :
    (∃ shared, Classes (SameRoute ext) pairs shared ∧
        List.Forall₂ (IsRouteOf ext) shared (addRoutes ext pairs)) ∧
      (∃ alike, Classes (SameOutcome ext) ((addRoutes ext pairs).map (probeRoute connect)) alike ∧
        List.Forall₂ (IsClusterOf ext) alike
          (cluster ext ((addRoutes ext pairs).map (probeRoute connect)))) ∧
      ((cluster ext ((addRoutes ext pairs).map (probeRoute connect))).flatMap
        ProxyCluster.targets).Perm ((addRoutes ext pairs).map ProxyRoute.target) := by
  refine ⟨classes_addRoutes hlower hproxy, classes_cluster hlower fun outcome hm => ?_, ?_⟩
  · obtain ⟨route, hroute, rfl⟩ := List.mem_map.mp hm
    obtain ⟨pair, hpair, hvia⟩ := proxy_of_mem_addRoutes hroute
    rw [route_probeRoute, hvia]
    exact hproxy pair hpair
  · have htargets : (addRoutes ext pairs).map ProxyRoute.target =
        ((addRoutes ext pairs).map (probeRoute connect)).map fun outcome =>
          outcome.route.target := by
      rw [List.map_map]
      refine List.map_congr_left fun route _ => ?_
      rw [Function.comp_apply, route_probeRoute]
    rw [htargets]
    exact flatMap_targets_cluster _

/-- Two spellings of one proxy, with a bar in its name, and of one destination. -/
def barredPairs : List (HostPort × Endpoint) :=
  [(⟨"a|b", 8080⟩, ⟨"api.example.com", 443, "api", false⟩),
    (⟨"A|B", 8080⟩, ⟨"API.example.com", 443, "again", true⟩)]

/-- They share a route, and what either requires it requires. -/
theorem routes_and_clusters_barred :
    addRoutes throwingExternals barredPairs =
        [⟨⟨"a|b", 8080⟩, ⟨"api.example.com", 443⟩, true⟩] ∧
      ∃ shared, Classes (SameRoute throwingExternals) barredPairs shared ∧
        List.Forall₂ (IsRouteOf throwingExternals) shared
          (addRoutes throwingExternals barredPairs) :=
  ⟨by decide, (routes_and_clusters (lowersByCharacter_of_id rfl) (by decide)
    schemeOnly.connect).1⟩

end Collect
end Portcall.Proxy
