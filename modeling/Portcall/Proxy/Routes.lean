import Portcall.Proxy.Probe

/-! Routes and clusters: the deduplication by key drops no endpoint of a loaded profile, and the
clustering by outcome drops no route. -/
namespace Portcall.Proxy
variable {ext : Externals}

section Keys

lemma char_of_isHostname {host : String} (h : isHostname host = true) {c : Char}
    (hc : c ∈ host.toList) : Text.isAlphanumeric c = true ∨ c = '-' ∨ c = '.' := by
  unfold isHostname at h
  rw [Bool.and_eq_true, List.all_eq_true] at h
  rcases @Text.mem_splitChars '.' _ _ hc with hdot | ⟨label, hl, hm⟩
  · exact Or.inr (Or.inr hdot)
  · have hlabel := h.2 label hl
    unfold isHostLabel at hlabel
    simp only [Bool.and_eq_true, List.all_eq_true] at hlabel
    have := hlabel.1.1.2 c hm
    rw [Bool.or_eq_true, decide_eq_true_eq] at this
    exact this.imp id Or.inl

lemma bar_not_mem_toLowerCase {host : String} (h : isHostname host = true) :
    '|' ∉ (ext.toLowerCase host).toList := by
  have hascii : ∀ c ∈ host.toList, c.toNat < 128 := by
    intro c hc
    rcases char_of_isHostname h hc with ha | rfl | rfl
    · exact Text.toNat_lt_of_isAlphanumeric ha
    · decide
    · decide
  rw [ext.toLowerCase_ascii hascii, String.toList_ofList]
  refine Text.not_mem_map_toLower (by decide) fun hc => ?_
  rcases char_of_isHostname h hc with ha | he | he
  · revert ha
    decide
  · revert he
    decide
  · revert he
    decide

/-- The key of a declared endpoint has no bar in it. -/
lemma bar_not_mem_targetKey {endpoint : Endpoint} (h : isHostname endpoint.host = true) :
    '|' ∉ (targetKey ext (targetOf endpoint)).toList := by
  unfold targetKey
  rw [String.toList_append, String.toList_append, List.mem_append, List.mem_append]
  rintro ((hm | hm) | hm)
  · exact bar_not_mem_toLowerCase h hm
  · revert hm
    decide
  · exact Text.not_mem_toString _ (by decide) hm

end Keys

section Routes

/-- Endpoints a profile may declare together: their keys are distinct and free of bars. -/
structure Separate (ext : Externals) (endpoints : List Endpoint) : Prop where
  nodup : (endpoints.map fun endpoint => targetKey ext (targetOf endpoint)).Nodup
  bar : ∀ endpoint ∈ endpoints, '|' ∉ (targetKey ext (targetOf endpoint)).toList

lemma separate_of_loaded (loaded : LoadedProfile ext) :
    Separate ext loaded.profile.endpoints where
  nodup := loaded.keys_nodup
  bar _ hm := bar_not_mem_targetKey (loaded.isHostname_of_mem hm)

lemma Separate.sublist {left right : List Endpoint} (h : Separate ext right)
    (hs : left.Sublist right) : Separate ext left where
  nodup := h.nodup.sublist (hs.map _)
  bar endpoint hm := h.bar endpoint (hs.subset hm)

/-- Separate endpoints have a route each: the deduplication merges none of them. -/
theorem addRoutes_eq_map {pairs : List (HostPort × Endpoint)}
    (h : Separate ext (pairs.map Prod.snd)) :
    addRoutes ext pairs = pairs.map fun pair => ⟨pair.1, targetOf pair.2, pair.2.required⟩ := by
  apply InsertionMap.values_group_of_nodup
  -- the destination is what follows the last bar of the key
  refine List.Nodup.of_map (fun key : String => (Text.splitLast '|' key.toList).map Prod.snd) ?_
  have hkeys : (pairs.map fun pair => targetKey ext pair.1 ++ "|" ++
        targetKey ext (targetOf pair.2)).map
        (fun key : String => (Text.splitLast '|' key.toList).map Prod.snd) =
      ((pairs.map Prod.snd).map fun endpoint => targetKey ext (targetOf endpoint)).map
        fun key => some key.toList := by
    rw [List.map_map, List.map_map, List.map_map]
    refine List.map_congr_left fun pair hm => ?_
    have hbar := h.bar pair.2 (List.mem_map_of_mem hm)
    have hlist : (targetKey ext pair.1 ++ "|" ++ targetKey ext (targetOf pair.2)).toList =
        (targetKey ext pair.1).toList ++ '|' :: (targetKey ext (targetOf pair.2)).toList := by
      simp
    simp only [Function.comp_apply]
    rw [hlist, Text.splitLast_append _ hbar]
    rfl
  rw [hkeys]
  exact h.nodup.map fun left right he => String.toList_injective (Option.some.inj he)

end Routes

section Destinations

/-- The destinations a finding lists, as pairs of host and port. -/
def destinations (finding : Finding) : List (String × String) :=
  (finding.values "endpoint").zip (finding.values "port")

/-- A target as a finding prints it. -/
def printed (target : HostPort) : String × String := (target.host, toString target.port)

lemma values_proxyEvidence (cluster : ProxyCluster) :
    valuesOf "endpoint" (proxyEvidence cluster) = cluster.targets.map HostPort.host ∧
      valuesOf "port" (proxyEvidence cluster) =
        cluster.targets.map fun target => toString target.port := by
  unfold proxyEvidence
  rw [valuesOf_append, valuesOf_append, valuesOf_flatMap, valuesOf_flatMap]
  simp [List.map_eq_flatMap]

/-- A cluster's finding lists the cluster's targets, whatever its verdict. -/
theorem destinations_connectVerdictFinding (cluster : ProxyCluster) :
    destinations (connectVerdictFinding cluster) = cluster.targets.map printed := by
  obtain ⟨hhost, hport⟩ := values_proxyEvidence cluster
  have hvalues : (connectVerdictFinding cluster).values "endpoint" =
        cluster.targets.map HostPort.host ∧
      (connectVerdictFinding cluster).values "port" =
        cluster.targets.map fun target => toString target.port := by
    unfold connectVerdictFinding Finding.values
    split <;> simp [hhost, hport]
  unfold destinations
  rw [hvalues.1, hvalues.2, List.zip_map']
  rfl

/-- The clusters of the outcomes list every route's destination once. -/
theorem destinations_probeRoutes (connect : ProxyConnect) (routes : List ProxyRoute) :
    ((probeRoutes ext connect routes).flatMap destinations).Perm
      (routes.map fun route => printed route.target) := by
  have hclusters : ((cluster ext (routes.map (probeRoute connect))).flatMap fun cluster =>
      cluster.targets.map printed).Perm
      ((routes.map (probeRoute connect)).map fun outcome => printed outcome.route.target) := by
    unfold cluster
    refine InsertionMap.flatMap_values_group _ _ _
      (fun cluster : ProxyCluster => cluster.targets.map printed)
      (fun outcome : RouteOutcome => printed outcome.route.target) (fun _ => rfl) ?_ _
    intro existing outcome
    simp
  unfold probeRoutes
  rw [List.flatMap_map]
  simp only [destinations_connectVerdictFinding]
  refine hclusters.trans (List.Perm.of_eq ?_)
  rw [List.map_map]
  refine List.map_congr_left fun route _ => ?_
  simp only [Function.comp_apply, probeRoute]
  split_ifs <;> rfl

end Destinations
end Portcall.Proxy
