import Portcall.Dns.AddressClass
import Portcall.Dns.Probe

/-! Answers with a zone. The filter of the resolver lets an address with a zone through; the
probe cannot read one, and so takes it for a public address. -/
namespace Portcall.Dns
open InternetAddress

/-- `[0-9a-zA-Z-.:]{1,}` -/
structure IsZone (zone : List Char) : Prop where
  ne_nil : zone ≠ []
  characters : ∀ c ∈ zone, Text.isAlphanumeric c = true ∨ c ∈ ['-', '.', ':']

/-- What `isIP` accepts, with the value it denotes: a zone says which link, and not which
address. -/
inductive Denotes : List Char → ℕ → Prop where
  | plain {text : List Char} {value : ℕ} (h : Spells text value) : Denotes text value
  | zoned {body zone : List Char} {groups : List ℕ} (h : Ipv6Text body groups)
      (hzone : IsZone zone) : Denotes (body ++ '%' :: zone) (groupsValue groups)

/-- `isIP(address) !== 0` -/
def IsIp (address : String) : Prop := ∃ value, Denotes address.toList value

def Zoned (address : String) : Prop := '%' ∈ address.toList

def IsSinkhole (address : String) : Prop :=
  ∃ value, Denotes address.toList value ∧ ∃ block ∈ sinkholeBlocks, block.Holds value

def IsPrivate (address : String) : Prop :=
  ∃ value, Denotes address.toList value ∧ ∃ block ∈ privateBlocks, block.Holds value

def IsPublic (address : String) : Prop := ¬IsSinkhole address ∧ ¬IsPrivate address

/-- The verdict is about the addresses of the answer: public only where all of them are, a
sinkhole where one is, and clean of no other address. -/
structure AboutAnswer (addresses : List String) (finding : Finding) : Prop where
  resolved : finding.id = "dns.resolved" →
    addresses ≠ [] ∧ ∀ address ∈ addresses, IsPublic address
  sinkholed : (∃ address ∈ addresses, IsSinkhole address) → finding.id = "dns.sinkholed"
  reported : (∀ address ∈ addresses, ¬IsSinkhole address) →
    (∃ address ∈ addresses, ¬IsPublic address) → finding.severity ≠ .ok

/-- No zone hides what the rest of the answer does not show. -/
def ZonesHideNothing (addresses : List String) : Prop :=
  (∃ address ∈ addresses, ¬Zoned address ∧ IsSinkhole address) ∨
    (∀ address ∈ addresses, Zoned address → ¬IsSinkhole address) ∧
      ((∃ address ∈ addresses, ¬Zoned address ∧ IsPrivate address) ∨
        ∀ address ∈ addresses, Zoned address → ¬IsPrivate address)

section Address
variable {address : String}

lemma spells_of_denotes {value : ℕ} (h : Denotes address.toList value) (hzone : ¬Zoned address) :
    Spells address.toList value := by
  rw [Zoned] at hzone
  generalize address.toList = text at h hzone
  cases h with
  | plain h => exact h
  | zoned h _ => exact absurd (by simp) hzone

/-- An address with a zone is unreadable to the probe. -/
lemma classifyAddress_of_zoned (h : Zoned address) : classifyAddress address = .malformed := by
  by_contra hwell
  obtain ⟨value, hspells⟩ : ∃ value, Spells address.toList value := by
    obtain ⟨value, hquad⟩ | ⟨groups, hgroups⟩ := spells_of_classifyAddress hwell
    · exact ⟨_, .quad hquad⟩
    · exact ⟨_, .groups hgroups⟩
  exact hspells.percent_not_mem h

/-- Among the addresses the resolver lets through, the probe sees those of a class that have no
zone. -/
private lemma eq_iff_of_blocks {addressClass : AddressClass} {blocks : List Block}
    (hip : IsIp address) (hwell : addressClass ≠ .malformed)
    (hblocks : ∀ value, Spells address.toList value →
      (classifyAddress address = addressClass ↔ ∃ block ∈ blocks, block.Holds value)) :
    classifyAddress address = addressClass ↔ ¬Zoned address ∧
      ∃ value, Denotes address.toList value ∧ ∃ block ∈ blocks, block.Holds value := by
  by_cases hzone : Zoned address
  · rw [classifyAddress_of_zoned hzone]
    exact ⟨fun h => absurd h.symm hwell, fun h => absurd hzone h.1⟩
  · rw [and_iff_right hzone]
    constructor
    · intro hclass
      obtain ⟨value, hdenotes⟩ := hip
      exact ⟨value, hdenotes, (hblocks value (spells_of_denotes hdenotes hzone)).mp hclass⟩
    · rintro ⟨value, hdenotes, hholds⟩
      exact (hblocks value (spells_of_denotes hdenotes hzone)).mpr hholds

lemma classifyAddress_eq_sinkhole_iff (h : IsIp address) :
    classifyAddress address = .sinkhole ↔ ¬Zoned address ∧ IsSinkhole address :=
  eq_iff_of_blocks h (by decide) fun _ hspells => (classifyAddress_of_spells hspells).2.1

lemma classifyAddress_eq_private_iff (h : IsIp address) :
    classifyAddress address = .private ↔ ¬Zoned address ∧ IsPrivate address :=
  eq_iff_of_blocks h (by decide) fun _ hspells => (classifyAddress_of_spells hspells).2.2

end Address

section Verdict
variable {target : ProfileHost} {addresses : List String} {elapsedMs : ℕ}

lemma verdict_of_sinkhole (h : ∃ address ∈ addresses, classifyAddress address = .sinkhole) :
    ∃ address, verdict target (.ok addresses elapsedMs) = sinkholed target address := by
  obtain ⟨address, hm, hclass⟩ := h
  have hsome : (addresses.find? fun address => classifyAddress address = .sinkhole).isSome := by
    rw [List.find?_isSome]
    exact ⟨address, hm, by simpa using hclass⟩
  obtain ⟨found, hfound⟩ := Option.isSome_iff_exists.mp hsome
  refine ⟨found, ?_⟩
  have hne : ¬addresses.isEmpty = true := by
    rw [List.isEmpty_iff]
    exact List.ne_nil_of_mem hm
  rw [verdict, if_neg hne, hfound]

lemma verdict_of_private (hno : ∀ address ∈ addresses, classifyAddress address ≠ .sinkhole)
    (h : ∃ address ∈ addresses, classifyAddress address = .private) :
    verdict target (.ok addresses elapsedMs) = splitHorizon target addresses := by
  obtain ⟨address, hm, hclass⟩ := h
  have hnone : (addresses.find? fun address => classifyAddress address = .sinkhole) = none := by
    rw [List.find?_eq_none]
    simpa using hno
  have hne : ¬addresses.isEmpty = true := by
    rw [List.isEmpty_iff]
    exact List.ne_nil_of_mem hm
  rw [verdict, if_neg hne, hnone]
  exact if_pos (List.any_eq_true.mpr ⟨address, hm, by simpa using hclass⟩)

lemma verdict_of_neither (hne : addresses ≠ [])
    (hno : ∀ address ∈ addresses, classifyAddress address ≠ .sinkhole)
    (hnp : ∀ address ∈ addresses, classifyAddress address ≠ .private) :
    (verdict target (.ok addresses elapsedMs)).id = "dns.resolved" := by
  have hnone : (addresses.find? fun address => classifyAddress address = .sinkhole) = none := by
    rw [List.find?_eq_none]
    simpa using hno
  have hany : ¬(addresses.any fun address => classifyAddress address = .private) = true := by
    simpa using hnp
  rw [verdict, if_neg (by simpa using hne), hnone]
  simp only [if_neg hany]

lemma aboutAnswer_sinkholed (h : ∃ address ∈ addresses, IsSinkhole address) (found : String) :
    AboutAnswer addresses (Dns.sinkholed target found) where
  resolved hid := absurd hid (by simp [Dns.sinkholed])
  sinkholed _ := rfl
  reported hnone _ := by
    obtain ⟨address, hm, hhole⟩ := h
    exact absurd hhole (hnone address hm)

/-- A private address is reported, which is wrong where a sinkhole is among the rest. -/
lemma aboutAnswer_splitHorizon_iff :
    AboutAnswer addresses (splitHorizon target addresses) ↔
      ∀ address ∈ addresses, ¬IsSinkhole address := by
  constructor
  · intro h address hm hhole
    exact absurd (h.sinkholed ⟨address, hm, hhole⟩) (by simp [splitHorizon])
  · intro hnone
    refine ⟨fun hid => absurd hid (by simp [splitHorizon]), ?_, fun _ _ => by simp [splitHorizon]⟩
    rintro ⟨address, hm, hhole⟩
    exact absurd hhole (hnone address hm)

/-- An answer is called public, which is right where all of it is. -/
lemma aboutAnswer_resolved_iff {finding : Finding} (hid : finding.id = "dns.resolved") :
    AboutAnswer addresses finding ↔
      addresses ≠ [] ∧ ∀ address ∈ addresses, IsPublic address := by
  refine ⟨fun h => h.resolved hid, fun h => ⟨fun _ => h, ?_, ?_⟩⟩
  · rintro ⟨address, hm, hhole⟩
    exact absurd hhole (h.2 address hm).1
  · rintro - ⟨address, hm, hpublic⟩
    exact absurd (h.2 address hm) hpublic

/-- Where no address without a zone has a property, those with one decide. -/
lemma forall_zoned_iff {P : String → Prop} (h : ¬∃ address ∈ addresses, ¬Zoned address ∧ P address) :
    (∀ address ∈ addresses, Zoned address → ¬P address) ↔ ∀ address ∈ addresses, ¬P address := by
  refine ⟨fun hzoned address hm hp => ?_, fun hall address hm _ => hall address hm⟩
  by_cases hzone : Zoned address
  · exact hzoned address hm hzone hp
  · exact h ⟨address, hm, hzone, hp⟩

end Verdict

/-- The verdict is about the answer exactly when no zone in it hides what the rest of it does not
show. -/
theorem verdict_aboutAnswer_iff (target : ProfileHost) {addresses : List String} (elapsedMs : ℕ)
    (hip : ∀ address ∈ addresses, IsIp address) :
    AboutAnswer addresses (verdict target (.ok addresses elapsedMs)) ↔
      ZonesHideNothing addresses := by
  have hsink : ∀ address ∈ addresses,
      classifyAddress address = .sinkhole ↔ ¬Zoned address ∧ IsSinkhole address :=
    fun address hm => classifyAddress_eq_sinkhole_iff (hip address hm)
  have hpriv : ∀ address ∈ addresses,
      classifyAddress address = .private ↔ ¬Zoned address ∧ IsPrivate address :=
    fun address hm => classifyAddress_eq_private_iff (hip address hm)
  by_cases hsinkhole : ∃ address ∈ addresses, classifyAddress address = .sinkhole
  · -- one of them is seen to be a sinkhole, and no zone matters
    obtain ⟨found, hverdict⟩ := @verdict_of_sinkhole target _ elapsedMs hsinkhole
    obtain ⟨address, hm, hclass⟩ := hsinkhole
    obtain ⟨hzone, hhole⟩ := (hsink address hm).mp hclass
    rw [hverdict]
    exact iff_of_true (aboutAnswer_sinkholed ⟨address, hm, hhole⟩ found)
      (Or.inl ⟨address, hm, hzone, hhole⟩)
  · have hunseen : ¬∃ address ∈ addresses, ¬Zoned address ∧ IsSinkhole address := by
      rintro ⟨address, hm, h⟩
      exact hsinkhole ⟨address, hm, (hsink address hm).mpr h⟩
    have hno : ∀ address ∈ addresses, classifyAddress address ≠ .sinkhole :=
      fun address hm hclass => hsinkhole ⟨address, hm, hclass⟩
    rw [ZonesHideNothing, or_iff_right hunseen, forall_zoned_iff hunseen]
    by_cases hprivate : ∃ address ∈ addresses, classifyAddress address = .private
    · rw [verdict_of_private hno hprivate, aboutAnswer_splitHorizon_iff]
      obtain ⟨address, hm, hclass⟩ := hprivate
      exact (and_iff_left (Or.inl ⟨address, hm, (hpriv address hm).mp hclass⟩)).symm
    · have hnp : ∀ address ∈ addresses, classifyAddress address ≠ .private :=
        fun address hm hclass => hprivate ⟨address, hm, hclass⟩
      have hunseenPrivate : ¬∃ address ∈ addresses, ¬Zoned address ∧ IsPrivate address := by
        rintro ⟨address, hm, h⟩
        exact hprivate ⟨address, hm, (hpriv address hm).mpr h⟩
      rw [or_iff_right hunseenPrivate, forall_zoned_iff hunseenPrivate]
      by_cases hnil : addresses = []
      · subst hnil
        refine iff_of_true ⟨fun hid => ?_, fun h => ?_, fun _ h => ?_⟩ ⟨by simp, by simp⟩
        · exact absurd hid (by simp [verdict, resolveFailed])
        · simp at h
        · simp at h
      · rw [aboutAnswer_resolved_iff (verdict_of_neither hnil hno hnp), and_iff_right hnil]
        exact forall₂_and

section LinkLocal

private lemma denotes_linkLocal :
    Denotes "fe80::1%eth0".toList (groupsValue [0xfe80, 0, 0, 0, 0, 0, 0, 1]) := by
  have hbody : Ipv6Text "fe80::1".toList [0xfe80, 0, 0, 0, 0, 0, 0, 1] :=
    parseIpv6_eq_some_iff.mp (by decide)
  have hletters : "eth0".toList.all Text.isAlphanumeric = true := by decide
  have hzone : IsZone "eth0".toList :=
    ⟨by decide, fun c hc => .inl (List.all_eq_true.mp hletters c hc)⟩
  exact .zoned hbody hzone

/-- The law at an answer in which one private address is hidden by its zone and another is not. -/
theorem verdict_aboutAnswer_iff_linkLocal :
    AboutAnswer ["fe80::1%eth0", "10.0.0.1"]
        (verdict ⟨"api.example.com", true⟩ (.ok ["fe80::1%eth0", "10.0.0.1"] 12)) ↔
      ZonesHideNothing ["fe80::1%eth0", "10.0.0.1"] := by
  refine verdict_aboutAnswer_iff ⟨"api.example.com", true⟩ 12 ?_
  rw [List.forall_mem_cons, List.forall_mem_singleton]
  exact ⟨⟨_, denotes_linkLocal⟩,
    ⟨_, .plain (.quad (dottedQuad_iff.mpr ⟨⟨10, 0, 0, 1⟩, by decide, rfl⟩))⟩⟩

/-- A link-local address with the name of its link is let through, is private, and is reported
as a public one. -/
theorem zoned_private_resolved :
    IsIp "fe80::1%eth0" ∧ IsPrivate "fe80::1%eth0" ∧
      (verdict ⟨"api.example.com", true⟩ (.ok ["fe80::1%eth0"] 12)).id = "dns.resolved" ∧
      ¬AboutAnswer ["fe80::1%eth0"]
        (verdict ⟨"api.example.com", true⟩ (.ok ["fe80::1%eth0"] 12)) := by
  have hprivate : IsPrivate "fe80::1%eth0" :=
    ⟨_, denotes_linkLocal, ⟨0xfe80 * 2 ^ 112, 10⟩, by decide, by decide⟩
  have hresolved : (verdict ⟨"api.example.com", true⟩ (.ok ["fe80::1%eth0"] 12)).id =
      "dns.resolved" := by
    decide
  refine ⟨⟨_, denotes_linkLocal⟩, hprivate, hresolved, fun h => ?_⟩
  exact ((h.resolved hresolved).2 _ (List.mem_singleton_self _)).2 hprivate

end LinkLocal
end Portcall.Dns
