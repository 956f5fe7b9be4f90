import Portcall.Library.Cursor
import Portcall.Net.JavaKeystore

/-! What a keystore holds, as a stream of entries, and the two parsers' loops as walks over it that
stop at the cap. -/
namespace Portcall.Net
open Cursor

/-- One entry of a keystore, as far as it can be told without a password. -/
inductive KeystoreItem where
  | certificate (der : List UInt8)
  | encrypted
  | other
  deriving DecidableEq, Repr

namespace KeystoreItem

def ofCertificate : Option (List UInt8) → KeystoreItem
  | some der => .certificate der
  | none => .other

def der? : KeystoreItem → Option (List UInt8)
  | .certificate der => some der
  | .encrypted | .other => none

def weight : KeystoreItem → ℕ
  | .certificate _ => 1
  | .encrypted | .other => 0

@[simp] lemma der?_ofCertificate (certificate : Option (List UInt8)) :
    (ofCertificate certificate).der? = certificate := by
  cases certificate <;> rfl

@[simp] lemma weight_ofCertificate (certificate : Option (List UInt8)) :
    (ofCertificate certificate).weight = certificate.toList.length := by
  cases certificate <;> rfl

lemma weight_le_one (item : KeystoreItem) : item.weight ≤ 1 := by
  cases item <;> simp [weight]

@[simp] lemma ofCertificate_ne_encrypted (certificate : Option (List UInt8)) :
    ofCertificate certificate ≠ .encrypted := by
  cases certificate <;> nofun

end KeystoreItem

/-- The certificates among these entries, in order. -/
def certificatesOf (items : List KeystoreItem) : List (List UInt8) :=
  items.filterMap KeystoreItem.der?

section CertificatesOf
variable {items items' : List KeystoreItem}

lemma certificatesOf_cons (item : KeystoreItem) :
    certificatesOf (item :: items) = item.der?.toList ++ certificatesOf items := by
  unfold certificatesOf
  rw [List.filterMap_cons]
  cases item.der? <;> rfl

lemma certificatesOf_append :
    certificatesOf (items ++ items') = certificatesOf items ++ certificatesOf items' :=
  List.filterMap_append

/-- An entry read adds its certificate, if it holds one, to those collected before. -/
lemma append_certificatesOf_ofCertificate (found : List (List UInt8))
    (certificate : Option (List UInt8)) :
    found ++ certificatesOf (.ofCertificate certificate :: items) =
      found ++ certificate.toList ++ certificatesOf items := by
  rw [certificatesOf_cons, KeystoreItem.der?_ofCertificate, List.append_assoc]

lemma length_append_toList (found : List (List UInt8)) (certificate : Option (List UInt8)) :
    (found ++ certificate.toList).length =
      found.length + (KeystoreItem.ofCertificate certificate).weight := by
  rw [List.length_append, KeystoreItem.weight_ofCertificate]

lemma encrypted_not_mem_cons (certificate : Option (List UInt8))
    (h : KeystoreItem.encrypted ∉ items) :
    KeystoreItem.encrypted ∉ KeystoreItem.ofCertificate certificate :: items := by
  rw [List.mem_cons, not_or]
  exact ⟨(KeystoreItem.ofCertificate_ne_encrypted certificate).symm, h⟩

lemma length_certificatesOf : (certificatesOf items).length = total KeystoreItem.weight items := by
  induction items with
  | nil => rfl
  | cons item items ih =>
    rw [total_cons, ← ih, certificatesOf_cons, List.length_append]
    cases item <;> rfl

lemma mem_certificatesOf {der : List UInt8} :
    der ∈ certificatesOf items ↔ .certificate der ∈ items := by
  rw [certificatesOf, List.mem_filterMap]
  constructor
  · rintro ⟨item, hm, hder⟩
    cases item <;> cases hder
    exact hm
  · exact fun hm => ⟨_, hm, rfl⟩

end CertificatesOf

/-- A walk over a keystore's entries that stops at the cap on certificates. -/
abbrev CertWalk {σ : Type} (step : σ → Option (Except KeystoreFailure (KeystoreItem × σ))) :
    ℕ → σ → List KeystoreItem → σ → Prop :=
  Walk step KeystoreItem.weight maxKeystoreCertificates

section Jks
variable (bytes : List UInt8)

/-- From an offset with so many entries to come, one entry on. -/
def jksStep : ℕ × ℕ → Option (Except KeystoreFailure (KeystoreItem × (ℕ × ℕ)))
  | (_, 0) => none
  | (offset, left + 1) =>
    some ((jksEntry bytes offset).map fun (certificate, next) =>
      (.ofCertificate certificate, (next, left)))

/-- The loop of the JKS parser is a walk over the entries: it returns what the walk collects, and
fails where there is no such walk. -/
theorem jksEntries_walk (left offset : ℕ) (certificates : List (List UInt8)) :
    match jksEntries bytes left offset certificates with
    | .ok found => ∃ items last,
        CertWalk (jksStep bytes) certificates.length (offset, left) items last ∧
          found = certificates ++ certificatesOf items ∧ KeystoreItem.encrypted ∉ items
    | .error _ => ∀ items last,
        ¬CertWalk (jksStep bytes) certificates.length (offset, left) items last := by
  induction left generalizing offset certificates with
  | zero => exact ⟨[], (offset, 0), .stop (Or.inl rfl), by simp [certificatesOf], List.not_mem_nil⟩
  | succ left ih =>
    rw [jksEntries]
    by_cases hcap : certificates.length < maxKeystoreCertificates
    · rw [if_pos hcap]
      cases hentry : jksEntry bytes offset with
      | error reason =>
        intro items last
        exact not_walk_of_error hcap (by rw [jksStep, hentry]; rfl)
      | ok entry =>
        obtain ⟨certificate, next⟩ := entry
        have hstep : jksStep bytes (offset, left + 1) =
            some (.ok (.ofCertificate certificate, (next, left))) := by
          rw [jksStep, hentry]
          rfl
        have ih := ih next (certificates ++ certificate.toList)
        rw [length_append_toList] at ih
        dsimp only
        cases hrest : jksEntries bytes left next (certificates ++ certificate.toList) with
        | error reason =>
          rw [hrest] at ih
          exact fun items last => not_walk_of_next hcap hstep ih
        | ok found =>
          rw [hrest] at ih
          obtain ⟨items, last, hwalk, hfound, hplain⟩ := ih
          refine ⟨_, last, .next hcap hstep hwalk, ?_, encrypted_not_mem_cons certificate hplain⟩
          rw [hfound, append_certificatesOf_ofCertificate]
    · rw [if_neg hcap]
      exact ⟨[], (offset, left + 1), .stop (Or.inr (Nat.le_of_not_lt hcap)),
        by simp [certificatesOf], List.not_mem_nil⟩

end Jks

section Pkcs12
variable (authSafe : List UInt8) (safeEnd : ℕ)

/-- A position in the authenticated safe, and one in the bags of the safe contents before it. -/
structure SafeCursor where
  pos : ℕ
  safeContents : List UInt8
  bagsEnd : ℕ
  bagPos : ℕ

/-- One bag on, while there are bags; else one `ContentInfo` on. -/
def safeStep (cursor : SafeCursor) :
    Option (Except KeystoreFailure (KeystoreItem × SafeCursor)) :=
  if cursor.bagPos < cursor.bagsEnd then
    some ((bagAt cursor.safeContents cursor.bagPos).map fun (certificate, next) =>
      (.ofCertificate certificate, { cursor with bagPos := next }))
  else if cursor.pos < safeEnd then
    some ((contentInfoAt authSafe cursor.pos).map fun
      | (none, next) => (.encrypted, ⟨next, [], 0, 0⟩)
      | (some (safeContents, bagsSeq), next) =>
        (.other, ⟨next, safeContents, bagsSeq.end, bagsSeq.start⟩))
  else none

section Steps
variable {authSafe : List UInt8} {safeEnd : ℕ} {cursor : SafeCursor}

lemma safeStep_bag {certificate : Option (List UInt8)} {next : ℕ}
    (hpos : cursor.bagPos < cursor.bagsEnd)
    (hbag : bagAt cursor.safeContents cursor.bagPos = .ok (certificate, next)) :
    safeStep authSafe safeEnd cursor =
      some (.ok (.ofCertificate certificate, { cursor with bagPos := next })) := by
  rw [safeStep, if_pos hpos, hbag]
  rfl

lemma safeStep_bag_error {reason : KeystoreFailure} (hpos : cursor.bagPos < cursor.bagsEnd)
    (hbag : bagAt cursor.safeContents cursor.bagPos = .error reason) :
    safeStep authSafe safeEnd cursor = some (.error reason) := by
  rw [safeStep, if_pos hpos, hbag]
  rfl

lemma safeStep_contentInfo (hbags : cursor.bagsEnd ≤ cursor.bagPos) (hpos : cursor.pos < safeEnd) :
    safeStep authSafe safeEnd cursor = some ((contentInfoAt authSafe cursor.pos).map fun
      | (none, next) => (.encrypted, ⟨next, [], 0, 0⟩)
      | (some (safeContents, bagsSeq), next) =>
        (.other, ⟨next, safeContents, bagsSeq.end, bagsSeq.start⟩)) := by
  rw [safeStep, if_neg (by omega), if_pos hpos]

lemma safeStep_eq_none (hbags : cursor.bagsEnd ≤ cursor.bagPos) (hpos : safeEnd ≤ cursor.pos) :
    safeStep authSafe safeEnd cursor = none := by
  rw [safeStep, if_neg (by omega), if_neg (by omega)]

/-- What a step can do: read a bag, pass over what is encrypted, or enter the bags of a safe
contents. -/
theorem safeStep_cases {item : KeystoreItem} {next : SafeCursor}
    (h : safeStep authSafe safeEnd cursor = some (.ok (item, next))) :
    (cursor.bagPos < cursor.bagsEnd ∧ ∃ certificate bagPos,
      bagAt cursor.safeContents cursor.bagPos = .ok (certificate, bagPos) ∧
        item = .ofCertificate certificate ∧ next = { cursor with bagPos }) ∨
    (¬cursor.bagPos < cursor.bagsEnd ∧ cursor.pos < safeEnd ∧ ∃ pos,
      contentInfoAt authSafe cursor.pos = .ok (none, pos) ∧
        item = .encrypted ∧ next = ⟨pos, [], 0, 0⟩) ∨
    (¬cursor.bagPos < cursor.bagsEnd ∧ cursor.pos < safeEnd ∧ ∃ safeContents bagsSeq pos,
      contentInfoAt authSafe cursor.pos = .ok (some (safeContents, bagsSeq), pos) ∧
        item = .other ∧ next = ⟨pos, safeContents, bagsSeq.end, bagsSeq.start⟩) := by
  unfold safeStep at h
  split_ifs at h with hbag hpos
  · cases hread : bagAt cursor.safeContents cursor.bagPos with
    | error reason =>
      rw [hread] at h
      cases h
    | ok bag =>
      rw [hread] at h
      cases h
      exact Or.inl ⟨hbag, _, _, rfl, rfl, rfl⟩
  · cases hread : contentInfoAt authSafe cursor.pos with
    | error reason =>
      rw [hread] at h
      cases h
    | ok info =>
      rw [hread] at h
      obtain ⟨_ | ⟨safeContents, bagsSeq⟩, pos⟩ := info
      · cases h
        exact Or.inr (Or.inl ⟨hbag, hpos, _, rfl, rfl, rfl⟩)
      · cases h
        exact Or.inr (Or.inr ⟨hbag, hpos, _, _, _, rfl, rfl, rfl⟩)

end Steps

/-- The inner loop is the part of a walk that is in the bags. -/
theorem bagsLoop_walk (pos : ℕ) (safeContents : List UInt8) (bagsEnd bagPos : ℕ)
    (certificates : List (List UInt8)) :
    match bagsLoop safeContents bagsEnd bagPos certificates with
    | .ok found => ∃ items bagPos', found = certificates ++ certificatesOf items ∧
        KeystoreItem.encrypted ∉ items ∧
        (bagsEnd ≤ bagPos' ∨ maxKeystoreCertificates ≤ found.length) ∧
        ∀ all last, CertWalk (safeStep authSafe safeEnd) certificates.length
            ⟨pos, safeContents, bagsEnd, bagPos⟩ all last ↔
          ∃ rest, all = items ++ rest ∧ CertWalk (safeStep authSafe safeEnd) found.length
            ⟨pos, safeContents, bagsEnd, bagPos'⟩ rest last
    | .error _ => ∀ items last, ¬CertWalk (safeStep authSafe safeEnd) certificates.length
        ⟨pos, safeContents, bagsEnd, bagPos⟩ items last := by
  fun_induction bagsLoop safeContents bagsEnd bagPos certificates with
  | case1 bagPos certificates hguard reason hbag =>
    exact fun items last => not_walk_of_error hguard.2 (safeStep_bag_error hguard.1 hbag)
  | case2 bagPos certificates hguard certificate next hbag hlt ih =>
    have hstep := @safeStep_bag authSafe safeEnd ⟨pos, safeContents, bagsEnd, bagPos⟩ _ _ hguard.1
      hbag
    rw [length_append_toList] at ih
    cases hrest : bagsLoop safeContents bagsEnd next (certificates ++ certificate.toList) with
    | error reason =>
      rw [hrest] at ih
      exact fun items last => not_walk_of_next hguard.2 hstep ih
    | ok found =>
      rw [hrest] at ih
      obtain ⟨items, bagPos', hfound, hplain, hstop, hiff⟩ := ih
      refine ⟨.ofCertificate certificate :: items, bagPos', ?_,
        encrypted_not_mem_cons certificate hplain, hstop, fun all last => ?_⟩
      · rw [hfound, append_certificatesOf_ofCertificate]
      · refine (walk_next_iff hguard.2 hstep).trans ?_
        constructor
        · rintro ⟨rest, rfl, hwalk⟩
          obtain ⟨rest', rfl, hrest⟩ := (hiff _ _).mp hwalk
          exact ⟨rest', rfl, hrest⟩
        · rintro ⟨rest, rfl, hwalk⟩
          exact ⟨items ++ rest, rfl, (hiff _ _).mpr ⟨rest, rfl, hwalk⟩⟩
  | case3 bagPos certificates hguard =>
    refine ⟨[], bagPos, by simp [certificatesOf], List.not_mem_nil, ?_, fun all last => by simp⟩
    by_cases hpos : bagPos < bagsEnd
    · exact Or.inr (Nat.le_of_not_lt fun h => hguard ⟨hpos, h⟩)
    · exact Or.inl (Nat.le_of_not_lt hpos)

/-- The outer loop is the whole walk, from wherever the bags before it are behind it. -/
theorem safeLoop_walk (pos : ℕ) (certificates : List (List UInt8)) (sawEncrypted : Bool)
    (cursor : SafeCursor) (hpos : cursor.pos = pos)
    (hbags : cursor.bagsEnd ≤ cursor.bagPos ∨ maxKeystoreCertificates ≤ certificates.length) :
    match safeLoop authSafe safeEnd pos certificates sawEncrypted with
    | .ok (found, saw) => ∃ items last,
        CertWalk (safeStep authSafe safeEnd) certificates.length cursor items last ∧
          found = certificates ++ certificatesOf items ∧
          (saw = true ↔ sawEncrypted = true ∨ KeystoreItem.encrypted ∈ items)
    | .error _ => ∀ items last,
        ¬CertWalk (safeStep authSafe safeEnd) certificates.length cursor items last := by
  fun_induction safeLoop authSafe safeEnd pos certificates sawEncrypted generalizing cursor with
  | case1 pos certificates sawEncrypted hguard reason hcontent =>
    subst hpos
    have hstep := @safeStep_contentInfo authSafe safeEnd cursor (by omega) hguard.1
    rw [hcontent] at hstep
    exact fun items last => not_walk_of_error hguard.2 hstep
  | case2 pos certificates sawEncrypted hguard next hcontent hlt ih =>
    subst hpos
    have hstep := @safeStep_contentInfo authSafe safeEnd cursor (by omega) hguard.1
    rw [hcontent] at hstep
    have ih := ih ⟨next, [], 0, 0⟩ rfl (Or.inl (Nat.le_refl _))
    cases hrest : safeLoop authSafe safeEnd next certificates true with
    | error reason =>
      rw [hrest] at ih
      exact fun items last => not_walk_of_next hguard.2 hstep ih
    | ok result =>
      rw [hrest] at ih
      obtain ⟨items, last, hwalk, hfound, hsaw⟩ := ih
      exact ⟨_, last, .next hguard.2 hstep hwalk, hfound, by simp [hsaw]⟩
  | case3 pos certificates sawEncrypted hguard safeContents bagsSeq next hcontent hlt reason
      hloop =>
    subst hpos
    have hstep := @safeStep_contentInfo authSafe safeEnd cursor (by omega) hguard.1
    rw [hcontent] at hstep
    have hbagsLoop := bagsLoop_walk authSafe safeEnd next safeContents bagsSeq.end bagsSeq.start
      certificates
    rw [hloop] at hbagsLoop
    exact fun items last => not_walk_of_next hguard.2 hstep hbagsLoop
  | case4 pos certificates sawEncrypted hguard safeContents bagsSeq next hcontent hlt found hloop
      ih =>
    subst hpos
    have hstep := @safeStep_contentInfo authSafe safeEnd cursor (by omega) hguard.1
    rw [hcontent] at hstep
    have hbagsLoop := bagsLoop_walk authSafe safeEnd next safeContents bagsSeq.end bagsSeq.start
      certificates
    rw [hloop] at hbagsLoop
    obtain ⟨bags, bagPos', hfound, hplain, hstop, hiff⟩ := hbagsLoop
    have ih := ih ⟨next, safeContents, bagsSeq.end, bagPos'⟩ rfl hstop
    cases hrest : safeLoop authSafe safeEnd next found sawEncrypted with
    | error reason =>
      rw [hrest] at ih
      refine fun items last => not_walk_of_next hguard.2 hstep fun rest last hwalk => ?_
      obtain ⟨rest', -, hwalk⟩ := (hiff _ _).mp hwalk
      exact ih rest' last hwalk
    | ok result =>
      rw [hrest] at ih
      obtain ⟨items, last, hwalk, hresult, hsaw⟩ := ih
      refine ⟨.other :: (bags ++ items), last,
        .next hguard.2 hstep ((hiff _ _).mpr ⟨items, rfl, hwalk⟩), ?_, by simp [hsaw, hplain]⟩
      rw [hresult, hfound, certificatesOf_cons, certificatesOf_append, List.append_assoc]
      rfl
  | case5 pos certificates sawEncrypted hguard =>
    subst hpos
    refine ⟨[], cursor, .stop ?_, by simp [certificatesOf], by simp⟩
    by_cases hcap : certificates.length < maxKeystoreCertificates
    · exact Or.inl (safeStep_eq_none (by omega) (by omega))
    · exact Or.inr (Nat.le_of_not_lt hcap)

end Pkcs12
end Portcall.Net
