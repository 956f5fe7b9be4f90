import Portcall.Shared.RootIndex
import Portcall.Library.Walk

/-! Public-root classification: the walk from the leaf along issuer names, and the verdict
read off the certificates it meets. -/
namespace Portcall.Tls

inductive RootClass where
  | «public»
  | «private»
  | indeterminate
  deriving DecidableEq, Repr

inductive RootReason where
  | bundledRootOnPath
  | selfSignedAnchorNotBundled
  | issuerMatchesNoBundledRoot
  | anchorNotPresented
  deriving DecidableEq, Repr

def RootReason.text : RootReason → String
  | .bundledRootOnPath => "bundled-root-on-path"
  | .selfSignedAnchorNotBundled => "self-signed-anchor-not-bundled"
  | .issuerMatchesNoBundledRoot => "issuer-matches-no-bundled-root"
  | .anchorNotPresented => "anchor-not-presented"

structure RootVerdict where
  rootClass : RootClass
  reason : RootReason
  /-- Index of the bundled root that matched, if one did. -/
  matchedIndex : Option ℕ
  /-- Indices on the leaf's issuer-to-subject path, leaf first. -/
  path : List ℕ
  deriving DecidableEq, Repr

variable (ext : Externals)

def subjectDn (certificate : X509Certificate) : String := canonicalDn ext certificate.subjectName
def issuerDn (certificate : X509Certificate) : String := canonicalDn ext certificate.issuerName

/-- Where the walk goes from `current`: nowhere from a self-signed certificate, else to the
first unvisited certificate whose subject is the issuer. -/
def nextIndex (subjects issuers : List String) (visited : List ℕ) (current : ℕ) : Option ℕ :=
  match issuers[current]? with
  | none => none
  | some issuer =>
    if subjects[current]? = some issuer then none
    else (List.range subjects.length).find? fun index =>
      subjects[index]? = some issuer && !visited.contains index

/-- The certificates the leaf leads to, by index, leaf first. -/
def issuancePath (chain : List X509Certificate) : List ℕ :=
  let subjects := chain.map (subjectDn ext)
  let issuers := chain.map (issuerDn ext)
  if chain.isEmpty then []
  else Walk.walk (nextIndex subjects issuers) (chain.length + 1) [] 0

/-- The first index on the path, in array order, whose bytes the bundle holds. -/
def matchedIndex (chain : List X509Certificate) (roots : CertificateIndex) (path : List ℕ) :
    Option ℕ :=
  (List.range chain.length).find? fun index =>
    path.contains index &&
      (chain[index]?.map fun certificate => roots.hasCertificate certificate.rawData).getD false

/-- Classify the anchor of one presented chain, leaf first. An empty chain throws. -/
def classifyRoot (chain : List X509Certificate) (roots : CertificateIndex) :
    Throwing RootVerdict :=
  let path := issuancePath ext chain
  match matchedIndex chain roots path with
  | some index => some ⟨.public, .bundledRootOnPath, some index, path⟩
  | none =>
    match path.getLast?.bind (chain[·]?) with
    | none => none
    | some terminus =>
      if subjectDn ext terminus = issuerDn ext terminus then
        some ⟨.private, .selfSignedAnchorNotBundled, none, path⟩
      else if !roots.hasSubject (issuerDn ext terminus) then
        some ⟨.private, .issuerMatchesNoBundledRoot, none, path⟩
      else some ⟨.indeterminate, .anchorNotPresented, none, path⟩

end Portcall.Tls
