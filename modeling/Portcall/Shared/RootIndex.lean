import Portcall.Externals
import Portcall.Library.Base64
import Portcall.Library.OptionMap

/-! Certificate identity: bytes by their base64 key, names by their canonical form, and the
index of a certificate set that answers membership questions about both. -/
namespace Portcall

/-- Base64 of the DER bytes, used as the identity key. -/
def derKey (der : List UInt8) : String := String.ofList (Base64.encode der)

theorem derKey_injective : Function.Injective derKey :=
  fun _ _ h => Base64.encode_injective (String.ofList_injective h)

@[simp] lemma derKey_inj {a b : List UInt8} : derKey a = derKey b ↔ a = b :=
  derKey_injective.eq_iff

section CanonicalDn
variable (ext : Externals)

/-- Trim, collapse runs of whitespace, lower-case. -/
def normaliseAttribute (value : String) : String :=
  ext.toLowerCase (Text.collapse (Text.trim value))

/-- One attribute type with its values, `type=value*value`. -/
def canonicalAttribute (entry : String × List String) : String :=
  ext.toLowerCase entry.1 ++ "=" ++
    Text.join "*" (Text.sorted (entry.2.map (normaliseAttribute ext)))

/-- A distinguished name reduced to a comparable string: the order of the relative names is
kept, the order inside one of them is not. -/
def canonicalDn (name : Name) : String :=
  Text.join "," (name.map fun rdn =>
    Text.join "+" (Text.sorted (rdn.map (canonicalAttribute ext))))

end CanonicalDn

/-- Membership questions over an indexed certificate set. -/
structure CertificateIndex where
  size : ℕ
  hasCertificate : List UInt8 → Bool
  hasSubject : String → Bool

/-- Index a set of PEM certificates. A block that does not parse throws. -/
def certificateIndex (ext : Externals) (pems : List String) : Throwing CertificateIndex :=
  (pems.mapM ext.x509).map fun certificates =>
    { size := pems.length
      hasCertificate := fun der =>
        (certificates.map (fun certificate => derKey certificate.rawData)).contains (derKey der)
      hasSubject := fun canonicalSubject =>
        (certificates.map (fun certificate => canonicalDn ext certificate.subjectName)).contains
          canonicalSubject }

/-- The DER of a certificate among these blocks, as far as they parse. -/
def HoldsDer (ext : Externals) (pems : List String) (der : List UInt8) : Prop :=
  ∃ pem ∈ pems, ∃ certificate, ext.x509 pem = some certificate ∧ certificate.rawData = der

/-- Every one of these blocks is a certificate to the parser. -/
def AllParse (ext : Externals) (pems : List String) : Prop :=
  ∀ pem ∈ pems, (ext.x509 pem).isSome

section Index
variable {ext : Externals} {pems : List String} {roots : CertificateIndex}

/-- Indexing throws exactly when some block does not parse. -/
theorem certificateIndex_isSome_iff (ext : Externals) (pems : List String) :
    (certificateIndex ext pems).isSome ↔ AllParse ext pems := by
  rw [certificateIndex, Option.isSome_map]
  exact OptionMap.mapM_isSome_iff

lemma certificateIndex_eq_some (h : certificateIndex ext pems = some roots) :
    ∃ certificates, pems.mapM ext.x509 = some certificates ∧
      (∀ der, roots.hasCertificate der = true ↔ ∃ c ∈ certificates, c.rawData = der) ∧
      (∀ dn, roots.hasSubject dn = true ↔ ∃ c ∈ certificates, canonicalDn ext c.subjectName = dn) := by
  obtain ⟨certificates, hc, rfl⟩ := Option.map_eq_some_iff.mp h
  refine ⟨certificates, hc, fun der => ?_, fun dn => ?_⟩
  · simp
  · simp

/-- The index holds a certificate exactly when the set it was built from does. -/
theorem hasCertificate_iff (h : certificateIndex ext pems = some roots) (der : List UInt8) :
    roots.hasCertificate der = true ↔ HoldsDer ext pems der := by
  obtain ⟨certificates, hc, hder, -⟩ := certificateIndex_eq_some h
  rw [hder]
  constructor
  · rintro ⟨c, hm, rfl⟩
    obtain ⟨pem, hp, he⟩ := (OptionMap.mem_of_mapM_eq_some hc c).mp hm
    exact ⟨pem, hp, c, he, rfl⟩
  · rintro ⟨pem, hp, c, he, rfl⟩
    exact ⟨c, (OptionMap.mem_of_mapM_eq_some hc c).mpr ⟨pem, hp, he⟩, rfl⟩

end Index

section Fixture

def pemHeader : String := "-----BEGIN CERTIFICATE-----\n"
def pemFooter : String := "-----END CERTIFICATE-----"

def fixtureFirstLine : String :=
  "MIIBTjCB9aADAgECAgEEMAoGCCqGSM49BAMCMC8xLTArBgNVBAMTJFBvcnRjYWxs\n"

def fixtureOtherLines : String :=
  "IFN5bnRoZXRpYyBDZXJ0IERpciBSb290IE9uZTAeFw0yMDAxMDEwMDAwMDBaFw0z\n" ++
  "MDAxMDEwMDAwMDBaMC8xLTArBgNVBAMTJFBvcnRjYWxsIFN5bnRoZXRpYyBDZXJ0\n" ++
  "IERpciBSb290IE9uZTBZMBMGByqGSM49AgEGCCqGSM49AwEHA0IABADObKVmseon\n" ++
  "nJqt5oA8fJ/QzUXgRviwWUeUHHioN7yDdHmKjz/7gA78YZpK6OJIOPHRToXs/Rqu\n" ++
  "MR/Bsnrf9wmjAjAAMAoGCCqGSM49BAMCA0gAMEUCIClGaHzTaab5ICmbwcy2uQCK\n" ++
  "BcJ4Hq1hPLcsp6435KBfAiEAv+lZsNHE+PtPgM5tseS78dg65SmYf18Seu52EWx/\n" ++
  "8gI=\n"

/-- The certificate of `test/fixtures/truststore/runtime/ssl-cert-dir/one-root.pem`. -/
def fixturePem : String := pemHeader ++ (fixtureFirstLine ++ fixtureOtherLines) ++ pemFooter

/-- Its bytes. -/
def fixtureDer : List UInt8 :=
  [0x30, 0x82, 0x01, 0x4e, 0x30, 0x81, 0xf5, 0xa0, 0x03, 0x02, 0x01, 0x02, 0x02, 0x01, 0x04, 0x30,
    0x0a, 0x06, 0x08, 0x2a, 0x86, 0x48, 0xce, 0x3d, 0x04, 0x03, 0x02, 0x30, 0x2f, 0x31, 0x2d, 0x30,
    0x2b, 0x06, 0x03, 0x55, 0x04, 0x03, 0x13, 0x24, 0x50, 0x6f, 0x72, 0x74, 0x63, 0x61, 0x6c, 0x6c,
    0x20, 0x53, 0x79, 0x6e, 0x74, 0x68, 0x65, 0x74, 0x69, 0x63, 0x20, 0x43, 0x65, 0x72, 0x74, 0x20,
    0x44, 0x69, 0x72, 0x20, 0x52, 0x6f, 0x6f, 0x74, 0x20, 0x4f, 0x6e, 0x65, 0x30, 0x1e, 0x17, 0x0d,
    0x32, 0x30, 0x30, 0x31, 0x30, 0x31, 0x30, 0x30, 0x30, 0x30, 0x30, 0x30, 0x5a, 0x17, 0x0d, 0x33,
    0x30, 0x30, 0x31, 0x30, 0x31, 0x30, 0x30, 0x30, 0x30, 0x30, 0x30, 0x5a, 0x30, 0x2f, 0x31, 0x2d,
    0x30, 0x2b, 0x06, 0x03, 0x55, 0x04, 0x03, 0x13, 0x24, 0x50, 0x6f, 0x72, 0x74, 0x63, 0x61, 0x6c,
    0x6c, 0x20, 0x53, 0x79, 0x6e, 0x74, 0x68, 0x65, 0x74, 0x69, 0x63, 0x20, 0x43, 0x65, 0x72, 0x74,
    0x20, 0x44, 0x69, 0x72, 0x20, 0x52, 0x6f, 0x6f, 0x74, 0x20, 0x4f, 0x6e, 0x65, 0x30, 0x59, 0x30,
    0x13, 0x06, 0x07, 0x2a, 0x86, 0x48, 0xce, 0x3d, 0x02, 0x01, 0x06, 0x08, 0x2a, 0x86, 0x48, 0xce,
    0x3d, 0x03, 0x01, 0x07, 0x03, 0x42, 0x00, 0x04, 0x00, 0xce, 0x6c, 0xa5, 0x66, 0xb1, 0xea, 0x27,
    0x9c, 0x9a, 0xad, 0xe6, 0x80, 0x3c, 0x7c, 0x9f, 0xd0, 0xcd, 0x45, 0xe0, 0x46, 0xf8, 0xb0, 0x59,
    0x47, 0x94, 0x1c, 0x78, 0xa8, 0x37, 0xbc, 0x83, 0x74, 0x79, 0x8a, 0x8f, 0x3f, 0xfb, 0x80, 0x0e,
    0xfc, 0x61, 0x9a, 0x4a, 0xe8, 0xe2, 0x48, 0x38, 0xf1, 0xd1, 0x4e, 0x85, 0xec, 0xfd, 0x1a, 0xae,
    0x31, 0x1f, 0xc1, 0xb2, 0x7a, 0xdf, 0xf7, 0x09, 0xa3, 0x02, 0x30, 0x00, 0x30, 0x0a, 0x06, 0x08,
    0x2a, 0x86, 0x48, 0xce, 0x3d, 0x04, 0x03, 0x02, 0x03, 0x48, 0x00, 0x30, 0x45, 0x02, 0x20, 0x29,
    0x46, 0x68, 0x7c, 0xd3, 0x69, 0xa6, 0xf9, 0x20, 0x29, 0x9b, 0xc1, 0xcc, 0xb6, 0xb9, 0x00, 0x8a,
    0x05, 0xc2, 0x78, 0x1e, 0xad, 0x61, 0x3c, 0xb7, 0x2c, 0xa7, 0xae, 0x37, 0xe4, 0xa0, 0x5f, 0x02,
    0x21, 0x00, 0xbf, 0xe9, 0x59, 0xb0, 0xd1, 0xc4, 0xf8, 0xfb, 0x4f, 0x80, 0xce, 0x6d, 0xb1, 0xe4,
    0xbb, 0xf1, 0xd8, 0x3a, 0xe5, 0x29, 0x98, 0x7f, 0x5f, 0x12, 0x7a, 0xee, 0x76, 0x11, 0x6c, 0x7f,
    0xf2, 0x02]

/-- A name that is one common name. -/
def commonName (name : String) : Name := [[("CN", [name])]]

/-- A certificate with one common name on each side. -/
def namedCertificate (subject issuer : String) (der : List UInt8) : X509Certificate where
  rawData := der
  subject := "CN=" ++ subject
  issuer := "CN=" ++ issuer
  subjectName := commonName subject
  issuerName := commonName issuer
  serialNumber := "04"
  notBefore := 1577836800000
  notAfter := 1893456000000
  subjectAltName := none

/-- The certificate the fixture holds. -/
def fixtureRoot : X509Certificate :=
  namedCertificate "Portcall Synthetic Cert Dir Root One" "Portcall Synthetic Cert Dir Root One"
    fixtureDer

/-- The parser on the fixture; every other text is unreadable to it. -/
def fixtureExternals : Externals where
  x509 pem := if pem = fixturePem then some fixtureRoot else none
  x509Der der := if der = fixtureRoot.rawData then some fixtureRoot else none
  parseUrl _ := none
  pathJoin _ parts := Text.join "/" parts
  unicodeLower := id

def fixtureIndex : CertificateIndex where
  size := 1
  hasCertificate der := [derKey fixtureRoot.rawData].contains (derKey der)
  hasSubject dn := [canonicalDn fixtureExternals fixtureRoot.subjectName].contains dn

lemma x509_fixturePem : fixtureExternals.x509 fixturePem = some fixtureRoot := by
  simp [fixtureExternals]

lemma x509Der_fixtureDer : fixtureExternals.x509Der fixtureDer = some fixtureRoot := by
  simp [fixtureExternals, fixtureRoot, namedCertificate]

lemma certificateIndex_fixture :
    certificateIndex fixtureExternals [fixturePem] = some fixtureIndex := by
  rw [certificateIndex, List.mapM_cons, List.mapM_nil, x509_fixturePem]
  rfl

lemma hasCertificate_fixture {der : List UInt8} :
    fixtureIndex.hasCertificate der = true ↔ der = fixtureRoot.rawData := by
  simp [fixtureIndex, eq_comm]

end Fixture
end Portcall
