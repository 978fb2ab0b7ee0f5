import Greenlight.Signer.Issue

/-!
# Upgrading credentials

`Device::upgrade` of `credentials.rs` gives a device without a rune one for the node id in the name of its
certificate, where registration and recovery ask for one for the public key of the certificate.  The signer compares a
rune with the key of the request, so the upgraded credentials work exactly if the certificate names no node id, and
the upgrade fails, or names its own public key for it (`upgradeWorks_iff`).
-/

namespace Greenlight

open Greenlight.Lib Greenlight.Runes

/-- The crates `x509_certificate` and `hex`, as far as they are used here. -/
structure X509 where
  Certificate : Type
  /-- `X509Certificate::from_pem`; its error is only logged. -/
  fromPem : Bytes → Option Certificate
  subjectCommonName : Certificate → Option String
  /-- The public key of the certificate, `public_key_raw`. -/
  publicKey : Certificate → Bytes
  /-- The text of the error of `hex::decode`. -/
  hexError : String → String

/-- `credentials::Error`. -/
inductive CredentialsError where
  | getFromIdentity (e : String)
  | upgradeCredentials (e : String)
  deriving DecidableEq, Repr

def CredentialsError.toString : CredentialsError → String
  | getFromIdentity e => "could not get from identity: " ++ e
  | upgradeCredentials e => "could not upgrade credentials: " ++ e

def credVersion : UInt32 := 1

structure Device where
  version : UInt32
  cert : Bytes
  key : Bytes
  ca : Bytes
  rune : String
  deriving DecidableEq, Repr

/-- `get_node_id_from_tls_config`, of the certificate of the configuration. -/
def getNodeIdFromTlsConfig (x509 : X509) (x509Cert : Option x509.Certificate) : Except String Bytes :=
  match x509Cert with
  | none => .error "The certificate could not be parsed in the x509 format"
  | some x =>
    match x509.subjectCommonName x with
    | none => .error "Failed to parse the subject common name in the provided x509 certificate"
    | some cn =>
      match split cn '/' with
      | _ :: users :: nodeId :: _ =>
        if users ≠ "users" then .error ("Not a users certificate: " ++ cn)
        else
          match hexDecode nodeId with
          | none => .error ("Unable to decode node_id (" ++ nodeId ++ "): " ++ x509.hexError nodeId)
          | some id => .ok id
      | _ => .error ("Could not parse subject common name: " ++ cn)

namespace Device

def nodeId (x509 : X509) (device : Device) : Except CredentialsError Bytes :=
  (getNodeIdFromTlsConfig x509 (x509.fromPem device.cert)).mapError fun _ =>
    .getFromIdentity "node_id could not be retrieved from the certificate"

def upgrade (x509 : X509) (s : Signer) (b : RuneBuilder s.runeauth) (encode : Alternative → String)
    (device : Device) : Except CredentialsError Device := do
  let device := { device with version := credVersion }
  if device.rune = "" then
    let nodeId ← (device.nodeId x509).mapError fun e => .upgradeCredentials e.toString
    let rune ← (s.runeFor b encode nodeId).mapError .upgradeCredentials
    return { device with rune := rune }
  else return device

variable {x509 : X509} {device : Device}

theorem exists_cert_of_nodeId {id : Bytes} (h : device.nodeId x509 = .ok id) :
    ∃ cert, x509.fromPem device.cert = some cert := by
  cases hcert : x509.fromPem device.cert with
  | none =>
    rw [nodeId, hcert] at h
    cases h
  | some cert => exact ⟨cert, rfl⟩

theorem upgrade_of_error {s : Signer} {b : RuneBuilder s.runeauth} {encode : Alternative → String}
    (hrune : device.rune = "") {e : CredentialsError} (h : device.nodeId x509 = .error e) :
    device.upgrade x509 s b encode = .error (.upgradeCredentials e.toString) := by
  have hid : nodeId x509 { device with version := credVersion } = .error e := h
  rw [upgrade, if_pos hrune, hid]
  rfl

theorem upgrade_of_ok {s : Signer} {b : RuneBuilder s.runeauth} {encode : Alternative → String}
    (hrune : device.rune = "") {id : Bytes} (h : device.nodeId x509 = .ok id) {rune : String}
    (hissue : s.runeFor b encode id = .ok rune) :
    device.upgrade x509 s b encode = .ok { device with version := credVersion, rune := rune } := by
  have hid : nodeId x509 { device with version := credVersion } = .ok id := h
  rw [upgrade, if_pos hrune, hid]
  dsimp only [Except.mapError, bind, Except.bind]
  rw [hissue]
  rfl

end Device

/-- The signer accepts the rune in every request from the key, for every method of its services. -/
def Signer.AcceptsFrom (s : Signer) (rune : String) (key : Bytes) : Prop :=
  ∀ (now : ℤ) (p : PendingRequest) (service method : String), p.pubkey = key → s.urlSafeEncode p.rune = rune →
    p.Calls service method → s.verifyRune now p = .ok ()

/-- The rune of registration and recovery works: it is one for the key of the certificate. -/
def Signer.RegistrationWorks (s : Signer) (x509 : X509) (b : RuneBuilder s.runeauth) (encode : Alternative → String)
    (cert : x509.Certificate) : Prop :=
  ∀ rune, s.runeFor b encode (x509.publicKey cert) = .ok rune → s.AcceptsFrom rune (x509.publicKey cert)

/-- The rune of the upgraded credentials works with the key of their certificate. -/
def Device.UpgradeWorks (x509 : X509) (s : Signer) (b : RuneBuilder s.runeauth) (encode : Alternative → String)
    (device : Device) : Prop :=
  ∀ upgraded, device.upgrade x509 s b encode = .ok upgraded →
    ∀ cert, x509.fromPem upgraded.cert = some cert → s.AcceptsFrom upgraded.rune (x509.publicKey cert)

section Works

variable {x509 : X509} {s : Signer} {b : RuneBuilder s.runeauth} {encode : Alternative → String}
  (hkeys : ∀ cert, x509.publicKey cert ≠ []) (halt : b.BuildsAlternatives) (hencode : EncodesEqual encode)
  (hissues : s.IssuesRunes) (hcodec : s.runeauth.Base64RoundTrip) (hnew : s.runeauth.NewKeepsRestrictions)
  (hadds : s.runeauth.NewAddsOnlyId) (hread : s.runeauth.ReadsEqual) (hcheck : s.runeauth.ChecksRestrictions)
  (heq : s.runeauth.EqualIsIdentity) (hpass : s.runeauth.IdentityPassesEqual)

include hissues hcodec hnew hadds hcheck heq hpass

/-- There are requests with the rune, and they are all accepted exactly from the key it is for. -/
theorem Signer.acceptsFrom_iff {key key' : Bytes} {rune : s.runeauth.Rune} (hissued : s.Issued key rune)
    (hthere : key' ≠ []) : s.AcceptsFrom (s.runeauth.toBase64 rune) key' ↔ key' = key := by
  constructor
  · intro haccepts
    obtain ⟨bytes, hbytes⟩ := hissues.encodes rune
    let p : PendingRequest := ⟨[], "/cln.Node/Getinfo", [], key', 0, bytes⟩
    have hcalls : p.Calls "cln.Node" "Getinfo" := ⟨Or.inl rfl, rfl⟩
    exact (verifyRune_issued_iff hissues hcodec hnew hadds hcheck heq hpass hissued hbytes hcalls hthere).1
      (haccepts 0 p _ _ rfl hbytes hcalls)
  · rintro rfl now p service method rfl hrune hcalls
    exact (verifyRune_issued_iff hissues hcodec hnew hadds hcheck heq hpass hissued hrune hcalls hthere).2 rfl

include hkeys halt hencode hread

theorem Signer.registrationWorks (cert : x509.Certificate) : s.RegistrationWorks x509 b encode cert := by
  intro rune hrune
  obtain ⟨issued, hissued, heq'⟩ := runeFor_eq_ok hissues halt hencode hread (x509.publicKey cert)
  obtain rfl := Except.ok.inj (heq'.symm.trans hrune)
  exact (acceptsFrom_iff hissues hcodec hnew hadds hcheck heq hpass hissued (hkeys cert)).2 rfl

/-- **Upgraded credentials work** exactly if the certificate names no node id or its public key is the node id, while
the rune of a registration always works. -/
theorem Device.upgradeWorks_iff (device : Device) (hrune : device.rune = "") :
    (∀ cert, s.RegistrationWorks x509 b encode cert) ∧
    (device.UpgradeWorks x509 s b encode ↔
      (∃ e, device.nodeId x509 = .error e) ∨
        ∃ cert, x509.fromPem device.cert = some cert ∧ device.nodeId x509 = .ok (x509.publicKey cert)) := by
  refine ⟨Signer.registrationWorks hkeys halt hencode hissues hcodec hnew hadds hread hcheck heq hpass, ?_⟩
  cases hid : device.nodeId x509 with
  | error e =>
    -- without a node id there is no upgraded device
    refine iff_of_true (fun upgraded hupgrade => ?_) (Or.inl ⟨e, rfl⟩)
    cases (upgrade_of_error hrune hid).symm.trans hupgrade
  | ok id =>
    -- the rune is for the node id, and works exactly for the key of the certificate
    obtain ⟨rune, hissued, hissue⟩ := Signer.runeFor_eq_ok hissues halt hencode hread id
    have hupgrade := upgrade_of_ok hrune hid hissue
    constructor
    · intro hworks
      obtain ⟨cert, hcert⟩ := exists_cert_of_nodeId hid
      have haccepts := hworks _ hupgrade cert hcert
      have hkey := (Signer.acceptsFrom_iff hissues hcodec hnew hadds hcheck heq hpass hissued (hkeys cert)).1 haccepts
      exact Or.inr ⟨cert, hcert, congrArg Except.ok hkey.symm⟩
    · rintro (⟨e, he⟩ | ⟨cert, hcert, hkey⟩) upgraded hupgrade' cert' hcert'
      · cases he
      · obtain rfl := Except.ok.inj (hupgrade.symm.trans hupgrade')
        obtain rfl := Option.some.inj (hcert.symm.trans hcert')
        obtain rfl := Except.ok.inj hkey
        exact (Signer.acceptsFrom_iff hissues hcodec hnew hadds hcheck heq hpass hissued (hkeys cert)).2 rfl

end Works

/-! ### A device of the node `02` -/

/-- A certificate is the two bytes of its point, with its name behind them in UTF-8. -/
def X509.plain : X509 where
  Certificate := UInt8 × UInt8 × String
  fromPem
    | x :: y :: name => (String.fromUTF8? ⟨name.toArray⟩).map (x, y, ·)
    | _ => none
  subjectCommonName cert := some cert.2.2
  publicKey cert := [4, cert.1, cert.2.1]
  hexError _ := "Odd number of digits"

theorem X509.publicKey_plain_ne_nil (cert : X509.plain.Certificate) : X509.plain.publicKey cert ≠ [] :=
  List.cons_ne_nil _ _

def oldDevice : Device where
  version := 0
  cert := 0x11 :: 0x22 :: utf8 "/users/02/default"
  key := []
  ca := []
  rune := ""

theorem fromPem_oldDevice : X509.plain.fromPem oldDevice.cert = some (0x11, 0x22, "/users/02/default") := by
  have hname := fromUTF8_utf8 "/users/02/default"
  dsimp only [X509.plain, oldDevice]
  rw [hname]
  rfl

theorem nodeId_oldDevice : oldDevice.nodeId X509.plain = .ok Signer.printable.id := by
  rw [Device.nodeId, fromPem_oldDevice]
  decide +kernel

theorem Device.upgradeWorks_iff_old :
    (∀ cert, Signer.printable.RegistrationWorks X509.plain .printable Plain.encodeAlternative cert) ∧
    (oldDevice.UpgradeWorks X509.plain Signer.printable .printable Plain.encodeAlternative ↔
      (∃ e, oldDevice.nodeId X509.plain = .error e) ∨
        ∃ cert, X509.plain.fromPem oldDevice.cert = some cert ∧
          oldDevice.nodeId X509.plain = .ok (X509.plain.publicKey cert)) :=
  Device.upgradeWorks_iff X509.publicKey_plain_ne_nil RuneBuilder.buildsAlternatives_printable
    Signer.encodesEqual_plain Signer.issuesRunes_printable Runeauth.base64RoundTrip_printable
    Runeauth.newKeepsRestrictions_printable Runeauth.newAddsOnlyId_printable Runeauth.readsEqual_printable
    Runeauth.checksRestrictions_printable Runeauth.equalIsIdentity_printable
    Runeauth.identityPassesEqual_printable oldDevice rfl

/-- The upgrade gives the device the rune `K:=0-gl0&pubkey=02`, with which the signer of its node refuses its calls. -/
theorem upgradeWorks_oldDevice :
    oldDevice.nodeId X509.plain = .ok Signer.printable.id ∧
    oldDevice.upgrade X509.plain Signer.printable .printable Plain.encodeAlternative =
        .ok { oldDevice with version := credVersion, rune := "K:=0-gl0&pubkey=02" } ∧
    ¬ oldDevice.UpgradeWorks X509.plain Signer.printable .printable Plain.encodeAlternative := by
  have hissue : Signer.printable.runeFor .printable Plain.encodeAlternative [2] =
      .ok "K:=0-gl0&pubkey=02" := by decide +kernel
  have hupgrade := Device.upgrade_of_ok (s := Signer.printable) rfl nodeId_oldDevice hissue
  refine ⟨nodeId_oldDevice, hupgrade, fun hworks => ?_⟩
  let p : PendingRequest := ⟨[], "/cln.Node/Getinfo", [], [4, 0x11, 0x22], 0, utf8 "K:=0-gl0&pubkey=02"⟩
  have hrune : Signer.printable.urlSafeEncode p.rune = "K:=0-gl0&pubkey=02" := Signer.urlSafeEncode_utf8 _
  have hverify : Signer.printable.verifyRune 0 p = .ok () :=
    hworks _ hupgrade _ fromPem_oldDevice 0 p "cln.Node" "Getinfo" rfl hrune ⟨Or.inl rfl, rfl⟩
  have hrefused : Signer.printable.verifyRune 0 p = .error "a restriction is not met" := by
    rw [Signer.verifyRune, hrune]
    decide +kernel
  cases hrefused.symm.trans hverify

end Greenlight
