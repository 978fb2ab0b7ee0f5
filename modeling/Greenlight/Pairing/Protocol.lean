import Greenlight.Client.Upgrade
import Greenlight.Pairing.Exactness
import Greenlight.Signer.Mint

/-!
# Pairing a device

`pairing/new_device.rs`, `pairing/attestation_device.rs` and `process_pairing_approval`.  A new device asks for
restrictions, an old one checks what it is shown and signs it, and the signer makes the rune.  One text goes through
three readers: the old device looks for `pubkey=<id>` in it, its bytes are part of what is signed, and the signer
parses it.

Behind a backend that passes on what it gets, the pairing succeeds exactly if the new device does not name its key
again, its restrictions parse, and the old device may approve pairings (`pairing_succeeds_iff`); and then the signer
accepts from the new device exactly what it has asked for (`pairing_grants_exactly`).
-/

namespace Greenlight

open Greenlight.Lib Greenlight.Runes

/-! ### The messages -/

structure PairDeviceRequest where
  deviceId : String
  csr : Bytes
  deviceName : String
  description : String
  restrictions : String
  deriving DecidableEq, Repr

structure GetPairingDataResponse where
  deviceId : String
  csr : Bytes
  deviceName : String
  description : String
  restrictions : String
  deriving DecidableEq, Repr

/-- What a backend that stores the request of a new device shows to the old one. -/
def PairDeviceRequest.data (req : PairDeviceRequest) : GetPairingDataResponse where
  deviceId := req.deviceId
  csr := req.csr
  deviceName := req.deviceName
  description := req.description
  restrictions := req.restrictions

/-- `pairing::Error`, the kinds that the devices make. -/
inductive PairingError where
  | x509Error (e : String)
  | buildClientError (e : String)
  | credentialsError (e : CredentialsError)
  | approvePairingError (e : String)
  | verifyPairingDataError (e : String)
  deriving DecidableEq, Repr

def PairingError.toString : PairingError → String
  | x509Error e => e
  | buildClientError e => "could not build client: " ++ e
  | credentialsError e => e.toString
  | approvePairingError e => "could not approve pairing: " ++ e
  | verifyPairingDataError e => "could not verify pairing data: " ++ e

/-! ### The devices -/

/-- The crates `rcgen`, `picky`, `ring` and `rustls_pemfile`, as far as they are used.  An error is its text. -/
structure PairingCrates where
  /-- `rcgen::KeyPair`. -/
  KeyPair : Type
  /-- `public_key_raw`. -/
  publicKeyRaw : KeyPair → Bytes
  /-- `serialize_request_pem`, of the certificate of a key pair with a common name and alternative names. -/
  serializeRequestPem : KeyPair → String → List String → Except String String
  /-- The public key in a certificate request, if it is one of an elliptic curve. -/
  csrPublicKey : Bytes → Except String (Option Bytes)
  /-- `pkcs8_private_keys`. -/
  pkcs8PrivateKeys : Bytes → Except String (List Bytes)
  /-- `ring::signature::EcdsaKeyPair`. -/
  EcdsaKeyPair : Type
  /-- `EcdsaKeyPair::from_pkcs8`. -/
  fromPkcs8 : Bytes → Except String EcdsaKeyPair
  publicKey : EcdsaKeyPair → Bytes
  /-- `sign`, with some randomness. -/
  sign : EcdsaKeyPair → Bytes → Except String Bytes

/-- The text that a new device asks for: it always contains the pubkey field. -/
def pairingRestrictions (deviceId restrictions : String) : String :=
  let restriction := "pubkey=" ++ deviceId
  if restrictions ≠ "" then restriction ++ "&" ++ restrictions else restriction

/-- The name in the certificate request of a new device; the node id is not known yet. -/
def pairingCommonName (name : String) : String := "/users/" ++ hexEncode (utf8 "00") ++ "/" ++ name

/-- `pair_device` of the new device: the text of the QR code and the request. -/
def pairDevice (c : PairingCrates) (kp : c.KeyPair) (name description restrictions : String) :
    Except PairingError (String × PairDeviceRequest) := do
  let deviceId := hexEncode (c.publicKeyRaw kp)
  let csr ← (c.serializeRequestPem kp (pairingCommonName name) ["localhost"]).mapError .x509Error
  return ("gl-pairing:" ++ deviceId,
    { deviceId := deviceId
      csr := utf8 csr
      deviceName := name
      description := description
      restrictions := pairingRestrictions deviceId restrictions })

/-- `verify_pairing_data` of the old device. -/
def verifyPairingData (c : PairingCrates) (data : GetPairingDataResponse) : Except PairingError Unit :=
  match c.csrPublicKey data.csr with
  | .error e => .error (.verifyPairingDataError e)
  | .ok none => .error (.verifyPairingDataError "public key is not ecdsa")
  | .ok (some key) =>
    let pk := hexEncode key
    if pk = data.deviceId ∧ restrictionContainsPubkeyExactlyOnce data.restrictions data.deviceId then .ok ()
    else .error (.verifyPairingDataError ("device id " ++ data.deviceId ++ " does not match public key " ++ pk))

/-- What `approve_pairing` takes from the credentials of the old device. -/
structure ApproverCredentials where
  nodeId : Except CredentialsError Bytes
  /-- The private key of the TLS configuration. -/
  privateKey : Option Bytes
  rune : String

/-- `approve_pairing`, at a time in nanoseconds since the epoch: the request that is sent.  `none` is a panic, on a
file without a key. -/
def approvePairing (c : PairingCrates) (creds : ApproverCredentials) (now : ℤ)
    (deviceId deviceName restrs : String) : Option (Except PairingError ApprovePairingRequest) :=
  if now < 0 then some (.error (.approvePairingError "second time provided was later than self"))
  else
    let timestamp := UInt64.ofNat (now / 1000000000).toNat
    match creds.nodeId with
    | .error e => some (.error (.credentialsError e))
    | .ok nodeId =>
      let buf := utf8 deviceId ++ beBytes timestamp ++ nodeId ++ utf8 deviceName ++ utf8 restrs
      match creds.privateKey with
      | none => some (.error (.buildClientError "empty tls private key"))
      | some tlsKey =>
        match c.pkcs8PrivateKeys tlsKey with
        | .error e => some (.error (.approvePairingError e))
        | .ok [] => none
        | .ok (key :: _) => some do
          let kp ← (c.fromPkcs8 key).mapError .approvePairingError
          let sig ← (c.sign kp buf).mapError .approvePairingError
          return {
            deviceId := deviceId
            timestamp := timestamp
            deviceName := deviceName
            restrictions := restrs
            sig := sig
            pubkey := c.publicKey kp
            rune := creds.rune }

/-! ### What the old device looks for -/

theorem pairingRestrictions_toList (deviceId restrictions : String) :
    ∃ rest, (pairingRestrictions deviceId restrictions).toList = (searchField deviceId).toList ++ rest ∧
      rest.head? ≠ some '|' ∧
      ∀ pat : List Char, pat.head? = some 'p' → (pat <:+: rest ↔ pat <:+: restrictions.toList) := by
  by_cases hnone : restrictions = ""
  · subst hnone
    exact ⟨[], by simp [pairingRestrictions, searchField], nofun, fun pat _ => Iff.rfl⟩
  refine ⟨'&' :: restrictions.toList, ?_, by simp, fun pat hpat => ?_⟩
  · simp [pairingRestrictions, hnone, searchField]
  · -- no occurrence begins at the separator
    rw [List.infix_cons_iff, or_iff_right]
    rintro ⟨tail, htail⟩
    cases pat with
    | nil => cases hpat
    | cons c pat =>
      rw [List.head?_cons, Option.some.injEq] at hpat
      rw [hpat, List.cons_append, List.cons.injEq] at htail
      exact absurd htail.1 (by decide)

theorem searchField_hexEncode_ascii (key : Bytes) : ∀ c ∈ (searchField (hexEncode key)).toList, c.toNat < 128 := by
  have hfield : ∀ c ∈ "pubkey=".toList, c.toNat < 128 := by simp
  have hdigit : ∀ n < 16, (Nat.digitChar n).toNat < 128 := by decide
  intro c hc
  rw [searchField, String.toList_append] at hc
  rcases List.mem_append.1 hc with hc | hc
  · exact hfield c hc
  · obtain ⟨n, hn, rfl⟩ := exists_digitChar_of_mem_hexEncode hc
    exact hdigit n hn

/-- The check passes what a new device asks for exactly if its key is not named again. -/
theorem containsPubkeyExactlyOnce_pairingRestrictions (key : Bytes) (restrictions : String) :
    restrictionContainsPubkeyExactlyOnce (pairingRestrictions (hexEncode key) restrictions) (hexEncode key) = true ↔
      ¬ (searchField (hexEncode key)).toList <:+: restrictions.toList := by
  obtain ⟨rest, htext, hbar, hinfix⟩ := pairingRestrictions_toList (hexEncode key) restrictions
  have hhead : (searchField (hexEncode key)).toList.head? = some 'p' := by
    rw [searchField, String.toList_append]
    rfl
  have hne : (searchField (hexEncode key)).toList ≠ [] := fun h => by
    rw [h] at hhead
    cases hhead
  have hrest : (String.ofList rest).toList = rest := String.toList_ofList
  have hfirst : FirstBetween (pairingRestrictions (hexEncode key) restrictions).toList
      (searchField (hexEncode key)).toList "".toList (String.ofList rest).toList := by
    rw [hrest]
    exact .start htext
  have hsize : ("" ++ searchField (hexEncode key)).utf8ByteSize = ("" ++ searchField (hexEncode key)).length := by
    rw [String.empty_append]
    exact utf8ByteSize_of_ascii (searchField_hexEncode_ascii key)
  -- the key of the device comes first, and no bar stands behind it
  have hbeside : ¬ BarBeside (pairingRestrictions (hexEncode key) restrictions) "".utf8ByteSize
      ("" ++ searchField (hexEncode key)).utf8ByteSize := by
    have hlength : "".utf8ByteSize = "".length := rfl
    rw [hsize, hlength, barBeside_length_iff (eq_append_iff_toList.2 hfirst.eq), hrest, not_or]
    exact ⟨by simp, hbar⟩
  rw [containsPubkeyExactlyOnce_iff hfirst, and_iff_left hbeside, matchesCount, hfirst.countMatches hne,
    Nat.add_eq_right, countMatches_eq_zero_iff hne, hrest, hinfix _ hhead]

/-! ### What the signer reads -/

/-- What a new device asks for besides its key. -/
def requestedRestrictions (restrictions : String) : List (List String) :=
  if restrictions = "" then [] else Signer.splitRestrictions restrictions

theorem splitRestrictions_pairingRestrictions (key : Bytes) (restrictions : String) :
    Signer.splitRestrictions (pairingRestrictions (hexEncode key) restrictions) =
      ["pubkey=" ++ hexEncode key] :: requestedRestrictions restrictions := by
  -- hex has neither of the separators
  have hplain : ∀ sep ∈ ['&', '|'], sep ∉ ("pubkey=" ++ hexEncode key).toList := by
    intro sep hsep hmem
    have hseparator : ¬ sep.isAlphanum ∧ sep ∉ "pubkey=".toList := by
      simp only [List.mem_cons, List.not_mem_nil, or_false] at hsep
      rcases hsep with rfl | rfl <;> exact ⟨by decide, by decide⟩
    rw [String.toList_append] at hmem
    rcases List.mem_append.1 hmem with hmem | hmem
    · exact hseparator.2 hmem
    · exact hseparator.1 (hexEncode_isAlphanum key _ hmem)
  have hbar : split ("pubkey=" ++ hexEncode key) '|' = ["pubkey=" ++ hexEncode key] :=
    split_eq_singleton (hplain _ (by decide))
  unfold Signer.splitRestrictions requestedRestrictions pairingRestrictions
  by_cases hnone : restrictions = ""
  · rw [if_pos hnone, if_neg (not_not.2 hnone), split_eq_singleton (hplain _ (by decide)), List.map_singleton, hbar]
  · have hcut : split ("pubkey=" ++ hexEncode key ++ ("&" ++ restrictions)) '&' =
        ("pubkey=" ++ hexEncode key) :: split restrictions '&' :=
      split_append (by rw [String.toList_append]; rfl) (hplain _ (by decide))
    rw [if_neg hnone, if_pos hnone, String.append_assoc, hcut, List.map_cons, hbar]
    rfl

theorem Signer.parseRestrictions_pairing {s : Signer} (hread : s.runeauth.ReadsEqual) (key : Bytes)
    (restrictions : String) (all : List Restriction) :
    s.parseRestrictions (splitRestrictions (pairingRestrictions (hexEncode key) restrictions)) = .ok all ↔
      ∃ res, s.parseRestrictions (requestedRestrictions restrictions) = .ok res ∧
        all = keyRestriction key :: res := by
  have hkey : s.runeauth.restrictionTryFrom ("|".intercalate ["pubkey=" ++ hexEncode key]) =
      .ok (keyRestriction key) := by
    rw [String.intercalate_singleton]
    exact hread "pubkey" (hexEncode key) (by decide) isAlphanum_pubkey (hexEncode_isAlphanum key)
  rw [splitRestrictions_pairingRestrictions]
  unfold parseRestrictions
  rw [mapM_cons_eq_ok]
  constructor
  · rintro ⟨r, res, hr, hres, rfl⟩
    exact ⟨res, hres, by rw [Except.ok.inj (hr.symm.trans hkey)]⟩
  · rintro ⟨res, hres, rfl⟩
    exact ⟨_, res, hkey, hres, rfl⟩

/-- The device may approve pairings: its rune is accepted for this method. -/
def Signer.MayApprove (s : Signer) (now : ℤ) (pubkey : Bytes) (rune : String) : Prop :=
  ∃ bytes, s.urlSafeDecode rune = .ok bytes ∧
    s.verifyRune now
      { request := []
        uri := "/cln.Node/ApprovePairing"
        signature := []
        pubkey := pubkey
        timestamp := 0
        rune := bytes } = .ok ()

theorem Signer.processPairingApproval_eq_ok {s : Signer} {now : ℤ} {req : ApprovePairingRequest}
    {response : ApprovePairingResponse} :
    s.processPairingApproval now req = .ok response ↔
      s.PairingSigned req ∧ s.MayApprove now req.pubkey req.rune ∧
        ∃ rune, s.createRune none (splitRestrictions req.restrictions) = .ok rune ∧
          response = ⟨req.deviceId, s.id, rune⟩ := by
  unfold processPairingApproval PairingSigned MayApprove
  rw [guard_eq_ok, not_not]
  refine and_congr_right fun _ => ?_
  cases hdecode : s.urlSafeDecode req.rune with
  | error e => simp
  | ok bytes =>
    dsimp only
    rw [bind_eq_ok]
    constructor
    · rintro ⟨⟨⟩, hverify, h⟩
      obtain ⟨rune, hrune, h⟩ := bind_eq_ok.1 h
      exact ⟨⟨bytes, rfl, hverify⟩, rune, hrune, (Except.ok.inj h).symm⟩
    · rintro ⟨⟨bytes', hbytes, hverify⟩, rune, hrune, rfl⟩
      obtain rfl := Except.ok.inj hbytes
      exact ⟨(), hverify, bind_eq_ok.2 ⟨rune, hrune, rfl⟩⟩

/-! ### A whole pairing -/

/-- What is passed on between the devices and the signer of a pairing that succeeds. -/
structure PairingSession (c : PairingCrates) (s : Signer) (creds : ApproverCredentials) (kp : c.KeyPair)
    (name description restrictions : String) (now now' : ℤ) where
  qr : String
  request : PairDeviceRequest
  approval : ApprovePairingRequest
  response : ApprovePairingResponse
  asked : pairDevice c kp name description restrictions = .ok (qr, request)
  verified : verifyPairingData c request.data = .ok ()
  approved : approvePairing c creds now request.data.deviceId request.data.deviceName request.data.restrictions =
    some (.ok approval)
  issued : s.processPairingApproval now' approval = .ok response

/-- The certificate request of a key pair is read back with its key. -/
def PairingCrates.ReadsKey (c : PairingCrates) : Prop :=
  ∀ kp commonName names pem, c.serializeRequestPem kp commonName names = .ok pem →
    c.csrPublicKey (utf8 pem) = .ok (some (c.publicKeyRaw kp))

/-- The signer verifies what a key pair signs. -/
def PairingCrates.VerifiedBy (c : PairingCrates) (s : Signer) : Prop :=
  ∀ kp data sig, c.sign kp data = .ok sig → s.verify (c.publicKey kp) data sig

/-- The credentials are those of a device of the node, with a key that signs. -/
structure ApproverCredentials.Holds (creds : ApproverCredentials) (c : PairingCrates) (s : Signer)
    (kp : c.EcdsaKeyPair) : Prop where
  nodeId : creds.nodeId = .ok s.id
  key : ∃ file key keys, creds.privateKey = some file ∧ c.pkcs8PrivateKeys file = .ok (key :: keys) ∧
    c.fromPkcs8 key = .ok kp
  signs : ∀ data, ∃ sig, c.sign kp data = .ok sig

/-! ### Crates without cryptography -/

/-- A certificate request is the public key in hex, and a signature the key before the data. -/
def PairingCrates.plain : PairingCrates where
  KeyPair := UInt8
  publicKeyRaw kp := [4, kp]
  serializeRequestPem kp _ _ := .ok (hexEncode [4, kp])
  csrPublicKey csr :=
    match (String.fromUTF8? ⟨csr.toArray⟩).bind hexDecode with
    | some key => .ok (some key)
    | none => .error "no certificate request"
  pkcs8PrivateKeys file := .ok [file]
  EcdsaKeyPair := Bytes
  fromPkcs8 := .ok
  publicKey := id
  sign kp data := .ok (kp ++ data)

theorem PairingCrates.readsKey_plain : plain.ReadsKey := by
  rintro kp commonName names pem ⟨⟩
  dsimp only [plain]
  rw [fromUTF8_utf8, Option.bind_some, hexDecode_hexEncode]

theorem PairingCrates.verifiedBy_printable : plain.VerifiedBy Signer.printable := by
  rintro kp data sig ⟨⟩
  exact decide_eq_true rfl

/-- The device with the key `1122`, which may do everything. -/
def plainApprover : ApproverCredentials where
  nodeId := .ok Signer.printable.id
  privateKey := some [0x11, 0x22]
  rune := "K:=0-gl0&pubkey=1122"

theorem holds_plainApprover : plainApprover.Holds .plain Signer.printable ([0x11, 0x22] : Bytes) where
  nodeId := rfl
  key := ⟨_, _, [], rfl, rfl, rfl⟩
  signs _ := ⟨_, rfl⟩

theorem mayApprove_plainApprover : Signer.printable.MayApprove 7 [0x11, 0x22] plainApprover.rune := by
  refine ⟨utf8 plainApprover.rune, rfl, ?_⟩
  rw [Signer.verifyRune, Signer.urlSafeEncode_utf8]
  decide +kernel

/-- A phone with the key `0411` asks for payments. -/
abbrev PhoneSession : Type :=
  PairingSession .plain Signer.printable plainApprover (0x11 : UInt8) "phone" "" "method=pay" 5 7

section Session

variable {c : PairingCrates} {s : Signer} {creds : ApproverCredentials} {kp : c.KeyPair} {old : c.EcdsaKeyPair}
  {name description restrictions : String} {now now' : ℤ}

/-- The request of a new device whose certificate request is `pem`. -/
def deviceRequest (c : PairingCrates) (kp : c.KeyPair) (name description restrictions pem : String) :
    PairDeviceRequest where
  deviceId := hexEncode (c.publicKeyRaw kp)
  csr := utf8 pem
  deviceName := name
  description := description
  restrictions := pairingRestrictions (hexEncode (c.publicKeyRaw kp)) restrictions

theorem pairDevice_eq_ok {qr : String} {request : PairDeviceRequest} :
    pairDevice c kp name description restrictions = .ok (qr, request) ↔
      ∃ pem, c.serializeRequestPem kp (pairingCommonName name) ["localhost"] = .ok pem ∧
        qr = "gl-pairing:" ++ hexEncode (c.publicKeyRaw kp) ∧
        request = deviceRequest c kp name description restrictions pem := by
  unfold pairDevice
  rw [bind_eq_ok]
  constructor
  · rintro ⟨pem, hpem, h⟩
    obtain ⟨rfl, rfl⟩ := Prod.mk.inj (Except.ok.inj h)
    exact ⟨pem, mapError_eq_ok.1 hpem, rfl, rfl⟩
  · rintro ⟨pem, hpem, rfl, rfl⟩
    exact ⟨pem, mapError_eq_ok.2 hpem, rfl⟩

theorem verifyPairingData_eq_ok {data : GetPairingDataResponse} {key : Bytes}
    (hkey : c.csrPublicKey data.csr = .ok (some key)) :
    verifyPairingData c data = .ok () ↔
      hexEncode key = data.deviceId ∧
        restrictionContainsPubkeyExactlyOnce data.restrictions data.deviceId = true := by
  rw [verifyPairingData, hkey]
  dsimp only
  split_ifs with hcheck
  · exact iff_of_true rfl hcheck
  · exact iff_of_false nofun hcheck

/-- The old device passes the request exactly if the restrictions do not name the key again. -/
theorem verifyPairingData_deviceRequest (hcsr : c.ReadsKey) {pem : String}
    (hpem : c.serializeRequestPem kp (pairingCommonName name) ["localhost"] = .ok pem) :
    verifyPairingData c (deviceRequest c kp name description restrictions pem).data = .ok () ↔
      ¬ (searchField (hexEncode (c.publicKeyRaw kp))).toList <:+: restrictions.toList := by
  have hkey : c.csrPublicKey (deviceRequest c kp name description restrictions pem).data.csr =
      .ok (some (c.publicKeyRaw kp)) := hcsr kp _ _ pem hpem
  rw [verifyPairingData_eq_ok hkey, ← containsPubkeyExactlyOnce_pairingRestrictions]
  exact and_iff_right rfl

theorem approvePairing_eq (hold : creds.Holds c s old) (hnow : 0 ≤ now) (deviceId deviceName restrs : String) :
    ∃ approval : ApprovePairingRequest,
      approvePairing c creds now deviceId deviceName restrs = some (.ok approval) ∧
      approval.deviceId = deviceId ∧ approval.restrictions = restrs ∧ approval.pubkey = c.publicKey old ∧
      approval.rune = creds.rune ∧ c.sign old (s.pairingData approval) = .ok approval.sig := by
  obtain ⟨file, key, keys, hfile, hkeys, hkey⟩ := hold.key
  let timestamp := UInt64.ofNat (now / 1000000000).toNat
  obtain ⟨sig, hsig⟩ := hold.signs (utf8 deviceId ++ beBytes timestamp ++ s.id ++ utf8 deviceName ++ utf8 restrs)
  refine ⟨⟨deviceId, timestamp, deviceName, restrs, sig, c.publicKey old, creds.rune⟩, ?_, rfl, rfl, rfl, rfl, hsig⟩
  have hpast : ¬ now < 0 := not_lt.2 hnow
  simp only [approvePairing, if_neg hpast, hold.nodeId, hfile, hkeys]
  exact congrArg some (bind_eq_ok.2 ⟨old, mapError_eq_ok.2 hkey, bind_eq_ok.2 ⟨sig, mapError_eq_ok.2 hsig, rfl⟩⟩)

/-- What has gone through a pairing: the restrictions were not to name the key, and the signer has parsed them. -/
theorem PairingSession.outcome (x : PairingSession c s creds kp name description restrictions now now')
    (hcsr : c.ReadsKey) (hold : creds.Holds c s old) (hnow : 0 ≤ now) (hread : s.runeauth.ReadsEqual) :
    ¬ (searchField (hexEncode (c.publicKeyRaw kp))).toList <:+: restrictions.toList ∧
      s.MayApprove now' (c.publicKey old) creds.rune ∧
      ∃ res rune, s.parseRestrictions (requestedRestrictions restrictions) = .ok res ∧
        s.Minted (keyRestriction (c.publicKeyRaw kp) :: res) rune ∧
        x.response = ⟨hexEncode (c.publicKeyRaw kp), s.id, s.runeauth.toBase64 rune⟩ := by
  obtain ⟨pem, hpem, -, hrequest⟩ := pairDevice_eq_ok.1 x.asked
  have hverified := x.verified
  have happroved := x.approved
  rw [hrequest] at hverified happroved
  obtain ⟨approval, happroval, hid, hrestrictions, hpubkey, hrune, -⟩ := approvePairing_eq hold hnow
    (hexEncode (c.publicKeyRaw kp)) name (pairingRestrictions (hexEncode (c.publicKeyRaw kp)) restrictions)
  -- the approval of the session is the one that the old device makes of the request
  have hsame : approval = x.approval := Except.ok.inj (Option.some.inj (happroval.symm.trans happroved))
  obtain ⟨-, hmay, b64, hcreate, hresponse⟩ := Signer.processPairingApproval_eq_ok.1 x.issued
  rw [← hsame, hpubkey, hrune] at hmay
  rw [← hsame, hrestrictions] at hcreate
  obtain ⟨all, rune, hparse, -, hminted, rfl⟩ := Signer.createRune_eq_ok hcreate
  obtain ⟨res, hres, rfl⟩ := (Signer.parseRestrictions_pairing hread _ _ _).1 hparse
  refine ⟨(verifyPairingData_deviceRequest hcsr hpem).1 hverified, hmay, res, rune, hres, hminted, ?_⟩
  rw [hresponse, ← hsame, hid]

theorem nonempty_session (hcsr : c.ReadsKey) (hverify : c.VerifiedBy s) (hold : creds.Holds c s old) (hnow : 0 ≤ now)
    (hread : s.runeauth.ReadsEqual) (hmints : s.MintsRunes) {pem : String}
    (hpem : c.serializeRequestPem kp (pairingCommonName name) ["localhost"] = .ok pem)
    (hnamed : ¬ (searchField (hexEncode (c.publicKeyRaw kp))).toList <:+: restrictions.toList)
    {res : List Restriction} (hres : s.parseRestrictions (requestedRestrictions restrictions) = .ok res)
    (hmay : s.MayApprove now' (c.publicKey old) creds.rune) :
    Nonempty (PairingSession c s creds kp name description restrictions now now') := by
  obtain ⟨approval, happroval, -, hrestrictions, hpubkey, hrune, hsig⟩ := approvePairing_eq hold hnow
    (hexEncode (c.publicKeyRaw kp)) name (pairingRestrictions (hexEncode (c.publicKeyRaw kp)) restrictions)
  have hparse := (Signer.parseRestrictions_pairing hread (c.publicKeyRaw kp) restrictions _).2 ⟨res, hres, rfl⟩
  obtain ⟨rune, -, hcreate⟩ := Signer.createRune_minted hmints.toRunesOf ⟨_, hparse⟩ hparse
    ⟨_, List.mem_cons_self, _, List.mem_singleton_self _, rfl, rfl⟩
  have hsigned : s.PairingSigned approval := by
    unfold Signer.PairingSigned
    rw [hpubkey]
    exact hverify _ _ _ hsig
  exact ⟨{
    qr := _
    request := deviceRequest c kp name description restrictions pem
    approval := approval
    response := ⟨approval.deviceId, s.id, s.runeauth.toBase64 rune⟩
    asked := pairDevice_eq_ok.2 ⟨pem, hpem, rfl, rfl⟩
    verified := (verifyPairingData_deviceRequest hcsr hpem).2 hnamed
    approved := happroval
    issued := Signer.processPairingApproval_eq_ok.2
      ⟨hsigned, by rwa [hpubkey, hrune], _, by rwa [hrestrictions], rfl⟩ }⟩

/-- **When a pairing succeeds**, behind a backend that passes on what it gets: exactly if the new device does not name
its key again, what it asks for parses, and the old device may approve pairings. -/
theorem pairing_succeeds_iff (hcsr : c.ReadsKey) (hverify : c.VerifiedBy s) (hold : creds.Holds c s old)
    (hnow : 0 ≤ now) (hread : s.runeauth.ReadsEqual) (hmints : s.MintsRunes) {pem : String}
    (hpem : c.serializeRequestPem kp (pairingCommonName name) ["localhost"] = .ok pem) :
    Nonempty (PairingSession c s creds kp name description restrictions now now') ↔
      ¬ (searchField (hexEncode (c.publicKeyRaw kp))).toList <:+: restrictions.toList ∧
        (∃ res, s.parseRestrictions (requestedRestrictions restrictions) = .ok res) ∧
        s.MayApprove now' (c.publicKey old) creds.rune := by
  constructor
  · rintro ⟨x⟩
    obtain ⟨hnamed, hmay, res, -, hres, -⟩ := x.outcome hcsr hold hnow hread
    exact ⟨hnamed, ⟨res, hres⟩, hmay⟩
  · rintro ⟨hnamed, ⟨res, hres⟩, hmay⟩
    exact nonempty_session hcsr hverify hold hnow hread hmints hpem hnamed hres hmay

theorem pairing_succeeds_iff_pay : Nonempty PhoneSession ↔
    ¬ (searchField (hexEncode [4, 0x11])).toList <:+: "method=pay".toList ∧
      (∃ res, Signer.printable.parseRestrictions (requestedRestrictions "method=pay") = .ok res) ∧
      Signer.printable.MayApprove 7 [0x11, 0x22] plainApprover.rune :=
  pairing_succeeds_iff PairingCrates.readsKey_plain PairingCrates.verifiedBy_printable holds_plainApprover (by decide)
    Runeauth.readsEqual_printable Signer.mintsRunes_printable rfl

/-- **What a paired device may do**: the signer accepts the new rune in exactly the requests that come from the key of
the new device and meet what it has asked for. -/
theorem pairing_grants_exactly (x : PairingSession c s creds kp name description restrictions now now')
    (hcsr : c.ReadsKey) (hold : creds.Holds c s old) (hnow : 0 ≤ now) (hmints : s.MintsRunes)
    (hcodec : s.runeauth.Base64RoundTrip)
    (hnew : s.runeauth.NewKeepsRestrictions) (hadds : s.runeauth.NewAddsOnlyId) (hread : s.runeauth.ReadsEqual)
    (hcheck : s.runeauth.ChecksRestrictions) (heq : s.runeauth.EqualIsIdentity)
    (hpass : s.runeauth.IdentityPassesEqual) (hthere : c.publicKeyRaw kp ≠ []) :
    ∃ res, s.parseRestrictions (requestedRestrictions restrictions) = .ok res ∧
      ∀ (later : ℤ) (p : PendingRequest) (service method : String) (rest : List String),
        s.urlSafeEncode p.rune = x.response.rune → (split p.uri '/').tail = service :: method :: rest →
        (service = "cln.Node" ∨ service = "greenlight.Node") →
        (s.verifyRune later p = .ok () ↔
          p.pubkey = c.publicKeyRaw kp ∧
            ∀ r ∈ res, (s.runeContext later p method (some "0")).Meets s.runeauth r) := by
  obtain ⟨-, -, res, rune, hres, hminted, hresponse⟩ := x.outcome hcsr hold hnow hread
  refine ⟨res, hres, fun later p service method rest hrune huri hservice => ?_⟩
  rw [hresponse] at hrune
  -- the restriction to the key is the first of the rune, and decides who may call
  have hparse := (Signer.parseRestrictions_pairing hread (c.publicKeyRaw kp) restrictions _).2 ⟨res, hres, rfl⟩
  rw [Signer.verifyRune_minted_iff hmints.toRunesOf ⟨_, hparse⟩ hcodec hnew hadds hcheck hpass hminted
    ⟨_, List.mem_cons_self, _, List.mem_singleton_self _, rfl, rfl⟩ hrune huri hservice, List.forall_mem_cons,
    Signer.meets_keyRestriction_iff heq hpass fun _ => hthere]

theorem pairing_grants_exactly_pay : ∃ (x : PhoneSession) (res : List Restriction),
    Signer.printable.parseRestrictions (requestedRestrictions "method=pay") = .ok res ∧
      ∀ (later : ℤ) (p : PendingRequest) (service method : String) (rest : List String),
        Signer.printable.urlSafeEncode p.rune = x.response.rune →
        (split p.uri '/').tail = service :: method :: rest → (service = "cln.Node" ∨ service = "greenlight.Node") →
        (Signer.printable.verifyRune later p = .ok () ↔
          p.pubkey = [4, 0x11] ∧
            ∀ r ∈ res, (Signer.printable.runeContext later p method (some "0")).Meets .printable r) := by
  have hnamed : ¬ (searchField (hexEncode [4, 0x11])).toList <:+: "method=pay".toList := by decide +kernel
  have hres : Signer.printable.parseRestrictions (requestedRestrictions "method=pay") =
      .ok [⟨[⟨"method", .equal, "pay"⟩]⟩] := by decide +kernel
  obtain ⟨x⟩ : Nonempty PhoneSession := nonempty_session PairingCrates.readsKey_plain
    PairingCrates.verifiedBy_printable holds_plainApprover (by decide) Runeauth.readsEqual_printable
    Signer.mintsRunes_printable rfl hnamed hres mayApprove_plainApprover
  exact ⟨x, pairing_grants_exactly x PairingCrates.readsKey_plain holds_plainApprover (by decide)
    Signer.mintsRunes_printable Runeauth.base64RoundTrip_printable Runeauth.newKeepsRestrictions_printable
    Runeauth.newAddsOnlyId_printable Runeauth.readsEqual_printable Runeauth.checksRestrictions_printable
    Runeauth.equalIsIdentity_printable Runeauth.identityPassesEqual_printable (List.cons_ne_nil _ _)⟩

end Session

end Greenlight
