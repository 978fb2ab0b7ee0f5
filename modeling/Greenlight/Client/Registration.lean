import Greenlight.Client.Envelope
import Greenlight.Lib.Protobuf
import Greenlight.Pairing.Protocol

/-!
# Registration and recovery

`inner_register` and `recover` of `scheduler.rs`.  The signer signs a challenge of the scheduler, the device generates
a key pair and has its certificate signed, and the signer makes a rune for the public key of this pair.  Private key,
certificate and rune go into the credentials, from which a client of the node is made.

An old backend returns a private key of its own, which replaces that of the device in the credentials, and not in the
rune.  So the signer accepts the calls of the client exactly if its key is the generated one, as it is with a backend
that only signs (`enrolled_accepts_iff`).  No challenge makes a recovery panic: only one of 32 bytes is signed, so
that its first eight can be taken for the name of the device.  A configured certificate authority that cannot be read
does, when the scheduler has already taken the recovery (`recover_succeeds_iff`).
-/

namespace Greenlight

open Greenlight.Lib Greenlight.Runes

/-! ### Credentials as bytes -/

/-- `model::Data` of `credentials.rs`. -/
structure CredentialsData where
  version : UInt32
  cert : Option Bytes
  key : Option Bytes
  ca : Option Bytes
  rune : Option String
  deriving DecidableEq, Repr

/-- The protobuf form of the data. -/
structure DataCodec where
  encode : CredentialsData → Bytes
  decode : Bytes → Except String CredentialsData

def DataCodec.RoundTrip (codec : DataCodec) : Prop := ∀ data, codec.decode (codec.encode data) = .ok data

namespace Device

/-- `with`, of what `load_file_or_default` reads of `GL_CA_CRT`.  `none` is a panic, on a file that cannot be read. -/
def withIdentity (loadCa : Except String Bytes) (cert key : Bytes) (rune : String) : Option Device :=
  loadCa.toOption.map fun ca => { version := credVersion, cert := cert, key := key, ca := ca, rune := rune }

def toBytes (codec : DataCodec) (device : Device) : Bytes :=
  codec.encode
    { version := credVersion
      cert := some device.cert
      key := some device.key
      ca := some device.ca
      rune := some device.rune }

/-- `from_bytes`, with the default credentials for what is not there. -/
def fromBytes (codec : DataCodec) (default : Device) (data : Bytes) : Device :=
  match codec.decode data with
  | .error _ => default
  | .ok data =>
    { version := data.version
      cert := data.cert.getD default.cert
      key := data.key.getD default.key
      ca := data.ca.getD default.ca
      rune := data.rune.getD default.rune }

theorem fromBytes_toBytes {codec : DataCodec} (hcodec : codec.RoundTrip) (default device : Device) :
    fromBytes codec default (device.toBytes codec) = { device with version := credVersion } := by
  rw [fromBytes, toBytes, hcodec]
  rfl

end Device

/-- A field sets what it is the number of; others are skipped. -/
def CredentialsData.merge (data : CredentialsData) (f : Protobuf.Field) : Except String CredentialsData :=
  match f.number, f.value with
  | 1, .varint n => .ok { data with version := UInt32.ofNat n }
  | 2, .bytes b => .ok { data with cert := some b }
  | 3, .bytes b => .ok { data with key := some b }
  | 4, .bytes b => .ok { data with ca := some b }
  | 5, .bytes b =>
    match String.fromUTF8? ⟨b.toArray⟩ with
    | some rune => .ok { data with rune := some rune }
    | none => .error "invalid string value: data is not UTF-8 encoded"
  | 1, _ | 2, _ | 3, _ | 4, _ | 5, _ => .error "invalid wire type"
  | _, _ => .ok data

theorem CredentialsData.merge_rune (data : CredentialsData) (rune : String) :
    data.merge ⟨5, .bytes (utf8 rune)⟩ = .ok { data with rune := some rune } := by
  show (match String.fromUTF8? ⟨(utf8 rune).toArray⟩ with
    | some rune => Except.ok { data with rune := some rune }
    | none => .error "invalid string value: data is not UTF-8 encoded") = _
  rw [fromUTF8_utf8]

/-- The numbers of the fields are the tags of the data. -/
def DataCodec.protobuf : DataCodec where
  encode data := Protobuf.encodeFields (
    (if data.version = 0 then [] else [⟨1, .varint data.version.toNat⟩]) ++
    data.cert.toList.map (⟨2, .bytes ·⟩) ++ data.key.toList.map (⟨3, .bytes ·⟩) ++
    data.ca.toList.map (⟨4, .bytes ·⟩) ++ data.rune.toList.map fun rune => ⟨5, .bytes (utf8 rune)⟩)
  decode b :=
    match Protobuf.decodeFields b with
    | none => .error "failed to decode Protobuf message"
    | some fields => fields.foldlM CredentialsData.merge ⟨0, none, none, none, none⟩

theorem DataCodec.roundTrip_protobuf : DataCodec.protobuf.RoundTrip := by
  rintro ⟨version, cert, key, ca, rune⟩
  dsimp only [protobuf]
  rw [Protobuf.decodeFields_encodeFields]
  dsimp only
  rw [List.foldlM_append, List.foldlM_append, List.foldlM_append, List.foldlM_append]
  have hversion : (if version = 0 then [] else [(⟨1, .varint version.toNat⟩ : Protobuf.Field)]).foldlM
      CredentialsData.merge ⟨0, none, none, none, none⟩ = .ok ⟨version, none, none, none, none⟩ := by
    split_ifs with hzero
    · rw [hzero]
      rfl
    · show Except.ok (⟨UInt32.ofNat version.toNat, none, none, none, none⟩ : CredentialsData) = _
      rw [UInt32.ofNat_toNat]
  rw [hversion]
  refine bind_eq_ok.2 ⟨⟨version, cert, key, ca, none⟩, by cases cert <;> cases key <;> cases ca <;> rfl, ?_⟩
  cases rune with
  | none => rfl
  | some rune => exact bind_eq_ok.2 ⟨_, CredentialsData.merge_rune _ rune, rfl⟩

/-- The credentials of the unit test. -/
example : DataCodec.protobuf.decode [8, 1, 18, 2, 99, 98, 26, 2, 97, 96, 34, 2, 95, 94, 42, 19, 110, 111, 110, 95, 102,
      117, 110, 99, 116, 105, 111, 110, 97, 108, 95, 114, 117, 110, 101] =
    .ok ⟨1, some [99, 98], some [97, 96], some [95, 94], some "non_functional_rune"⟩ := by decide +kernel

/-! ### What the signer signs -/

/-- VLS, as far as it signs messages: whether there is a handler, and its response to a message, if it has one. -/
structure MessageSigner where
  handler : Except String Unit
  handle : Bytes → Option Bytes

namespace MessageSigner

/-- `sign_message`: the signature and the recovery id.  `none` is a panic, without a response or on one that is too
short. -/
def signMessage (vls : MessageSigner) (msg : Bytes) : Option (Except String (Bytes × UInt8)) :=
  if UInt16.size ≤ msg.length then some (.error "Message exceeds max len of 65535")
  else
    match vls.handler with
    | .error e => some (.error e)
    | .ok () =>
      match vls.handle msg with
      | none => none
      | some completeSig => completeSig[66]?.map fun recoveryId => .ok ((completeSig.take 66).drop 2, recoveryId)

def signChallenge (vls : MessageSigner) (challenge : Bytes) : Option (Except String Bytes) :=
  if challenge.length ≠ 32 then some (.error "challenge is not 32 bytes long")
  else (vls.signMessage challenge).map (·.map Prod.fst)

/-- The handler is there, and it signs every message: a type, a signature and a recovery id. -/
structure Signs (vls : MessageSigner) (sign : Bytes → Bytes) : Prop where
  handler : vls.handler = .ok ()
  handle : ∀ msg, ∃ type recoveryId, type.length = 2 ∧ (sign msg).length = 64 ∧
    vls.handle msg = some (type ++ sign msg ++ [recoveryId])

theorem signMessage_eq {vls : MessageSigner} {sign : Bytes → Bytes} (h : vls.Signs sign) {msg : Bytes}
    (hlen : msg.length < UInt16.size) : ∃ recoveryId, vls.signMessage msg = some (.ok (sign msg, recoveryId)) := by
  obtain ⟨type, recoveryId, htype, hsig, hhandle⟩ := h.handle msg
  have hboth : (type ++ sign msg).length = 66 := by rw [List.length_append]; omega
  refine ⟨recoveryId, ?_⟩
  simp only [signMessage, if_neg (Nat.not_le.2 hlen), h.handler, hhandle]
  rw [List.getElem?_append_right (by omega), hboth, List.take_left' hboth, List.drop_left' htype]
  rfl

theorem signChallenge_eq {vls : MessageSigner} {sign : Bytes → Bytes} (h : vls.Signs sign) (challenge : Bytes) :
    vls.signChallenge challenge = some (if challenge.length = 32 then .ok (sign challenge)
      else .error "challenge is not 32 bytes long") := by
  unfold signChallenge
  by_cases hlen : challenge.length = 32
  · have hfits : challenge.length < UInt16.size := by rw [hlen]; decide
    obtain ⟨recoveryId, hsign⟩ := signMessage_eq h hfits
    rw [if_neg (not_not.2 hlen), if_pos hlen, hsign]
    rfl
  · rw [if_pos hlen, if_neg hlen]

end MessageSigner

/-! ### The calls of the scheduler -/

inductive ChallengeScope where
  | register
  | recover
  deriving DecidableEq, Repr

/-- A message that lightningd asks for when it starts, and the response. -/
structure StartupMessage where
  request : Bytes
  response : Bytes
  deriving DecidableEq, Repr

structure RegistrationRequest where
  nodeId : Bytes
  bip32Key : Bytes
  network : String
  challenge : Bytes
  signature : Bytes
  signerProto : String
  initMsg : Bytes
  csr : Bytes
  inviteCode : String
  startupmsgs : List StartupMessage
  deriving DecidableEq, Repr

structure RecoveryRequest where
  challenge : Bytes
  signature : Bytes
  nodeId : Bytes
  csr : Bytes
  deriving DecidableEq, Repr

/-- `RegistrationResponse` and `RecoveryResponse`, which have the same fields. -/
structure EnrolmentResponse where
  deviceCert : String
  deviceKey : String
  rune : String
  creds : Bytes
  deriving DecidableEq, Repr

/-- The scheduler, as a client sees it. -/
structure SchedulerService where
  getChallenge : ChallengeScope → Bytes → Except String Bytes
  register : RegistrationRequest → Except String EnrolmentResponse
  recover : RecoveryRequest → Except String EnrolmentResponse

/-- The scheduler signs certificate requests and returns no private keys. -/
structure SchedulerService.SignsCsr (scheduler : SchedulerService) : Prop where
  register : ∀ req res, scheduler.register req = .ok res → res.deviceKey = ""
  recover : ∀ req res, scheduler.recover req = .ok res → res.deviceKey = ""

/-! ### Registration and recovery -/

/-- What a device runs on, apart from its signer and the key pair that it generates. -/
structure EnrolmentEnv (c : PairingCrates) (s : Signer) where
  builder : RuneBuilder s.runeauth
  /-- `Alternative::encode`. -/
  encode : Alternative → String
  vls : MessageSigner
  /-- `serialize_private_key_pem`. -/
  privateKeyPem : c.KeyPair → String
  codec : DataCodec
  /-- `load_file_or_default` of `GL_CA_CRT`: the built-in certificate authority, or what the file named there holds. -/
  loadCa : Except String Bytes
  scheduler : SchedulerService

/-- What the signer reports of itself, `version`, `get_init`, `bip32_ext_key` and `get_startup_messages`. -/
structure SignerReport where
  version : String
  init : Bytes
  bip32ExtKey : Bytes
  startupMessages : List StartupMessage

/-- The common name of `generate_self_signed_device_cert`. -/
def deviceCommonName (nodeId device : String) : String := "/users/" ++ nodeId ++ "/" ++ device

namespace EnrolmentEnv

variable {c : PairingCrates} {s : Signer}

/-- What both calls do with the response: the private key of the device where there is none, the rune and the
credentials.  `none` is a panic. -/
def complete (env : EnrolmentEnv c s) (kp : c.KeyPair) (res : EnrolmentResponse) :
    Option (Except String EnrolmentResponse) :=
  let deviceKey := if res.deviceKey = "" then env.privateKeyPem kp else res.deviceKey
  match s.runeFor env.builder env.encode (c.publicKeyRaw kp) with
  | .error e => some (.error e)
  | .ok rune =>
    (Device.withIdentity env.loadCa (utf8 res.deviceCert) (utf8 deviceKey) rune).map fun creds =>
      .ok { res with deviceKey := deviceKey, rune := rune, creds := creds.toBytes env.codec }

/-- `inner_register`.  `none` is a panic. -/
def innerRegister (env : EnrolmentEnv c s) (report : SignerReport) (network : String) (kp : c.KeyPair)
    (inviteCode : String) : Option (Except String EnrolmentResponse) :=
  match env.scheduler.getChallenge .register s.id with
  | .error e => some (.error e)
  | .ok challenge =>
    match env.vls.signChallenge challenge with
    | none => none
    | some (.error e) => some (.error e)
    | some (.ok signature) =>
      match c.serializeRequestPem kp (deviceCommonName (hexEncode s.id) "default") ["localhost"] with
      | .error e => some (.error e)
      | .ok csr =>
        let req : RegistrationRequest :=
          { nodeId := s.id
            bip32Key := report.bip32ExtKey
            network := network
            challenge := challenge
            signature := signature
            signerProto := report.version
            initMsg := report.init
            csr := utf8 csr
            inviteCode := inviteCode
            startupmsgs := report.startupMessages }
        match env.scheduler.register req with
        | .error e => some (.error e)
        | .ok res => env.complete kp res

def register (env : EnrolmentEnv c s) (report : SignerReport) (network : String) (kp : c.KeyPair)
    (inviteCode : Option String) : Option (Except String EnrolmentResponse) :=
  env.innerRegister report network kp (inviteCode.getD "")

/-- `recover`.  `none` is a panic, as of the slice that is taken of the challenge. -/
def recover (env : EnrolmentEnv c s) (kp : c.KeyPair) : Option (Except String EnrolmentResponse) :=
  match env.scheduler.getChallenge .recover s.id with
  | .error e => some (.error e)
  | .ok challenge =>
    match env.vls.signChallenge challenge with
    | none => none
    | some (.error e) => some (.error e)
    | some (.ok signature) =>
      if challenge.length < 8 then none
      else
        let name := "recovered-" ++ hexEncode (challenge.take 8)
        match c.serializeRequestPem kp (deviceCommonName (hexEncode s.id) name) ["localhost"] with
        | .error e => some (.error e)
        | .ok csr =>
          let req : RecoveryRequest :=
            { challenge := challenge
              signature := signature
              nodeId := s.id
              csr := utf8 csr }
          match env.scheduler.recover req with
          | .error e => some (.error e)
          | .ok res => env.complete kp res

end EnrolmentEnv

/-! ### The client of the credentials -/

/-- `AuthLayer::new`: the key pair that a client signs with.  `none` is a panic, on a file without a key. -/
def authLayerNew (c : PairingCrates) (pem : Bytes) : Option (Except String c.EcdsaKeyPair) :=
  match c.pkcs8PrivateKeys pem with
  | .error e => some (.error ("Could not decode PEM string into PKCS#8 format: " ++ e))
  | .ok [] => none
  | .ok (key :: _) => some ((c.fromPkcs8 key).mapError ("Could not decide keypair from PEM string: " ++ ·))

/-- The client is one made of the credentials, and signing goes well. -/
structure AuthService.Holds (service : AuthService) (c : PairingCrates) (device : Device) : Prop where
  key : ∃ kp, authLayerNew c device.key = some (.ok kp) ∧ service.pubkey = c.publicKey kp ∧
    ∀ data, c.sign kp data = .ok (service.sign data)
  rune : service.rune = device.rune

/-- The private key of a key pair is read back with its public key. -/
def EnrolmentEnv.ReadsKey {c : PairingCrates} {s : Signer} (env : EnrolmentEnv c s) : Prop :=
  ∀ kp, ∃ ek, authLayerNew c (utf8 (env.privateKeyPem kp)) = some (.ok ek) ∧ c.publicKey ek = c.publicKeyRaw kp

/-! ### What enrolment brings -/

namespace EnrolmentEnv

variable {c : PairingCrates} {s : Signer} {env : EnrolmentEnv c s} {kp : c.KeyPair} {report : SignerReport}
  {network : String} {inviteCode : Option String} {res : EnrolmentResponse}

theorem exists_of_innerRegister {code : String} (h : env.innerRegister report network kp code = some (.ok res)) :
    ∃ req answer, env.scheduler.register req = .ok answer ∧ env.complete kp answer = some (.ok res) := by
  unfold innerRegister at h
  split at h
  · cases h
  · split at h
    · cases h
    · cases h
    · split at h
      · cases h
      · dsimp only at h
        split at h
        · cases h
        · next answer hanswer => exact ⟨_, answer, hanswer, h⟩

theorem exists_of_recover (h : env.recover kp = some (.ok res)) :
    ∃ req answer, env.scheduler.recover req = .ok answer ∧ env.complete kp answer = some (.ok res) := by
  unfold recover at h
  split at h
  · cases h
  · split at h
    · cases h
    · cases h
    · split_ifs at h
      dsimp only at h
      split at h
      · cases h
      · split at h
        · cases h
        · next answer hanswer => exact ⟨_, answer, hanswer, h⟩

variable (env) in
/-- The scheduler hands out a challenge of 32 bytes, and it takes the request with the signature of the challenge and a
certificate request in the name of its first eight bytes. -/
def TakesRecovery (kp : c.KeyPair) (sign : Bytes → Bytes) : Prop :=
  ∃ challenge pem answer, env.scheduler.getChallenge .recover s.id = .ok challenge ∧ challenge.length = 32 ∧
    c.serializeRequestPem kp (deviceCommonName (hexEncode s.id) ("recovered-" ++ hexEncode (challenge.take 8)))
      ["localhost"] = .ok pem ∧
    env.scheduler.recover ⟨challenge, sign challenge, s.id, utf8 pem⟩ = .ok answer

/-- A recovery that the scheduler takes is left with the completion of its answer; any other one ends with an error. -/
theorem recover_takesRecovery (kp : c.KeyPair) {sign : Bytes → Bytes} (hvls : env.vls.Signs sign) :
    (env.TakesRecovery kp sign ∧ ∃ answer, env.recover kp = env.complete kp answer) ∨
      (¬ env.TakesRecovery kp sign ∧ ∃ e, env.recover kp = some (.error e)) := by
  unfold recover
  cases hchallenge : env.scheduler.getChallenge .recover s.id with
  | error e =>
    refine .inr ⟨?_, e, rfl⟩
    rintro ⟨challenge, pem, answer, hthere, -⟩
    cases hchallenge.symm.trans hthere
  | ok challenge =>
    simp only [MessageSigner.signChallenge_eq hvls]
    by_cases hlen : challenge.length = 32
    -- only a challenge of 32 bytes is signed, so its first eight bytes are there
    · have hlong : ¬ challenge.length < 8 := by omega
      simp only [if_pos hlen, if_neg hlong]
      cases hpem : c.serializeRequestPem kp
          (deviceCommonName (hexEncode s.id) ("recovered-" ++ hexEncode (challenge.take 8))) ["localhost"] with
      | error e =>
        refine .inr ⟨?_, e, rfl⟩
        rintro ⟨challenge', pem, answer, hthere, -, hpem', -⟩
        obtain rfl := Except.ok.inj (hchallenge.symm.trans hthere)
        cases hpem.symm.trans hpem'
      | ok pem =>
        cases hanswer : env.scheduler.recover ⟨challenge, sign challenge, s.id, utf8 pem⟩ with
        | error e =>
          refine .inr ⟨?_, e, by simp only [hanswer]⟩
          rintro ⟨challenge', pem', answer, hthere, -, hpem', hanswer'⟩
          obtain rfl := Except.ok.inj (hchallenge.symm.trans hthere)
          obtain rfl := Except.ok.inj (hpem.symm.trans hpem')
          cases hanswer.symm.trans hanswer'
        | ok answer =>
          exact .inl ⟨⟨challenge, pem, answer, hchallenge, hlen, hpem, hanswer⟩, answer, by simp only [hanswer]⟩
    · refine .inr ⟨?_, "challenge is not 32 bytes long", by simp only [if_neg hlen]⟩
      rintro ⟨challenge', pem, answer, hthere, hlen', -⟩
      exact hlen (Except.ok.inj (hchallenge.symm.trans hthere) ▸ hlen')

section Runes

variable (halt : env.builder.BuildsAlternatives) (hencode : EncodesEqual env.encode) (hissues : s.IssuesRunes)
  (hread : s.runeauth.ReadsEqual)

include halt hencode hissues hread

variable (env) in
/-- The response is completed with a rune for the generated key, whatever key the backend returned. -/
theorem complete_eq (kp : c.KeyPair) (answer : EnrolmentResponse) : ∃ rune, s.Issued (c.publicKeyRaw kp) rune ∧
    env.complete kp answer =
      let deviceKey := if answer.deviceKey = "" then env.privateKeyPem kp else answer.deviceKey
      let b64 := s.runeauth.toBase64 rune
      (Device.withIdentity env.loadCa (utf8 answer.deviceCert) (utf8 deviceKey) b64).map fun creds =>
        .ok { answer with deviceKey := deviceKey, rune := b64, creds := creds.toBytes env.codec } := by
  obtain ⟨rune, hissued, hrune⟩ := Signer.runeFor_eq_ok hissues halt hencode hread (c.publicKeyRaw kp)
  refine ⟨rune, hissued, ?_⟩
  unfold complete
  rw [hrune]

variable (env) in
/-- **When a recovery succeeds**: exactly if the scheduler takes it and the certificate authority can be read.  Where
the scheduler takes it and the authority cannot be read there is a panic, and otherwise an error. -/
theorem recover_succeeds_iff (kp : c.KeyPair) {sign : Bytes → Bytes} (hvls : env.vls.Signs sign) :
    ((∃ res, env.recover kp = some (.ok res)) ↔ env.TakesRecovery kp sign ∧ ∃ ca, env.loadCa = .ok ca) ∧
      (env.recover kp = none ↔ env.TakesRecovery kp sign ∧ ∃ e, env.loadCa = .error e) := by
  rcases recover_takesRecovery kp hvls with ⟨htakes, answer, hrecover⟩ | ⟨htakes, e, hrecover⟩
  · obtain ⟨rune, -, hcomplete⟩ := complete_eq env halt hencode hissues hread kp answer
    rw [hrecover, hcomplete]
    cases hload : env.loadCa with
    | error e => simp [Device.withIdentity, htakes, Except.toOption]
    | ok ca => simp [Device.withIdentity, htakes, Except.toOption]
  · simp [hrecover, htakes]

/-- **What enrolment brings**: the signer accepts the calls of a client made of the credentials exactly if the key of
the client is the generated one, and it is behind a backend that only signs. -/
theorem enrolled_accepts_iff (hcodec : s.runeauth.Base64RoundTrip) (hnew : s.runeauth.NewKeepsRestrictions)
    (hadds : s.runeauth.NewAddsOnlyId) (hcheck : s.runeauth.ChecksRestrictions) (heq : s.runeauth.EqualIsIdentity)
    (hpass : s.runeauth.IdentityPassesEqual) (hverify : c.VerifiedBy s) (hcreds : env.codec.RoundTrip)
    (hkey : env.ReadsKey)
    (henrol : env.register report network kp inviteCode = some (.ok res) ∨ env.recover kp = some (.ok res))
    {default : Device} {service : AuthService} (hservice : service.Holds c (.fromBytes env.codec default res.creds)) :
    (∀ (now : ℤ) (call : ClientCall) (rune : Bytes) (p : PendingRequest) (grpc method : String),
      Arrives service call rune p → s.urlSafeEncode rune = service.rune → p.IsSigned → p.Calls grpc method →
        (s.Accepts now p ↔ service.pubkey = c.publicKeyRaw kp)) ∧
      (env.scheduler.SignsCsr → service.pubkey = c.publicKeyRaw kp) := by
  obtain ⟨answer, hsigns, hcomplete⟩ : ∃ answer,
      (env.scheduler.SignsCsr → answer.deviceKey = "") ∧ env.complete kp answer = some (.ok res) := by
    rcases henrol with h | h
    · obtain ⟨req, answer, hanswer, hcomplete⟩ := exists_of_innerRegister h
      exact ⟨answer, fun hcsr => hcsr.register req answer hanswer, hcomplete⟩
    · obtain ⟨req, answer, hanswer, hcomplete⟩ := exists_of_recover h
      exact ⟨answer, fun hcsr => hcsr.recover req answer hanswer, hcomplete⟩
  obtain ⟨issued, hissued, heqOk⟩ := complete_eq env halt hencode hissues hread kp answer
  obtain ⟨creds, hcreds', hres⟩ := Option.map_eq_some_iff.1 (heqOk.symm.trans hcomplete)
  obtain ⟨ca, -, rfl⟩ := Option.map_eq_some_iff.1 hcreds'
  obtain rfl := Except.ok.inj hres
  obtain ⟨ek, hek, hpubkey, hsign⟩ := hservice.key
  have hrune := hservice.rune
  rw [Device.fromBytes_toBytes hcreds] at hek hrune
  refine ⟨fun now call rune p grpc method harrives hencoded hsigned hcalls => ?_, fun hcsr => ?_⟩
  · have hpending : s.urlSafeEncode p.rune = s.runeauth.toBase64 issued := by rw [harrives.rune, hencoded, hrune]
    -- the rune is for the generated key, so it decides whether the key is that one
    have hrune_iff : s.verifyRune now p = .ok () ↔ p.pubkey = c.publicKeyRaw kp :=
      Signer.verifyRune_issued_iff hissues hcodec hnew hadds hcheck heq hpass hissued hpending hcalls hsigned.1
    rw [← harrives.pubkey, ← hrune_iff]
    constructor
    -- the signature of the service verifies under its own key in any case
    · exact fun haccepts => haccepts.rune
    · refine fun hok => ⟨hsigned, ?_, hok⟩
      rw [harrives.pubkey, harrives.signedData, harrives.signature, hpubkey]
      exact hverify ek _ _ (hsign _)
  · obtain ⟨ek', hek', hpublic⟩ := hkey kp
    have hsame : authLayerNew c (utf8 (env.privateKeyPem kp)) = some (.ok ek) := by
      simpa [hsigns hcsr] using hek
    rw [hpubkey, ← hpublic, Except.ok.inj (Option.some.inj (hsame.symm.trans hek'))]

end Runes

end EnrolmentEnv

/-! ### A device behind a backend without cryptography -/

/-- A private key is the public key in hex. -/
def PairingCrates.hex : PairingCrates where
  __ := PairingCrates.plain
  pkcs8PrivateKeys file :=
    match (String.fromUTF8? ⟨file.toArray⟩).bind hexDecode with
    | some key => .ok [key]
    | none => .error "no private key"

/-- VLS signs with the first bytes of the message. -/
def plainMessageSigner : MessageSigner where
  handler := .ok ()
  handle msg := some (0 :: 123 :: (msg ++ List.replicate 64 0).take 64 ++ [1])

/-- A backend that hands out the challenge of 32 times `7` and signs every certificate request. -/
def plainScheduler : SchedulerService where
  getChallenge _ _ := .ok (List.replicate 32 7)
  register _ := .ok ⟨"cert", "", "", []⟩
  recover _ := .ok ⟨"cert", "", "", []⟩

def plainEnrolment : EnrolmentEnv .hex Signer.printable where
  builder := .printable
  encode := Plain.encodeAlternative
  vls := plainMessageSigner
  privateKeyPem kp := hexEncode [4, kp]
  codec := .protobuf
  loadCa := .ok []
  scheduler := plainScheduler

namespace EnrolmentEnv

theorem signs_plainMessageSigner : plainMessageSigner.Signs fun msg => (msg ++ List.replicate 64 0).take 64 where
  handler := rfl
  handle msg := ⟨[0, 123], 1, rfl, by simp, rfl⟩

theorem authLayerNew_hex (key : Bytes) : authLayerNew .hex (utf8 (hexEncode key)) = some (.ok key) := by
  have hkeys : PairingCrates.hex.pkcs8PrivateKeys (utf8 (hexEncode key)) = .ok [key] := by
    dsimp only [PairingCrates.hex]
    rw [fromUTF8_utf8, Option.bind_some, hexDecode_hexEncode]
  rw [authLayerNew, hkeys]
  rfl

theorem verifiedBy_hex : PairingCrates.hex.VerifiedBy Signer.printable := PairingCrates.verifiedBy_printable

theorem readsKey_plainEnrolment : plainEnrolment.ReadsKey := fun kp => ⟨_, authLayerNew_hex [4, kp], rfl⟩

/-- The device with a certificate authority that cannot be read. -/
def plainEnrolmentNoCa : EnrolmentEnv .hex Signer.printable :=
  { plainEnrolment with loadCa := .error "No such file or directory (os error 2)" }

theorem takesRecovery_plainEnrolment (env : EnrolmentEnv .hex Signer.printable) (kp : UInt8)
    (henv : env.scheduler = plainScheduler) :
    env.TakesRecovery kp fun msg => (msg ++ List.replicate 64 0).take 64 := by
  unfold TakesRecovery
  rw [henv]
  exact ⟨List.replicate 32 7, _, _, rfl, rfl, rfl, rfl⟩

theorem recover_succeeds_iff_plain :
    (∃ res, plainEnrolment.recover (5 : UInt8) = some (.ok res)) ∧ plainEnrolmentNoCa.recover (5 : UInt8) = none :=
  ⟨(recover_succeeds_iff plainEnrolment RuneBuilder.buildsAlternatives_printable Signer.encodesEqual_plain
      Signer.issuesRunes_printable Runeauth.readsEqual_printable (5 : UInt8) signs_plainMessageSigner).1.2
      ⟨takesRecovery_plainEnrolment _ 5 rfl, [], rfl⟩,
    (recover_succeeds_iff plainEnrolmentNoCa RuneBuilder.buildsAlternatives_printable Signer.encodesEqual_plain
      Signer.issuesRunes_printable Runeauth.readsEqual_printable (5 : UInt8) signs_plainMessageSigner).2.2
      ⟨takesRecovery_plainEnrolment _ 5 rfl, _, rfl⟩⟩

def plainClient : AuthService where
  pubkey := [4, 5]
  sign data := [4, 5] ++ data
  rune := "K:=0-gl0&pubkey=0405"

def plainClientRequest : PendingRequest :=
  ((plainClient.call (.ofNat 9) "/cln.Node/Getinfo" [0]).toRequest (utf8 plainClient.rune) [0]).toPendingRequest

theorem enrolled_accepts_iff_plain : ∃ res,
    plainEnrolment.register ⟨"v25.05", [], [], []⟩ "regtest" (5 : UInt8) none = some (.ok res) ∧
    plainClient.Holds .hex (.fromBytes .protobuf oldDevice res.creds) ∧
    (Signer.printable.Accepts 0 plainClientRequest ↔ plainClient.pubkey = [4, 5]) := by
  let answer : EnrolmentResponse := ⟨"cert", "", "", []⟩
  obtain ⟨rune, hissued, hcomplete⟩ := complete_eq plainEnrolment RuneBuilder.buildsAlternatives_printable
    Signer.encodesEqual_plain Signer.issuesRunes_printable Runeauth.readsEqual_printable (5 : UInt8) answer
  have hregister : plainEnrolment.register ⟨"v25.05", [], [], []⟩ "regtest" (5 : UInt8) none =
      plainEnrolment.complete (5 : UInt8) answer := rfl
  rw [hcomplete] at hregister
  -- the only rune that is issued for a key is `K:=0-gl0&pubkey=<key>`
  have htext : Signer.printable.runeauth.toBase64 rune = plainClient.rune := by
    obtain rfl := (Signer.issued_printable_iff _ _).1 hissued
    show PrintableRune.toText (Signer.printableRuneFor [4, 5]) = _
    decide +kernel
  have hholds : plainClient.Holds .hex (.fromBytes .protobuf oldDevice
      (Device.toBytes .protobuf ⟨credVersion, utf8 "cert", utf8 (hexEncode [4, 5]), [],
        Signer.printable.runeauth.toBase64 rune⟩)) := by
    rw [Device.fromBytes_toBytes DataCodec.roundTrip_protobuf]
    exact ⟨⟨[4, 5], authLayerNew_hex _, rfl, fun _ => rfl⟩, htext.symm⟩
  refine ⟨_, hregister, hholds, ?_⟩
  exact (enrolled_accepts_iff RuneBuilder.buildsAlternatives_printable Signer.encodesEqual_plain
    Signer.issuesRunes_printable Runeauth.readsEqual_printable Runeauth.base64RoundTrip_printable
    Runeauth.newKeepsRestrictions_printable Runeauth.newAddsOnlyId_printable Runeauth.checksRestrictions_printable
    Runeauth.equalIsIdentity_printable Runeauth.identityPassesEqual_printable verifiedBy_hex
    DataCodec.roundTrip_protobuf readsKey_plainEnrolment (.inl hregister) hholds).1 0
    (plainClient.call (.ofNat 9) "/cln.Node/Getinfo" [0]) (utf8 plainClient.rune) plainClientRequest "cln.Node"
    "Getinfo" (arrives_toRequest (by decide) (by decide) "/cln.Node/Getinfo") (Signer.urlSafeEncode_utf8 _)
    (by decide +kernel) ⟨.inl rfl, rfl⟩

end EnrolmentEnv

end Greenlight
