import Greenlight.Runes.Plain

/-!
# The runes of a signer

`create_rune` and `verify_rune` of `signer/mod.rs`.  A new rune has an alternative `pubkey=..` in some
restriction, which is what `create_rune` asks for; the public key of a request is compared with it only as far
as the other alternatives of the restrictions leave it to that (`createRune_verifyRune`).
-/

namespace Greenlight

open Greenlight.Lib Greenlight.Runes

/-- A request attached by the node, with what authorizes it. -/
structure PendingRequest where
  request : Bytes
  uri : String
  signature : Bytes
  pubkey : Bytes
  timestamp : UInt64
  rune : Bytes
  deriving DecidableEq, Repr

/-- A signer, with the functions of other crates that it calls. -/
structure Signer where
  /-- The node id. -/
  id : Bytes
  runeauth : Runeauth
  masterRune : runeauth.Rune
  /-- `general_purpose::URL_SAFE.encode`. -/
  urlSafeEncode : Bytes → String
  urlSafeDecode : String → Except String Bytes
  /-- `str::to_lowercase`. -/
  toLowercase : String → String
  /-- `UnparsedPublicKey::verify` with `ECDSA_P256_SHA256_FIXED`, of a key, the data and the signature. -/
  verify : Bytes → Bytes → Bytes → Bool

def runeVersion : String := "gl0"

namespace Signer

/-- The restrictions of a new rune, each given by its alternatives. -/
def parseRestrictions (s : Signer) (restrictions : List (List String)) : Except String (List Restriction) :=
  restrictions.mapM fun alts => s.runeauth.restrictionTryFrom ("|".intercalate alts)

def createRune (s : Signer) (rune : Option String) (restrictions : List (List String)) : Except String String :=
  match rune with
  | some rune => do
    let rune ← s.runeauth.fromBase64 rune
    return s.runeauth.toBase64 (restrictions.foldl
      (fun rune alts => (s.runeauth.addRestriction rune ("|".intercalate alts)).2) rune)
  | none => do
    let res ← s.parseRestrictions restrictions
    -- at least one restriction has a `pubkey` field set
    if res.any fun r => r.alternatives.any fun a => decide a.IsPubkey then
      let rune ← s.runeauth.new (s.runeauth.authcode s.masterRune) res (some "0") (some runeVersion)
      return s.runeauth.toBase64 rune
    else .error "Missing a restriction on the pubkey"

/-- The context `verify_rune` checks the rune of a request in. -/
def runeContext (s : Signer) (now : ℤ) (request : PendingRequest) (method : String) (uniqueId : Option String) :
    Context where
  method := s.toLowercase method
  pubkey := hexEncode request.pubkey
  time := now
  uniqueId := match uniqueId with
    | some id => id ++ "-" ++ runeVersion
    | none => ""

/-- `verify_rune`, at the time `now`. -/
def verifyRune (s : Signer) (now : ℤ) (request : PendingRequest) : Except String Unit := do
  let rune64 := s.urlSafeEncode request.rune
  let rune ← s.runeauth.fromBase64 rune64
  if ¬ containsStr (s.runeauth.toString rune) "pubkey=" then .error "rune is missing pubkey field"
  else
    match (split request.uri '/').tail with
    | [] => .error "can not extract service from uri"
    | service :: parts =>
      if service ≠ "cln.Node" ∧ service ≠ "greenlight.Node" then
        .error ("service " ++ service ++ " is not valid")
      else
        match parts with
        | [] => .error "can not extract uri form request"
        | method :: _ =>
          s.runeauth.checkWithReason s.masterRune rune64
            ((s.runeContext now request method (s.runeauth.getId rune)).checkAlternative s.runeauth)

variable {s : Signer} {now : ℤ} {p : PendingRequest}

theorem verifyRune_eq_ok (h : s.verifyRune now p = .ok ()) :
    ∃ rune service method rest, s.runeauth.fromBase64 (s.urlSafeEncode p.rune) = .ok rune ∧
      containsStr (s.runeauth.toString rune) "pubkey=" ∧
      (split p.uri '/').tail = service :: method :: rest ∧
      (service = "cln.Node" ∨ service = "greenlight.Node") ∧
      s.runeauth.checkWithReason s.masterRune (s.urlSafeEncode p.rune)
        ((s.runeContext now p method (s.runeauth.getId rune)).checkAlternative s.runeauth) = .ok () := by
  unfold verifyRune at h
  obtain ⟨rune, hrune, h⟩ := bind_eq_ok.1 h
  rw [guard_eq_ok, not_not] at h
  obtain ⟨hpubkey, h⟩ := h
  split at h
  · cases h
  · rename_i service parts hparts
    rw [guard_eq_ok] at h
    obtain ⟨hservice, h⟩ := h
    split at h
    · cases h
    · rename_i method rest
      exact ⟨rune, service, method, rest, hrune, hpubkey, hparts, by tauto, h⟩

theorem createRune_eq_ok {restrictions : List (List String)} {b64 : String}
    (h : s.createRune none restrictions = .ok b64) :
    ∃ res rune, s.parseRestrictions restrictions = .ok res ∧ (∃ r ∈ res, ∃ a ∈ r.alternatives, a.IsPubkey) ∧
      s.runeauth.new (s.runeauth.authcode s.masterRune) res (some "0") (some runeVersion) = .ok rune ∧
      b64 = s.runeauth.toBase64 rune := by
  unfold createRune at h
  obtain ⟨res, hres, h⟩ := bind_eq_ok.1 h
  split at h
  · rename_i hany
    obtain ⟨rune, hrune, h⟩ := bind_eq_ok.1 h
    simp only [List.any_eq_true, decide_eq_true_eq] at hany
    exact ⟨res, rune, hres, hany, hrune, (Except.ok.inj h).symm⟩
  · cases h

/-- **What a fresh rune demands of a request.**  Some restriction has an alternative `pubkey=..`, and in each
restriction the request either has the public key of such an alternative or meets an alternative that is
none. -/
theorem createRune_verifyRune (hnew : s.runeauth.NewKeepsRestrictions) (hcodec : s.runeauth.Base64RoundTrip)
    (hcheck : s.runeauth.ChecksRestrictions) (heq : s.runeauth.EqualIsIdentity)
    {restrictions : List (List String)} {b64 : String} (hcreate : s.createRune none restrictions = .ok b64)
    (hcarries : s.runeauth.fromBase64 (s.urlSafeEncode p.rune) = s.runeauth.fromBase64 b64)
    (hverify : s.verifyRune now p = .ok ()) :
    ∃ res method uniqueId, s.parseRestrictions restrictions = .ok res ∧
      (∃ r ∈ res, ∃ a ∈ r.alternatives, a.IsPubkey) ∧
      ∀ r ∈ res, (∃ a ∈ r.alternatives, a.IsPubkey ∧ hexEncode p.pubkey = a.value) ∨
        ∃ a ∈ r.alternatives, ¬ a.IsPubkey ∧
          (s.runeContext now p method uniqueId).checkAlternative s.runeauth a = .ok () := by
  obtain ⟨res, rune, hres, hpubkey, hrune, rfl⟩ := createRune_eq_ok hcreate
  obtain ⟨rune', _, method, _, hrune', -, -, -, hok⟩ := verifyRune_eq_ok hverify
  refine ⟨res, method, s.runeauth.getId rune', hres, hpubkey, fun r hr => ?_⟩
  obtain ⟨rune'', hrune'', hmet⟩ := hcheck _ _ _ hok
  rw [hcarries, hcodec] at hrune''
  obtain rfl := Except.ok.inj hrune''
  obtain ⟨a, ha, hsat⟩ := hmet r (hnew _ _ _ _ _ hrune r hr)
  by_cases hp : a.IsPubkey
  · exact Or.inl ⟨a, ha, hp, Context.pubkey_eq_of_check heq hp hsat⟩
  · exact Or.inr ⟨a, ha, hp, hsat⟩

/-- A signer with runes in plain text, where the signature of data is the key followed by the data. -/
def plain : Signer where
  id := [2]
  runeauth := .plain
  masterRune := "K:"
  urlSafeEncode bytes := String.ofList (bytes.map fun b => Char.ofNat b.toNat)
  urlSafeDecode rune := .ok (rune.toList.map fun c => c.toNat.toUInt8)
  toLowercase := String.toLower
  verify key data signature := signature = key ++ data

def plainRequest (pubkey : Bytes) (rune : String) : PendingRequest where
  request := []
  uri := "/cln.Node/Invoice"
  signature := []
  pubkey := pubkey
  timestamp := 0
  rune := rune.toList.map fun c => c.toNat.toUInt8

/-- A rune for the key `1122`, to get invoices or for another key. -/
def invoiceRestrictions : List (List String) := [["pubkey=1122"], ["method^inv", "pubkey=3344"]]

def invoiceRune : String := "K:=0-gl0&pubkey=1122&method^inv|pubkey=3344"

theorem createRune_invoice : plain.createRune none invoiceRestrictions = .ok invoiceRune := by
  decide +kernel

/-- The request has the key of the first restriction and the method of the second one. -/
theorem createRune_verifyRune_invoice : ∃ res method uniqueId,
    plain.parseRestrictions invoiceRestrictions = .ok res ∧
      (∃ r ∈ res, ∃ a ∈ r.alternatives, a.IsPubkey) ∧
      ∀ r ∈ res, (∃ a ∈ r.alternatives, a.IsPubkey ∧ hexEncode [0x11, 0x22] = a.value) ∨
        ∃ a ∈ r.alternatives, ¬ a.IsPubkey ∧
          (plain.runeContext 0 (plainRequest [0x11, 0x22] invoiceRune) method uniqueId).checkAlternative
            plain.runeauth a = .ok () := by
  have hcarries : plain.urlSafeEncode (plainRequest [0x11, 0x22] invoiceRune).rune = invoiceRune := by decide +kernel
  have hverify : plain.verifyRune 0 (plainRequest [0x11, 0x22] invoiceRune) = .ok () := by decide +kernel
  exact createRune_verifyRune Runeauth.newKeepsRestrictions_plain Runeauth.base64RoundTrip_plain
    Runeauth.checksRestrictions_plain Runeauth.equalIsIdentity_plain createRune_invoice (congrArg _ hcarries) hverify

/-- The rune with the restrictions `pubkey^112233` and `pubkey^112233|pubkey=112233` accepts the longer key
`11223344`. -/
theorem createRune_unbound : ¬ ∀ (restrictions : List (List String)) (b64 : String) (p : PendingRequest) (now : ℤ),
    plain.createRune none restrictions = .ok b64 →
    plain.runeauth.fromBase64 (plain.urlSafeEncode p.rune) = plain.runeauth.fromBase64 b64 →
    plain.verifyRune now p = .ok () →
    ∃ res, plain.parseRestrictions restrictions = .ok res ∧
      ∃ r ∈ res, ∃ a ∈ r.alternatives, a.IsPubkey ∧ hexEncode p.pubkey = a.value := by
  intro hall
  -- two alternatives on the prefix let a longer key through
  let rune := "K:=0-gl0&pubkey^112233&pubkey^112233|pubkey=112233"
  have hcreate : plain.createRune none [["pubkey^112233"], ["pubkey^112233", "pubkey=112233"]] = .ok rune := by
    decide +kernel
  have hcarries : plain.urlSafeEncode (plainRequest [0x11, 0x22, 0x33, 0x44] rune).rune = rune := by
    decide +kernel
  have hverify : plain.verifyRune 0 (plainRequest [0x11, 0x22, 0x33, 0x44] rune) = .ok () := by
    decide +kernel
  have hparse : plain.parseRestrictions [["pubkey^112233"], ["pubkey^112233", "pubkey=112233"]] =
      .ok [⟨[⟨"pubkey", .beginsWith, "112233"⟩]⟩,
        ⟨[⟨"pubkey", .beginsWith, "112233"⟩, ⟨"pubkey", .equal, "112233"⟩]⟩] := by decide +kernel
  obtain ⟨res, hres, hpubkey⟩ := hall _ _ _ _ hcreate (congrArg _ hcarries) hverify
  rw [hparse] at hres
  obtain rfl := Except.ok.inj hres
  have hother : hexEncode [0x11, 0x22, 0x33, 0x44] ≠ "112233" := by decide
  simp [Alternative.IsPubkey, plainRequest, hother] at hpubkey

end Signer

end Greenlight
