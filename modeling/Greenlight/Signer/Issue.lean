import Greenlight.Signer.Mint

/-!
# Runes for one key

Registration, recovery and the upgrade of credentials ask the signer for a rune with the restriction `pubkey=<key>`.
The signer accepts it from this key, for every method of its two services, and from no other one
(`verifyRune_issued_iff`).
-/

namespace Greenlight

open Greenlight.Lib Greenlight.Runes

/-- An alternative of words is written as its parts. -/
def EncodesEqual (encode : Alternative → String) : Prop :=
  ∀ a : Alternative, a.IsWord → a.cond = .equal → encode a = a.field ++ "=" ++ a.value

/-- The request is one for a method of a service of the node. -/
def PendingRequest.Calls (p : PendingRequest) (service method : String) : Prop :=
  (service = "cln.Node" ∨ service = "greenlight.Node") ∧ p.uri = "/" ++ service ++ "/" ++ method

theorem PendingRequest.Calls.split_uri {p : PendingRequest} {service method : String} (h : p.Calls service method) :
    ∃ first rest, (split p.uri '/').tail = service :: first :: rest := by
  obtain ⟨hservice, huri⟩ := h
  have hslash : '/' ∉ service.toList := by rcases hservice with rfl | rfl <;> decide
  have hroot : split p.uri '/' = "" :: split (service ++ ("/" ++ method)) '/' := by
    rw [huri]
    have hcut := split_append (s := "") (t := service ++ ("/" ++ method)) (u := "/" ++ service ++ "/" ++ method)
      (c := '/') (by simp) (by simp)
    rwa [String.empty_append] at hcut
  have hnext : split (service ++ ("/" ++ method)) '/' = service :: split method '/' :=
    split_append (by simp) hslash
  have hne : split method '/' ≠ [] := by simp [split, List.splitOn_ne_nil]
  obtain ⟨first, rest, hmethod⟩ := List.exists_cons_of_ne_nil hne
  refine ⟨first, rest, ?_⟩
  rw [hroot, hnext, hmethod, List.tail_cons]

namespace Signer

/-- What `scheduler.rs` and `credentials.rs` do to restrict a rune to a key: `Alternative::new`, `encode` and
`create_rune`. -/
def runeFor (s : Signer) (b : RuneBuilder s.runeauth) (encode : Alternative → String) (key : Bytes) :
    Except String String := do
  let alt ← b.alternative "pubkey" .equal (hexEncode key)
  s.createRune none [[encode alt]]

/-- The rune is one that `create_rune` makes for the key. -/
def Issued (s : Signer) (key : Bytes) (rune : s.runeauth.Rune) : Prop := s.Minted [keyRestriction key] rune

/-- What is used of the crates for the runes that the signer makes for keys. -/
structure IssuesRunes (s : Signer) : Prop extends s.RunesOf fun res => ∃ key, res = [keyRestriction key] where
  /-- The base64 form of a rune is that of its bytes. -/
  encodes : ∀ rune, ∃ bytes, s.urlSafeEncode bytes = s.runeauth.toBase64 rune

variable {s : Signer} {key : Bytes} {rune : s.runeauth.Rune} {p : PendingRequest} {now : ℤ}

theorem keyRestriction_binds (key : Bytes) : ∃ r ∈ [keyRestriction key], ∃ a ∈ r.alternatives, a.IsPubkey :=
  ⟨_, List.mem_singleton_self _, _, List.mem_singleton_self _, rfl, rfl⟩

theorem runeFor_eq_ok {b : RuneBuilder s.runeauth} {encode : Alternative → String} (hissues : s.IssuesRunes)
    (halt : b.BuildsAlternatives) (hencode : EncodesEqual encode) (hread : s.runeauth.ReadsEqual) (key : Bytes) :
    ∃ rune, s.Issued key rune ∧ s.runeFor b encode key = .ok (s.runeauth.toBase64 rune) := by
  have hword : (⟨"pubkey", .equal, hexEncode key⟩ : Alternative).IsWord :=
    ⟨by simp, isAlphanum_pubkey, hexEncode_isAlphanum key⟩
  have hbuilt : b.alternative "pubkey" .equal (hexEncode key) = .ok ⟨"pubkey", .equal, hexEncode key⟩ :=
    halt ⟨"pubkey", .equal, hexEncode key⟩ hword
  have hparse : s.parseRestrictions [[encode ⟨"pubkey", .equal, hexEncode key⟩]] = .ok [keyRestriction key] := by
    rw [hencode _ hword rfl, parseRestrictions, List.mapM_cons, String.intercalate_singleton,
      hread "pubkey" (hexEncode key) (by simp) isAlphanum_pubkey (hexEncode_isAlphanum key)]
    rfl
  obtain ⟨rune, hissued, hcreate⟩ := createRune_minted hissues.toRunesOf ⟨key, rfl⟩ hparse (keyRestriction_binds key)
  exact ⟨rune, hissued, bind_eq_ok.2 ⟨_, hbuilt, hcreate⟩⟩

/-- **A rune for a key is accepted from this key only.** -/
theorem verifyRune_issued_iff (hissues : s.IssuesRunes) (hcodec : s.runeauth.Base64RoundTrip)
    (hnew : s.runeauth.NewKeepsRestrictions) (hadds : s.runeauth.NewAddsOnlyId)
    (hcheck : s.runeauth.ChecksRestrictions) (heq : s.runeauth.EqualIsIdentity)
    (hpass : s.runeauth.IdentityPassesEqual) (hissued : s.Issued key rune)
    (hrune : s.urlSafeEncode p.rune = s.runeauth.toBase64 rune) {service method : String}
    (hcalls : p.Calls service method) (hthere : p.pubkey ≠ []) :
    s.verifyRune now p = .ok () ↔ p.pubkey = key := by
  obtain ⟨first, rest, huri⟩ := hcalls.split_uri
  rw [verifyRune_minted_iff hissues.toRunesOf ⟨key, rfl⟩ hcodec hnew hadds hcheck hpass hissued
    (keyRestriction_binds key) hrune huri hcalls.1, List.forall_mem_singleton]
  exact meets_keyRestriction_iff heq hpass (fun h => h ▸ hthere) now first _

/-! ### The signer whose runes print -/

theorem encodesEqual_plain : EncodesEqual Plain.encodeAlternative := by
  intro a _ hcond
  rw [Plain.encodeAlternative, hcond]
  rfl

theorem printable_restrictionsFor (key : Bytes) :
    ∀ r ∈ [⟨[⟨"", .equal, "0-gl0"⟩]⟩, keyRestriction key], r.Printable := by
  have hkey : (keyRestriction key).Printable := ⟨by simp [keyRestriction], List.forall_mem_singleton.2
    (Alternative.printable_of_isAlphanum isAlphanum_pubkey (hexEncode_isAlphanum key))⟩
  intro r hr
  rcases List.mem_pair.1 hr with rfl | rfl
  · decide
  · exact hkey

/-- The rune `K:=0-gl0&pubkey=<key>`. -/
def printableRuneFor (key : Bytes) : PrintableRune where
  code := "K"
  restrictions := [⟨[⟨"", .equal, "0-gl0"⟩]⟩, keyRestriction key]
  code_plain := PrintableRune.code_plain_K
  printable := printable_restrictionsFor key

theorem issued_printable_iff (key : Bytes) (rune : PrintableRune) :
    printable.Issued key rune ↔ rune = printableRuneFor key := by
  have hnew : PrintableRune.new ("K".toList.map fun c => c.toNat.toUInt8) [keyRestriction key] (some "0")
      (some runeVersion) = .ok (printableRuneFor key) := PrintableRune.ofParts_self (printableRuneFor key)
  constructor
  · intro hissued
    exact Except.ok.inj (hissued.symm.trans hnew)
  · rintro rfl
    exact hnew

theorem issuesRunes_printable : printable.IssuesRunes where
  toRunesOf := runesOf_printable fun res ⟨key, hres⟩ r hr => by
    subst hres
    exact printable_restrictionsFor key r (List.mem_cons_of_mem _ hr)
  encodes rune := ⟨utf8 (PrintableRune.toText rune), urlSafeEncode_utf8 _⟩

end Signer

end Greenlight
