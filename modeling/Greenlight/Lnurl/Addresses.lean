import Greenlight.Lnurl.Panics

/-!
# Lightning addresses

An identifier is taken for an LNURL if it begins with these letters, in whatever case and after blanks, and for a
lightning address otherwise.  So an address is recognized, by the request that is sent for it and by the check of
its identifier in the reply, exactly if the name of its user does not begin so (`recognized_iff`).
-/

namespace Greenlight.Lnurl

open Greenlight.Lib

variable {L : LnurlLib} {http : HttpClient} {debug : Bool} {ident : String} {amount : UInt64}

/-- The first request goes to the URL of the identifier. -/
theorem head?_resolveSending {url : String} (hurl : identifierUrl L ident = .ok url)
    (hdebug : debugDomain L debug url = .ok ()) :
    ((resolveSending L http debug ident amount).run []).2.head? = some (.getPayRequestResponse url) := by
  have hprefix : [.getPayRequestResponse url] <+: ((resolveSending L http debug ident amount).run []).2 := by
    unfold resolveSending
    rw [Async.run_lift_bind hurl, Async.run_lift_bind hdebug]
    refine Async.prefix_request_bind _ _ (fun reply => ?_) []
    refine (Async.extends_lift _).bind fun _ => (Async.extends_lift _).bind fun callbackUrl => ?_
    refine (Async.extends_request _ _).bind fun callback => (Async.extends_lift _).bind fun invoice => ?_
    exact (Async.extends_lift _).bind fun _ => Async.extends_lift (.ok _)
  obtain ⟨rest, hrest⟩ := hprefix
  rw [← hrest]
  rfl

/-! ### Addresses -/

def addressUrl (user domain : String) : String := "https://" ++ domain ++ "/.well-known/lnurlp/" ++ user

/-- `user@domain`. -/
def address (user domain : String) : String := user ++ "@" ++ domain

/-- User and domain are there, with one `@` between them, and the domain is the host of the URL. -/
structure IsAddress (L : LnurlLib) (user domain : String) : Prop where
  user_ne : user ≠ ""
  domain_ne : domain ≠ ""
  user_at : '@' ∉ user.toList
  domain_at : '@' ∉ domain.toList
  host : HasDomain L (addressUrl user domain)

/-- The identifier is treated as the address that it is: the first request goes to the URL of the address, and a
reply is only accepted if its metadata names the address. -/
structure Recognized (L : LnurlLib) (user domain : String) : Prop where
  requested : ∀ http debug amount, ((resolveSending L http debug (address user domain) amount).run []).2.head? =
    some (.getPayRequestResponse (addressUrl user domain))
  checked : ∀ reply amount, validatePayRequestResponse L (address user domain) reply amount = .ok () →
    ∃ entries entry, L.metadataFromStr reply.metadata = .ok entries ∧
      entries.find? isAddressEntry = some entry ∧ entry[1]? = some (address user domain)

/-- The name begins, after blanks, with the letters `lnurl` in some case. -/
def NamedLnurl (user : String) : Prop :=
  "LNURL".toList <+: (user.toList.dropWhile isWhitespace).map Char.toUpper

instance (user : String) : Decidable (NamedLnurl user) := by unfold NamedLnurl; infer_instance

/-- A text with no metadata in it. -/
def ReadsNoMetadata (L : LnurlLib) : Prop := L.metadataFromStr "[]" = .ok []

theorem dropWhile_append_cons {p : Char → Bool} {c : Char} (hc : p c = false) (l m : List Char) :
    (l ++ c :: m).dropWhile p = l.dropWhile p ++ c :: m := by
  rw [List.dropWhile_append]
  split
  · rename_i hempty
    rw [List.isEmpty_iff.1 hempty, List.nil_append, List.dropWhile_cons_of_neg (by simp [hc])]
  · rfl

theorem trim_address (user domain : String) : ∃ rest, (trim (address user domain)).toList =
    user.toList.dropWhile isWhitespace ++ '@' :: rest := by
  have hat : isWhitespace '@' = false := by decide
  have hchars : (address user domain).toList = user.toList ++ '@' :: domain.toList := by simp [address]
  refine ⟨(domain.toList.reverse.dropWhile isWhitespace).reverse, ?_⟩
  rw [trim, String.toList_ofList, hchars, dropWhile_append_cons hat, List.reverse_append, List.reverse_cons,
    List.append_assoc, List.singleton_append, dropWhile_append_cons hat]
  simp

theorem prefix_append_cons_iff {α : Type} {p l m : List α} {a : α} (ha : a ∉ p) : p <+: l ++ a :: m ↔ p <+: l := by
  constructor
  · intro h
    have hfront : l ++ [a] <+: l ++ a :: m := ⟨m, by simp⟩
    rcases List.prefix_or_prefix_of_prefix h hfront with hp | hp
    · rcases List.prefix_concat_iff.1 hp with rfl | hp
      · exact absurd (by simp) ha
      · exact hp
    · exact absurd (hp.subset (by simp)) ha
  · exact fun h => h.trans (List.prefix_append _ _)

/-- Only the name of the user makes an address look like an LNURL. -/
theorem isLnurl_address_iff (user domain : String) : isLnurl (address user domain) = true ↔ NamedLnurl user := by
  obtain ⟨rest, htrim⟩ := trim_address user domain
  have hat : '@' ∉ "LNURL".toList := by decide
  have hupper : (toUppercase (trim (address user domain))).toList =
      (user.toList.dropWhile isWhitespace).map Char.toUpper ++ '@' :: rest.map Char.toUpper := by
    rw [toUppercase, String.toList_ofList, htrim, List.map_append, List.map_cons]
    rfl
  rw [isLnurl, startsWith, decide_eq_true_iff, hupper, prefix_append_cons_iff hat]
  rfl

theorem not_isLnurl_address {user : String} (hname : ¬ NamedLnurl user) (domain : String) :
    ¬ isLnurl (address user domain) = true := fun h => hname ((isLnurl_address_iff user domain).1 h)

theorem identifierUrl_address {user domain : String} (h : IsAddress L user domain) (hname : ¬ NamedLnurl user) :
    identifierUrl L (address user domain) = .ok (addressUrl user domain) := by
  have hsplit : split (address user domain) '@' = [user, domain] := by
    have hrest : ("@" ++ domain).toList = '@' :: domain.toList := by simp
    rw [address, String.append_assoc, split_append hrest h.user_at, split_eq_singleton h.domain_at]
  rw [identifierUrl, if_neg (not_isLnurl_address hname domain), parseLightningAddress, hsplit]
  dsimp only
  rw [if_neg h.user_ne, if_neg h.domain_ne]
  rfl

/-- **Which addresses are recognized**: those whose user name does not begin with `lnurl`. -/
theorem recognized_iff {user domain : String} (hjson : ReadsNoMetadata L) (h : IsAddress L user domain) :
    Recognized L user domain ↔ ¬ NamedLnurl user := by
  constructor
  · intro hrec hname
    have hlnurl := (isLnurl_address_iff user domain).2 hname
    -- a reply without metadata is accepted for an LNURL
    let reply : PayRequestResponse := ⟨"", 0, 0, "payRequest", "[]"⟩
    have hvalid : PayRequestValid L (address user domain) reply 0 :=
      ⟨rfl, le_rfl, le_rfl, [], hjson, by simp, fun hno => absurd hlnurl hno⟩
    obtain ⟨entries, entry, hentries, hfind, -⟩ :=
      hrec.checked reply 0 (validatePayRequestResponse_eq_ok.2 hvalid)
    obtain rfl := Except.ok.inj (hjson.symm.trans hentries)
    cases hfind
  · intro hname
    refine ⟨fun http debug amount => ?_, fun reply amount hok => ?_⟩
    · exact head?_resolveSending (identifierUrl_address h hname) (debugDomain_eq_ok.2 fun _ => h.host)
    · obtain ⟨entries, hentries, -, haddress⟩ := (validatePayRequestResponse_eq_ok.1 hok).metadata
      obtain ⟨-, entry, hentry, htext⟩ := haddress (not_isLnurl_address hname domain)
      exact ⟨entries, entry, hentries, hentry, htext⟩

/-- Plain libraries that read a list without metadata. -/
def emptyLnurl : LnurlLib :=
  { plainLnurl with metadataFromStr := fun s => if s = "[]" then .ok [] else plainLnurl.metadataFromStr s }

theorem isAddress_empty {user : String} (hne : user ≠ "") (hat : '@' ∉ user.toList)
    (hhost : (split (addressUrl user "b.org") '/')[2]? = some "b.org") : IsAddress emptyLnurl user "b.org" where
  user_ne := hne
  domain_ne := by decide
  user_at := hat
  domain_at := by decide
  host := by
    refine ⟨addressUrl user "b.org", "b.org", if_pos (decide_eq_true ?_), hhost⟩
    rw [addressUrl, String.append_assoc, String.append_assoc, String.toList_append]
    exact List.prefix_append _ _

theorem isAddress_satoshi : IsAddress emptyLnurl "satoshi" "b.org" :=
  isAddress_empty (by decide) (by decide) (by decide +kernel)

theorem recognized_satoshi : Recognized emptyLnurl "satoshi" "b.org" ↔ ¬ NamedLnurl "satoshi" :=
  recognized_iff rfl isAddress_satoshi

/-- For `lnurlfan@b.org` no request is sent, since it is no text in bech32. -/
theorem lnurlfan_not_recognized :
    (resolveSending emptyLnurl amountlessServer false "lnurlfan@b.org" 1).run [] =
      (.error (.err "Failed to decode lnurl: missing human-readable separator, \"1\""), []) ∧
    ¬ ∀ user domain, IsAddress emptyLnurl user domain → Recognized emptyLnurl user domain := by
  have hsent : (resolveSending emptyLnurl amountlessServer false "lnurlfan@b.org" 1).run [] =
      (.error (.err "Failed to decode lnurl: missing human-readable separator, \"1\""), []) := by decide +kernel
  refine ⟨hsent, fun h => ?_⟩
  have haddress : IsAddress emptyLnurl "lnurlfan" "b.org" :=
    isAddress_empty (by decide) (by decide) (by decide +kernel)
  have hfirst := (h _ _ haddress).requested amountlessServer false 1
  have hident : address "lnurlfan" "b.org" = "lnurlfan@b.org" := by decide
  rw [hident, hsent] at hfirst
  cases hfirst

end Greenlight.Lnurl
