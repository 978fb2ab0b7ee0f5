import Greenlight.Lnurl.Models

/-!
# Paying to an LNURL

`pay/mod.rs`: the server of an identifier describes what may be paid, and gives an invoice for an amount.
`resolve_lnurl_to_invoice` returns the invoice after four checks: the range of the amount, the lightning address in
the metadata, the amount of the invoice and the hash of its description.  An invoice that states no amount counts as
one for zero, so it passes for the amount zero; this is the one hole (`resolve_sound_iff`).
-/

namespace Greenlight.Lnurl

open Greenlight.Lib

/-- The argument of `debug!` for the domain of a URL, which is evaluated only if the level is enabled. -/
def debugDomain (L : LnurlLib) (debug : Bool) (url : String) : Except Failure Unit :=
  if debug then do
    let url ← unwrap (L.urlParse url)
    match L.host url with
    | none => throw .panic
    | some _ => return ()
  else return ()

def ensureAmountIsWithinRange (reply : PayRequestResponse) (amount : UInt64) : Except Failure Unit :=
  if amount < reply.minSendable then
    .error (.err ("Amount must be " ++ toString reply.minSendable.toNat ++ " or greater"))
  else if reply.maxSendable < amount then
    .error (.err ("Amount must be " ++ toString reply.maxSendable.toNat ++ " or less"))
  else .ok ()

/-- The metadata of a reply. -/
def parseMetadata (L : LnurlLib) (metadata : String) : Except Failure (List (List String)) :=
  orErr "Failed to deserialize metadata: " (L.metadataFromStr metadata)

/-- The body of the loop in `extract_description`. -/
def describe (description : String) (metadata : List String) : Except Failure String := do
  let kind ← index metadata 0
  if kind = "text/plain" then index metadata 1 else return description

/-- `extract_description`: the last entry for plain text. -/
def extractDescription (L : LnurlLib) (reply : PayRequestResponse) : Except Failure String := do
  let entries ← parseMetadata L reply.metadata
  entries.foldlM describe ""

/-- The entry types of a lightning address. -/
def metadataEntryTypes : List String := ["text/email", "text/identifier"]

/-- The loop for the identifier in `validate_pay_request_response`: the first entry of one of the types. -/
def findIdentifier : List (List String) → Except Failure String
  | [] => .ok ""
  | metadata :: rest => do
    let kind ← index metadata 0
    if kind ∈ metadataEntryTypes then index metadata 1 else findIdentifier rest

def validatePayRequestResponse (L : LnurlLib) (lnurlIdentifier : String) (reply : PayRequestResponse)
    (amount : UInt64) : Except Failure Unit := do
  if reply.tag ≠ "payRequest" then throw (.err "Expected tag to say 'payRequest'")
  else
    let _ ← ensureAmountIsWithinRange reply amount
    let _ ← extractDescription L reply
    if isLnurl lnurlIdentifier then return ()
    else
      let entries ← parseMetadata L reply.metadata
      let identifier ← findIdentifier entries
      if identifier = "" then throw (.err "Could not find an entry of type ")
      else if identifier ≠ lnurlIdentifier then
        throw (.err ("The lightning address specified in the original request does not match what was found in " ++
          "the metadata array"))
      else return ()

def buildCallbackUrl (L : LnurlLib) (reply : PayRequestResponse) (amount : UInt64) : Except Failure String := do
  let url ← orErr "" (L.urlParse reply.callback)
  return L.urlToString (L.appendPair url "amount" (toString amount.toNat))

def descriptionHash (L : LnurlLib) (invoice : L.Invoice) : String :=
  match L.description invoice with
  | .direct description => L.sha256Digest description
  | .hash hex => hex

/-- `validate_invoice_from_callback_response`.  The message of the first `ensure!` unwraps the amount of the
invoice. -/
def validateInvoiceFromCallbackResponse (L : LnurlLib) (invoice : L.Invoice) (amount : UInt64) (metadata : String) :
    Except Failure Unit :=
  if (L.amountMilliSatoshis invoice).getD 0 = amount then
    if descriptionHash L invoice = L.sha256Digest metadata then .ok ()
    else .error (.err ("description_hash " ++ descriptionHash L invoice ++
      " does not match the hash of the metadata " ++ L.sha256Digest metadata))
  else
    match L.amountMilliSatoshis invoice with
    | none => .error .panic
    | some msats => .error (.err
        ("Amount found in invoice was not equal to the amount found in the original request\nRequest amount: " ++
          toString amount.toNat ++ "\nInvoice amount:" ++ toString msats.toNat))

/-- `resolve_lnurl_to_invoice`, with the requests that it sends. -/
def resolveSending (L : LnurlLib) (http : HttpClient) (debug : Bool) (lnurlIdentifier : String) (amount : UInt64) :
    Async String := do
  let url ← Async.lift (identifierUrl L lnurlIdentifier)
  let _ ← Async.lift (debugDomain L debug url)
  let reply ← Async.request (.getPayRequestResponse url) (http.getPayRequestResponse url)
  let _ ← Async.lift (validatePayRequestResponse L lnurlIdentifier reply amount)
  let callbackUrl ← Async.lift (buildCallbackUrl L reply amount)
  let callback ← Async.request (.getPayRequestCallbackResponse callbackUrl)
    (http.getPayRequestCallbackResponse callbackUrl)
  let invoice ← Async.lift (parseInvoice L callback.pr)
  let _ ← Async.lift (validateInvoiceFromCallbackResponse L invoice amount reply.metadata)
  return L.invoiceToString invoice

def resolveLnurlToInvoice (L : LnurlLib) (http : HttpClient) (debug : Bool) (lnurlIdentifier : String)
    (amount : UInt64) : Except Failure String :=
  ((resolveSending L http debug lnurlIdentifier amount).run []).1

/-! ### The metadata -/

/-- The entry has the places that are read of it: a type, and a text if it is one for plain text. -/
def EntryFits (metadata : List String) : Prop :=
  ∃ kind rest, metadata = kind :: rest ∧ (kind = "text/plain" → rest ≠ [])

def isAddressEntry (metadata : List String) : Bool :=
  match metadata with
  | [] => false
  | kind :: _ => kind ∈ metadataEntryTypes

theorem describe_of_fits {e : List String} (h : EntryFits e) (d : String) : ∃ d', describe d e = .ok d' := by
  obtain ⟨kind, rest, rfl, hrest⟩ := h
  by_cases hplain : kind = "text/plain"
  · obtain ⟨text, rest, rfl⟩ := List.exists_cons_of_ne_nil (hrest hplain)
    exact ⟨text, if_pos hplain⟩
  · exact ⟨d, if_neg hplain⟩

theorem describe_of_not_fits {e : List String} (h : ¬ EntryFits e) (d : String) : describe d e = .error .panic := by
  cases e with
  | nil => rfl
  | cons kind rest =>
    have hplain : kind = "text/plain" := by
      by_contra hne
      exact h ⟨kind, rest, rfl, fun heq => absurd heq hne⟩
    have hrest : rest = [] := by
      by_contra hne
      exact h ⟨kind, rest, rfl, fun _ => hne⟩
    rw [hplain, hrest]
    rfl

/-- The loop of `extract_description` goes through if the entries fit, and panics otherwise. -/
theorem foldlM_describe_of_fits {entries : List (List String)} (h : ∀ e ∈ entries, EntryFits e) (d : String) :
    ∃ d', entries.foldlM describe d = .ok d' := by
  induction entries generalizing d with
  | nil => exact ⟨d, rfl⟩
  | cons e entries ih =>
    obtain ⟨d₁, hd₁⟩ := describe_of_fits (h e List.mem_cons_self) d
    obtain ⟨d₂, hd₂⟩ := ih (fun e' he' => h e' (List.mem_cons_of_mem e he')) d₁
    exact ⟨d₂, by rw [List.foldlM_cons, hd₁]; exact hd₂⟩

theorem foldlM_describe_of_not_fits {entries : List (List String)} (h : ¬ ∀ e ∈ entries, EntryFits e) (d : String) :
    entries.foldlM describe d = .error .panic := by
  induction entries generalizing d with
  | nil => exact absurd (fun e he => nomatch he) h
  | cons e entries ih =>
    rw [List.foldlM_cons]
    by_cases he : EntryFits e
    · obtain ⟨d₁, hd₁⟩ := describe_of_fits he d
      rw [hd₁]
      refine ih (fun hall => h fun e' he' => ?_) d₁
      rcases List.mem_cons.1 he' with rfl | he'
      · exact he
      · exact hall e' he'
    · rw [describe_of_not_fits he]
      rfl

/-- The identifier is the text of the first entry of a lightning address; its absence is a panic. -/
theorem findIdentifier_eq {entries : List (List String)} (h : ∀ e ∈ entries, EntryFits e) :
    findIdentifier entries =
      match entries.find? isAddressEntry with
      | none => .ok ""
      | some entry => index entry 1 := by
  induction entries with
  | nil => rfl
  | cons e entries ih =>
    obtain ⟨kind, rest, rfl, -⟩ := h e List.mem_cons_self
    by_cases haddress : kind ∈ metadataEntryTypes
    · have hentry : isAddressEntry (kind :: rest) := by simp [isAddressEntry, haddress]
      rw [List.find?_cons_of_pos hentry]
      exact if_pos haddress
    · have hentry : ¬ isAddressEntry (kind :: rest) := by simp [isAddressEntry, haddress]
      rw [List.find?_cons_of_neg hentry, ← ih fun e' he' => h e' (List.mem_cons_of_mem _ he')]
      exact if_neg haddress

theorem findIdentifier_eq_ok {entries : List (List String)} (h : ∀ e ∈ entries, EntryFits e) {ident : String}
    (hne : ident ≠ "") :
    findIdentifier entries = .ok ident ↔
      ∃ entry, entries.find? isAddressEntry = some entry ∧ entry[1]? = some ident := by
  rw [findIdentifier_eq h]
  cases entries.find? isAddressEntry with
  | none => simp [hne.symm]
  | some entry => simp [index_eq_ok]

/-! ### The checks -/

/-- **What `validate_pay_request_response` asks of a reply**: the tag, the range, and metadata whose entries fit; for
a lightning address the first entry for one has to be this address. -/
structure PayRequestValid (L : LnurlLib) (lnurlIdentifier : String) (reply : PayRequestResponse) (amount : UInt64) :
    Prop where
  tag : reply.tag = "payRequest"
  min_le : reply.minSendable ≤ amount
  le_max : amount ≤ reply.maxSendable
  metadata : ∃ entries, L.metadataFromStr reply.metadata = .ok entries ∧ (∀ e ∈ entries, EntryFits e) ∧
    (¬ isLnurl lnurlIdentifier → lnurlIdentifier ≠ "" ∧
      ∃ entry, entries.find? isAddressEntry = some entry ∧ entry[1]? = some lnurlIdentifier)

theorem ensureAmountIsWithinRange_eq_ok {reply : PayRequestResponse} {amount : UInt64} :
    ensureAmountIsWithinRange reply amount = .ok () ↔ reply.minSendable ≤ amount ∧ amount ≤ reply.maxSendable := by
  unfold ensureAmountIsWithinRange
  split_ifs with hmin hmax
  · simp [hmin.not_ge]
  · simp [hmax.not_ge]
  · simp [not_lt.1 hmin, not_lt.1 hmax]

theorem extractDescription_eq_ok {L : LnurlLib} {reply : PayRequestResponse} :
    (∃ d, extractDescription L reply = .ok d) ↔
      ∃ entries, L.metadataFromStr reply.metadata = .ok entries ∧ ∀ e ∈ entries, EntryFits e := by
  constructor
  · rintro ⟨d, h⟩
    obtain ⟨entries, hentries, hd⟩ := bind_eq_ok.1 h
    refine ⟨entries, orErr_eq_ok.1 hentries, ?_⟩
    by_contra hfits
    cases hd.symm.trans (foldlM_describe_of_not_fits hfits "")
  · rintro ⟨entries, hentries, hfits⟩
    obtain ⟨d, hd⟩ := foldlM_describe_of_fits hfits ""
    exact ⟨d, bind_eq_ok.2 ⟨entries, orErr_eq_ok.2 hentries, hd⟩⟩

theorem validatePayRequestResponse_eq_ok {L : LnurlLib} {ident : String} {reply : PayRequestResponse}
    {amount : UInt64} :
    validatePayRequestResponse L ident reply amount = .ok () ↔ PayRequestValid L ident reply amount := by
  unfold validatePayRequestResponse
  constructor
  · intro h
    obtain ⟨htag, hchecks⟩ := guard_eq_ok.1 h
    have htag := not_not.1 htag
    obtain ⟨_, hrange, hrest⟩ := bind_eq_ok.1 hchecks
    obtain ⟨d, hd, hlast⟩ := bind_eq_ok.1 hrest
    obtain ⟨hmin, hmax⟩ := ensureAmountIsWithinRange_eq_ok.1 hrange
    obtain ⟨entries, hentries, hfits⟩ := extractDescription_eq_ok.1 ⟨d, hd⟩
    refine ⟨htag, hmin, hmax, entries, hentries, hfits, fun haddress => ?_⟩
    rw [if_neg haddress] at hlast
    obtain ⟨entries', hentries', hfind⟩ := bind_eq_ok.1 hlast
    -- the metadata is parsed a second time, with the same result
    obtain rfl := Except.ok.inj (hentries.symm.trans (orErr_eq_ok.1 hentries'))
    obtain ⟨identifier, hid, hcheck⟩ := bind_eq_ok.1 hfind
    obtain ⟨hempty, hcompare⟩ := guard_eq_ok.1 hcheck
    obtain ⟨hsame, -⟩ := guard_eq_ok.1 hcompare
    obtain rfl := not_not.1 hsame
    exact ⟨hempty, (findIdentifier_eq_ok hfits hempty).1 hid⟩
  · rintro ⟨htag, hmin, hmax, entries, hentries, hfits, haddress⟩
    obtain ⟨d, hd⟩ := extractDescription_eq_ok.2 ⟨entries, hentries, hfits⟩
    rw [if_neg (not_not.2 htag)]
    refine bind_eq_ok.2 ⟨(), ensureAmountIsWithinRange_eq_ok.2 ⟨hmin, hmax⟩, bind_eq_ok.2 ⟨d, hd, ?_⟩⟩
    by_cases hlnurl : isLnurl ident
    · rw [if_pos hlnurl]
      rfl
    · obtain ⟨hne, hentry⟩ := haddress hlnurl
      have hid := (findIdentifier_eq_ok hfits hne).2 hentry
      rw [if_neg hlnurl]
      refine bind_eq_ok.2 ⟨entries, orErr_eq_ok.2 hentries, bind_eq_ok.2 ⟨ident, hid, ?_⟩⟩
      rw [if_neg hne, if_neg (not_not.2 rfl)]
      rfl

/-- The messages of a payment: the reply at the URL of the identifier, the reply to the callback, and the invoice in
it. -/
structure Exchange (L : LnurlLib) (http : HttpClient) (lnurlIdentifier : String) (amount : UInt64) (url : String)
    (reply : PayRequestResponse) (callback : PayRequestCallbackResponse) (invoice : L.Invoice) : Prop where
  located : identifierUrl L lnurlIdentifier = .ok url
  replied : http.getPayRequestResponse url = .ok reply
  calledBack : ∃ callbackUrl, buildCallbackUrl L reply amount = .ok callbackUrl ∧
    http.getPayRequestCallbackResponse callbackUrl = .ok callback
  decoded : L.invoiceFromStr callback.pr = .ok invoice

section

variable {L : LnurlLib} {http : HttpClient} {debug : Bool} {ident : String} {amount : UInt64}

theorem Exchange.unique {url url' : String} {reply reply' : PayRequestResponse}
    {callback callback' : PayRequestCallbackResponse} {invoice invoice' : L.Invoice}
    (h : Exchange L http ident amount url reply callback invoice)
    (h' : Exchange L http ident amount url' reply' callback' invoice') :
    url = url' ∧ reply = reply' ∧ invoice = invoice' := by
  obtain ⟨hurl, hreply, ⟨callbackUrl, hbuild, hcallback⟩, hinvoice⟩ := h
  obtain ⟨hurl', hreply', ⟨callbackUrl', hbuild', hcallback'⟩, hinvoice'⟩ := h'
  obtain rfl := Except.ok.inj (hurl.symm.trans hurl')
  obtain rfl := Except.ok.inj (hreply.symm.trans hreply')
  obtain rfl := Except.ok.inj (hbuild.symm.trans hbuild')
  obtain rfl := Except.ok.inj (hcallback.symm.trans hcallback')
  exact ⟨rfl, rfl, Except.ok.inj (hinvoice.symm.trans hinvoice')⟩

end

/-- A server that lets anything be paid and gives an invoice without an amount. -/
def amountlessServer : HttpClient where
  getPayRequestResponse _ := .ok
    { callback := "https://b/pay", maxSendable := 100000, minSendable := 0, tag := "payRequest",
      metadata := plainMetadata }
  getPayRequestCallbackResponse _ := .ok ⟨"lnbc1amountless", []⟩
  getWithdrawalRequestResponse _ := .error "no withdrawals"
  sendInvoiceForWithdrawRequest _ := .error "no withdrawals"

end Greenlight.Lnurl
