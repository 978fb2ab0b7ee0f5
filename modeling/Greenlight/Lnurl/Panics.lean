import Greenlight.Lnurl.Pay
import Greenlight.Lnurl.Withdraw

/-!
# When an LNURL panics

The functions on an LNURL answer with a `Result`, and most of what comes from outside goes through `?`.  Three places
do not: the URL for a log line and the one of a withdrawal are unwrapped, the entries of the metadata are read by
index, and the message for a wrong amount unwraps the amount of the invoice.  `lnurl_no_panic_iff` says for which
inputs none of them is reached.
-/

namespace Greenlight.Lnurl

open Greenlight.Lib

/-! ### What has to be there -/

/-- The text is a URL with a host. -/
def HasDomain (L : LnurlLib) (url : String) : Prop := ∃ u host, L.urlParse url = .ok u ∧ L.host u = some host

/-- The metadata has the places that are read of it: those of every entry, and for a lightning address the text of
the first entry for one. -/
def MetadataFits (lnurlIdentifier : String) (entries : List (List String)) : Prop :=
  (∀ e ∈ entries, EntryFits e) ∧
    (¬ isLnurl lnurlIdentifier → ∀ entry, entries.find? isAddressEntry = some entry → entry[1]? ≠ none)

/-- **Nothing is missing that `resolve_lnurl_to_invoice` unwraps**: the domain if it is logged, the places of the
metadata once the tag and the range have passed, and the amount of an otherwise good invoice unless zero is to be
paid. -/
structure PaySafe (L : LnurlLib) (http : HttpClient) (debug : Bool) (lnurlIdentifier : String) (amount : UInt64) :
    Prop where
  domain : ∀ url, identifierUrl L lnurlIdentifier = .ok url → debug → HasDomain L url
  metadata : ∀ url reply entries, identifierUrl L lnurlIdentifier = .ok url →
    http.getPayRequestResponse url = .ok reply → reply.tag = "payRequest" → reply.minSendable ≤ amount →
    amount ≤ reply.maxSendable → L.metadataFromStr reply.metadata = .ok entries →
    MetadataFits lnurlIdentifier entries
  stated : ∀ url reply callback invoice, Exchange L http lnurlIdentifier amount url reply callback invoice →
    PayRequestValid L lnurlIdentifier reply amount → L.amountMilliSatoshis invoice = none → amount = 0

/-- **Nothing is missing that `get_withdraw_request_response` unwraps**: what the LNURL holds is a URL. -/
def WithdrawSafe (L : LnurlLib) (lnurl : String) : Prop :=
  ∀ url, parseLnurl L lnurl = .ok url → ∃ u, L.urlParse url = .ok u

variable {L : LnurlLib} {http : HttpClient} {debug : Bool} {ident : String} {amount : UInt64}

/-! ### The log line -/

theorem debugDomain_true (L : LnurlLib) (url : String) :
    debugDomain L true url =
      match L.urlParse url with
      | .error _ => .error .panic
      | .ok u =>
        match L.host u with
        | none => .error .panic
        | some _ => .ok () := by
  show (unwrap (L.urlParse url) >>= _) = _
  cases L.urlParse url with
  | error e => rfl
  | ok u => rfl

theorem debugDomain_eq_ok {url : String} : debugDomain L debug url = .ok () ↔ (debug → HasDomain L url) := by
  cases debug with
  | false => exact iff_of_true rfl nofun
  | true =>
    rw [debugDomain_true]
    constructor
    · intro h _
      split at h
      · cases h
      rename_i u hu
      split at h
      · cases h
      rename_i host hhost
      exact ⟨u, host, hu, hhost⟩
    · intro h
      obtain ⟨u, host, hu, hhost⟩ := h rfl
      simp only [hu, hhost]

theorem debugDomain_ne_panic_iff {url : String} :
    debugDomain L debug url ≠ .error .panic ↔ debugDomain L debug url = .ok () := by
  cases debug with
  | false => exact iff_of_true nofun rfl
  | true =>
    rw [debugDomain_true]
    split
    · simp
    · split <;> simp

/-! ### The checks -/

theorem ensureAmountIsWithinRange_ne_panic (reply : PayRequestResponse) :
    ensureAmountIsWithinRange reply amount ≠ .error .panic := by
  unfold ensureAmountIsWithinRange
  split_ifs <;> simp

theorem extractDescription_ne_panic_iff {reply : PayRequestResponse} :
    extractDescription L reply ≠ .error .panic ↔
      ∀ entries, L.metadataFromStr reply.metadata = .ok entries → ∀ e ∈ entries, EntryFits e := by
  unfold extractDescription
  rw [bind_ne_error_iff]
  refine ⟨fun h entries hentries => ?_, fun h => ⟨orErr_ne_panic _ _, fun entries hentries => ?_⟩⟩
  · by_contra hfits
    exact h.2 entries (orErr_eq_ok.2 hentries) (foldlM_describe_of_not_fits hfits "")
  · obtain ⟨d, hd⟩ := foldlM_describe_of_fits (h entries (orErr_eq_ok.1 hentries)) ""
    rw [hd]
    exact nofun

theorem findIdentifier_ne_panic_iff {entries : List (List String)} (hfits : ∀ e ∈ entries, EntryFits e) :
    findIdentifier entries ≠ .error .panic ↔
      ∀ entry, entries.find? isAddressEntry = some entry → entry[1]? ≠ none := by
  rw [findIdentifier_eq hfits]
  cases hfind : entries.find? isAddressEntry with
  | none => exact iff_of_true nofun nofun
  | some entry => simp [index_eq_error]

/-- **The check of a reply panics** on nothing else than metadata that lacks a place. -/
theorem validatePayRequestResponse_ne_panic_iff {reply : PayRequestResponse} :
    validatePayRequestResponse L ident reply amount ≠ .error .panic ↔
      (reply.tag = "payRequest" → reply.minSendable ≤ amount → amount ≤ reply.maxSendable →
        ∀ entries, L.metadataFromStr reply.metadata = .ok entries → MetadataFits ident entries) := by
  unfold validatePayRequestResponse
  by_cases htag : reply.tag = "payRequest"
  swap
  · rw [if_pos htag]
    exact iff_of_true nofun fun h => absurd h htag
  rw [if_neg (not_not.2 htag), bind_ne_error_iff]
  constructor
  · rintro ⟨-, h⟩ - hmin hmax entries hentries
    have h₁ := h () (ensureAmountIsWithinRange_eq_ok.2 ⟨hmin, hmax⟩)
    obtain ⟨hdescription, h₂⟩ := bind_ne_error_iff.1 h₁
    have hfits := extractDescription_ne_panic_iff.1 hdescription entries hentries
    refine ⟨hfits, fun haddress => ?_⟩
    obtain ⟨d, hd⟩ := extractDescription_eq_ok.2 ⟨entries, hentries, hfits⟩
    have h₃ := h₂ d hd
    rw [if_neg haddress] at h₃
    have h₄ := (bind_ne_error_iff.1 h₃).2 entries (orErr_eq_ok.2 hentries)
    exact (findIdentifier_ne_panic_iff hfits).1 (bind_ne_error_iff.1 h₄).1
  · intro h
    refine ⟨ensureAmountIsWithinRange_ne_panic reply, fun _ hrange => ?_⟩
    obtain ⟨hmin, hmax⟩ := ensureAmountIsWithinRange_eq_ok.1 hrange
    have hmetadata := h htag hmin hmax
    refine bind_ne_error (extractDescription_ne_panic_iff.2 fun entries he => (hmetadata entries he).1) fun _ _ => ?_
    by_cases hlnurl : isLnurl ident
    · rw [if_pos hlnurl]
      exact nofun
    rw [if_neg hlnurl]
    refine bind_ne_error (orErr_ne_panic _ _) fun entries hentries => ?_
    obtain ⟨hfits, haddress⟩ := hmetadata entries (orErr_eq_ok.1 hentries)
    refine bind_ne_error ((findIdentifier_ne_panic_iff hfits).2 (haddress hlnurl)) fun identifier _ => ?_
    split_ifs <;> exact nofun

theorem buildCallbackUrl_ne_panic (reply : PayRequestResponse) : buildCallbackUrl L reply amount ≠ .error .panic :=
  bind_ne_error (orErr_ne_panic _ _) nofun

/-- **The check of an invoice panics** where it wants to name an amount that is not stated. -/
theorem validateInvoiceFromCallbackResponse_ne_panic_iff {invoice : L.Invoice} {metadata : String} :
    validateInvoiceFromCallbackResponse L invoice amount metadata ≠ .error .panic ↔
      (L.amountMilliSatoshis invoice = none → amount = 0) := by
  unfold validateInvoiceFromCallbackResponse
  cases hmsats : L.amountMilliSatoshis invoice with
  | none =>
    by_cases hzero : (0 : UInt64) = amount
    · rw [Option.getD_none, if_pos hzero]
      refine iff_of_true ?_ fun _ => hzero.symm
      split_ifs <;> simp
    · rw [Option.getD_none, if_neg hzero]
      exact iff_of_false (fun h => h rfl) fun h => hzero (h rfl).symm
  | some msats =>
    refine iff_of_true ?_ nofun
    split_ifs <;> simp

/-! ### The functions -/

theorem resolveLnurlToInvoice_ne_panic_iff :
    resolveLnurlToInvoice L http debug ident amount ≠ .error .panic ↔ PaySafe L http debug ident amount := by
  unfold resolveLnurlToInvoice resolveSending
  constructor
  · intro h
    obtain ⟨-, h⟩ := Async.run_lift_bind_ne_error_iff.1 h
    have hdomain : ∀ url, identifierUrl L ident = .ok url → debugDomain L debug url = .ok () := fun url hurl =>
      debugDomain_ne_panic_iff.1 (Async.run_lift_bind_ne_error_iff.1 (h url hurl)).1
    -- from here on the log line is passed
    have hreply : ∀ url reply, identifierUrl L ident = .ok url → http.getPayRequestResponse url = .ok reply →
        validatePayRequestResponse L ident reply amount ≠ .error .panic ∧
          (validatePayRequestResponse L ident reply amount = .ok () →
            ∀ callbackUrl, buildCallbackUrl L reply amount = .ok callbackUrl →
              ∀ callback, http.getPayRequestCallbackResponse callbackUrl = .ok callback →
                ∀ invoice, L.invoiceFromStr callback.pr = .ok invoice →
                  validateInvoiceFromCallbackResponse L invoice amount reply.metadata ≠ .error .panic) := by
      intro url reply hurl hreply
      have h₂ := (Async.run_lift_bind_ne_error_iff.1 (h url hurl)).2 () (hdomain url hurl)
      have h₃ := Async.run_request_bind_ne_panic_iff.1 h₂ reply hreply
      obtain ⟨hvalidates, h₄⟩ := Async.run_lift_bind_ne_error_iff.1 h₃
      refine ⟨hvalidates, fun hvalid callbackUrl hbuild callback hcallback invoice hinvoice => ?_⟩
      have h₅ := (Async.run_lift_bind_ne_error_iff.1 (h₄ () hvalid)).2 callbackUrl hbuild
      have h₆ := Async.run_request_bind_ne_panic_iff.1 h₅ callback hcallback
      have h₇ := (Async.run_lift_bind_ne_error_iff.1 h₆).2 invoice (orErr_eq_ok.2 hinvoice)
      exact (Async.run_lift_bind_ne_error_iff.1 h₇).1
    refine ⟨fun url hurl => debugDomain_eq_ok.1 (hdomain url hurl), ?_, ?_⟩
    · intro url reply entries hurl hanswer htag hmin hmax hentries
      have hvalidates := validatePayRequestResponse_ne_panic_iff.1 (hreply url reply hurl hanswer).1
      exact hvalidates htag hmin hmax entries hentries
    · rintro url reply callback invoice ⟨hurl, hanswer, ⟨callbackUrl, hbuild, hcallback⟩, hinvoice⟩ hvalid
      exact validateInvoiceFromCallbackResponse_ne_panic_iff.1 ((hreply url reply hurl hanswer).2
        (validatePayRequestResponse_eq_ok.2 hvalid) callbackUrl hbuild callback hcallback invoice hinvoice)
  · intro hsafe
    refine Async.run_lift_bind_ne_error_iff.2 ⟨identifierUrl_ne_panic L ident, fun url hurl => ?_⟩
    have hlogged : debugDomain L debug url ≠ .error .panic :=
      debugDomain_ne_panic_iff.2 (debugDomain_eq_ok.2 (hsafe.domain url hurl))
    refine Async.run_lift_bind_ne_error_iff.2 ⟨hlogged, fun _ _ => ?_⟩
    refine Async.run_request_bind_ne_panic_iff.2 fun reply hanswer => ?_
    have hvalidates : validatePayRequestResponse L ident reply amount ≠ .error .panic :=
      validatePayRequestResponse_ne_panic_iff.2 fun htag hmin hmax entries hentries =>
        hsafe.metadata url reply entries hurl hanswer htag hmin hmax hentries
    refine Async.run_lift_bind_ne_error_iff.2 ⟨hvalidates, fun _ hvalid => ?_⟩
    refine Async.run_lift_bind_ne_error_iff.2 ⟨buildCallbackUrl_ne_panic reply, fun callbackUrl hbuild => ?_⟩
    refine Async.run_request_bind_ne_panic_iff.2 fun callback hcallback => ?_
    refine Async.run_lift_bind_ne_error_iff.2 ⟨orErr_ne_panic _ _, fun invoice hinvoice => ?_⟩
    have hex : Exchange L http ident amount url reply callback invoice :=
      ⟨hurl, hanswer, ⟨callbackUrl, hbuild, hcallback⟩, orErr_eq_ok.1 hinvoice⟩
    refine Async.run_lift_bind_ne_error_iff.2 ⟨validateInvoiceFromCallbackResponse_ne_panic_iff.2 ?_, nofun⟩
    exact hsafe.stated url reply callback invoice hex (validatePayRequestResponse_eq_ok.1 hvalid)

theorem parseWithdrawRequestResponseFromUrl_ne_panic_iff {url : String} :
    parseWithdrawRequestResponseFromUrl L url ≠ .error .panic ↔ ∃ u, L.urlParse url = .ok u := by
  unfold parseWithdrawRequestResponseFromUrl
  rw [bind_ne_error_iff]
  cases L.urlParse url with
  | error e => exact iff_of_false (fun h => h.1 rfl) nofun
  | ok u => exact iff_of_true ⟨nofun, nofun⟩ ⟨u, rfl⟩

theorem getWithdrawRequestResponse_ne_panic_iff {lnurl : String} (sent : List Request) :
    ((getWithdrawRequestResponse L http lnurl).run sent).1 ≠ .error .panic ↔ WithdrawSafe L lnurl := by
  unfold getWithdrawRequestResponse
  rw [Async.run_bind_ne_error_iff]
  constructor
  · rintro ⟨-, h⟩ url hurl
    have h₁ := h url sent (Async.run_lift_eq_ok.2 ⟨hurl, rfl⟩)
    exact parseWithdrawRequestResponseFromUrl_ne_panic_iff.1 (Async.run_bind_ne_error_iff.1 h₁).1
  · intro hsafe
    refine ⟨parseLnurl_ne_panic L lnurl, fun url _ h => ?_⟩
    obtain ⟨hurl, rfl⟩ := Async.run_lift_eq_ok.1 h
    refine Async.run_bind_ne_error_iff.2
      ⟨parseWithdrawRequestResponseFromUrl_ne_panic_iff.2 (hsafe url hurl), fun quick _ _ => ?_⟩
    cases quick with
    | some w => exact nofun
    | none => exact orErr_ne_panic _ _

/-- **When the functions on an LNURL end without a panic.**  The user's text and the servers' replies decide it. -/
theorem lnurl_no_panic_iff (L : LnurlLib) (http : HttpClient) (debug : Bool) (ident lnurl : String)
    (amount : UInt64) :
    (resolveLnurlToInvoice L http debug ident amount ≠ .error .panic ∧
        ((getWithdrawRequestResponse L http lnurl).run []).1 ≠ .error .panic) ↔
      PaySafe L http debug ident amount ∧ WithdrawSafe L lnurl :=
  and_congr resolveLnurlToInvoice_ne_panic_iff (getWithdrawRequestResponse_ne_panic_iff [])

/-- The text `w` in place of a URL. -/
example (http : HttpClient) :
    ((getWithdrawRequestResponse plainLnurl http "LNURL1WUYLXG85").run []).1 = .error .panic := by
  have hurl : parseLnurl plainLnurl "LNURL1WUYLXG85" = .ok "w" := by decide +kernel
  unfold getWithdrawRequestResponse
  rw [hurl]
  rfl

/-- A server whose metadata has an empty entry. -/
def emptyEntryServer : HttpClient where
  getPayRequestResponse _ := .ok
    { callback := "https://b/pay", maxSendable := 100000, minSendable := 1000, tag := "payRequest",
      metadata := "[[]]" }
  getPayRequestCallbackResponse _ := .error "no invoices"
  getWithdrawalRequestResponse _ := .error "no withdrawals"
  sendInvoiceForWithdrawRequest _ := .error "no withdrawals"

/-- The empty entry ends the payment in a panic. -/
theorem lnurl_panics : ¬ ∀ (http : HttpClient) (debug : Bool) (ident lnurl : String) (amount : UInt64),
    resolveLnurlToInvoice plainLnurl http debug ident amount ≠ .error .panic ∧
      ((getWithdrawRequestResponse plainLnurl http lnurl).run []).1 ≠ .error .panic := by
  intro hall
  have hpay : resolveLnurlToInvoice plainLnurl emptyEntryServer false "a@b" 5000 = .error .panic := by
    decide +kernel
  obtain ⟨hno, -⟩ := hall emptyEntryServer false "a@b" "LNURL1WUYLXG85" 5000
  exact hno hpay

end Greenlight.Lnurl
