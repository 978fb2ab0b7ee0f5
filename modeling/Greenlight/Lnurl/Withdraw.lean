import Greenlight.Lib.Decimal
import Greenlight.Lnurl.Models

/-!
# Withdrawing by an LNURL

`withdraw/mod.rs` and `LNURL::withdraw`: the server of an LNURL offers an amount within a range, the node makes an
invoice for the amount, and the callback of the server is to be called with the invoice.  This last request is built
and dropped: a future that nobody awaits does nothing.  So `withdraw` reports success without having sent the
invoice, and it does not look at the range either (`withdraw_done_iff`).
-/

namespace Greenlight.Lnurl

open Greenlight.Lib

/-- The node that makes the invoices: a request has an invoice in `bolt11` as its answer. -/
structure Node where
  invoice : InvoiceRequest → Except String String

/-! ### The offer of the server -/

/-- A field of the object that is collected of the pairs: a later pair replaces an earlier one. -/
def queryValue (pairs : List (String × String)) (name : String) : Option String :=
  (pairs.reverse.find? (·.1 = name)).map (·.2)

/-- `parse_withdraw_request_response_from_url`: the request of a quick withdraw stands in the URL itself. -/
def parseWithdrawRequestResponseFromUrl (L : LnurlLib) (url : String) :
    Except Failure (Option WithdrawRequestResponse) := do
  let url ← unwrap (L.urlParse url)
  let field := queryValue (L.queryPairs url)
  return do
    let minWithdrawable ← parseU64 (← field "minWithdrawable")
    let maxWithdrawable ← parseU64 (← field "maxWithdrawable")
    let tag ← field "tag"
    let callback ← field "callback"
    let k1 ← field "k1"
    let defaultDescription ← field "defaultDescription"
    return { tag, callback, k1, defaultDescription, minWithdrawable, maxWithdrawable }

def getWithdrawRequestResponse (L : LnurlLib) (http : HttpClient) (lnurl : String) :
    Async WithdrawRequestResponse := do
  let url ← Async.lift (parseLnurl L lnurl)
  match ← Async.lift (parseWithdrawRequestResponseFromUrl L url) with
  | some w => return w
  | none => Async.request (.getWithdrawalRequestResponse url) (http.getWithdrawalRequestResponse url)

def buildWithdrawRequestCallbackUrl (L : LnurlLib) (reply : WithdrawRequestResponse) (invoice : String) :
    Except Failure String := do
  let url ← orErr "" (L.urlParse reply.callback)
  return L.urlToString (L.appendPair (L.appendPair url "k1" reply.k1) "pr" invoice)

def withdrawInvoiceRequest (reply : WithdrawRequestResponse) (amount : UInt64) : InvoiceRequest :=
  { amountMsat := some (.amount amount), description := reply.defaultDescription }

def withdraw (L : LnurlLib) (http : HttpClient) (node : Node) (lnurl : String) (amount : UInt64) : Async Unit := do
  let reply ← getWithdrawRequestResponse L http lnurl
  let invoice ← Async.request (.invoice (withdrawInvoiceRequest reply amount))
    (node.invoice (withdrawInvoiceRequest reply amount))
  let callbackUrl ← Async.lift (buildWithdrawRequestCallbackUrl L reply invoice)
  -- bound with `let _ =` and not awaited
  let _ := Async.request (.sendInvoiceForWithdrawRequest callbackUrl)
    (http.sendInvoiceForWithdrawRequest callbackUrl)
  return ()

example : queryValue [("k1", "a"), ("tag", "t"), ("k1", "b")] "k1" = some "b" := by decide

/-! ### What a withdrawal does -/

/-- The withdraw request of an LNURL: the one in its URL, or the one that the server has at the URL. -/
def WithdrawRequestOf (L : LnurlLib) (http : HttpClient) (lnurl : String) (reply : WithdrawRequestResponse) : Prop :=
  ∃ url, parseLnurl L lnurl = .ok url ∧
    (parseWithdrawRequestResponseFromUrl L url = .ok (some reply) ∨
      parseWithdrawRequestResponseFromUrl L url = .ok none ∧ http.getWithdrawalRequestResponse url = .ok reply)

/-- What `withdraw` needs to come to its end: a withdraw request, an invoice for it and a callback that is a URL. -/
def Prepared (L : LnurlLib) (http : HttpClient) (node : Node) (lnurl : String) (amount : UInt64)
    (reply : WithdrawRequestResponse) (invoice callbackUrl : String) : Prop :=
  WithdrawRequestOf L http lnurl reply ∧ node.invoice (withdrawInvoiceRequest reply amount) = .ok invoice ∧
    buildWithdrawRequestCallbackUrl L reply invoice = .ok callbackUrl

def isSendInvoice : Request → Bool
  | .sendInvoiceForWithdrawRequest _ => true
  | _ => false

/-- **The withdrawal has been made**: the amount is within the range, the invoice is one for the amount, and the
callback with `k1` and the invoice has been called exactly once, with success. -/
def Withdrawn (L : LnurlLib) (http : HttpClient) (node : Node) (lnurl : String) (amount : UInt64)
    (sent : List Request) : Prop :=
  ∃ reply invoice callbackUrl answer, Prepared L http node lnurl amount reply invoice callbackUrl ∧
    reply.minWithdrawable ≤ amount ∧ amount ≤ reply.maxWithdrawable ∧
    .invoice (withdrawInvoiceRequest reply amount) ∈ sent ∧
    sent.filter isSendInvoice = [.sendInvoiceForWithdrawRequest callbackUrl] ∧
    http.sendInvoiceForWithdrawRequest callbackUrl = .ok answer

section

variable {L : LnurlLib} {http : HttpClient} {node : Node} {lnurl : String} {amount : UInt64} {sent : List Request}

theorem getWithdrawRequestResponse_eq_ok {reply : WithdrawRequestResponse}
    (h : (getWithdrawRequestResponse L http lnurl).run [] = (.ok reply, sent)) :
    WithdrawRequestOf L http lnurl reply ∧ sent.filter isSendInvoice = [] := by
  obtain ⟨url, sent₁, h₁, h₂⟩ := Async.run_bind_eq_ok.1 h
  obtain ⟨hurl, rfl⟩ := Async.run_lift_eq_ok.1 h₁
  obtain ⟨quick, sent₂, h₃, h₄⟩ := Async.run_bind_eq_ok.1 h₂
  obtain ⟨hquick, rfl⟩ := Async.run_lift_eq_ok.1 h₃
  cases quick with
  | some w =>
    obtain ⟨hw, rfl⟩ := Async.run_lift_eq_ok (x := .ok w).1 h₄
    obtain rfl := Except.ok.inj hw
    exact ⟨⟨url, hurl, Or.inl hquick⟩, rfl⟩
  | none =>
    obtain ⟨hreply, rfl⟩ := Async.run_request_eq_ok.1 h₄
    exact ⟨⟨url, hurl, Or.inr ⟨hquick, hreply⟩⟩, rfl⟩

theorem exists_run_getWithdrawRequestResponse {reply : WithdrawRequestResponse}
    (h : WithdrawRequestOf L http lnurl reply) :
    ∃ sent, (getWithdrawRequestResponse L http lnurl).run [] = (.ok reply, sent) := by
  obtain ⟨url, hurl, hreply⟩ := h
  rcases hreply with hquick | ⟨hquick, hreply⟩
  · refine ⟨[], Async.run_bind_eq_ok.2 ⟨url, [], Async.run_lift_eq_ok.2 ⟨hurl, rfl⟩, ?_⟩⟩
    exact Async.run_bind_eq_ok.2 ⟨some reply, [], Async.run_lift_eq_ok.2 ⟨hquick, rfl⟩, rfl⟩
  · refine ⟨[.getWithdrawalRequestResponse url],
      Async.run_bind_eq_ok.2 ⟨url, [], Async.run_lift_eq_ok.2 ⟨hurl, rfl⟩, ?_⟩⟩
    refine Async.run_bind_eq_ok.2 ⟨none, [], Async.run_lift_eq_ok.2 ⟨hquick, rfl⟩, ?_⟩
    exact Async.run_request_eq_ok.2 ⟨hreply, rfl⟩

theorem withdraw_eq_ok (h : (withdraw L http node lnurl amount).run [] = (.ok (), sent)) :
    (∃ reply invoice callbackUrl, Prepared L http node lnurl amount reply invoice callbackUrl) ∧
      sent.filter isSendInvoice = [] := by
  obtain ⟨reply, sent₁, h₁, h₂⟩ := Async.run_bind_eq_ok.1 h
  obtain ⟨hreply, hnone⟩ := getWithdrawRequestResponse_eq_ok h₁
  obtain ⟨invoice, sent₂, h₃, h₄⟩ := Async.run_bind_eq_ok.1 h₂
  obtain ⟨hinvoice, rfl⟩ := Async.run_request_eq_ok.1 h₃
  obtain ⟨callbackUrl, sent₃, h₅, h₆⟩ := Async.run_bind_eq_ok.1 h₄
  obtain ⟨hbuild, rfl⟩ := Async.run_lift_eq_ok.1 h₅
  obtain ⟨-, rfl⟩ := Async.run_lift_eq_ok (x := .ok ()).1 h₆
  refine ⟨⟨reply, invoice, callbackUrl, hreply, hinvoice, hbuild⟩, ?_⟩
  rw [List.filter_append, hnone]
  rfl

theorem exists_run_withdraw {reply : WithdrawRequestResponse} {invoice callbackUrl : String}
    (h : Prepared L http node lnurl amount reply invoice callbackUrl) :
    ∃ sent, (withdraw L http node lnurl amount).run [] = (.ok (), sent) := by
  obtain ⟨hreply, hinvoice, hbuild⟩ := h
  obtain ⟨sent, hsent⟩ := exists_run_getWithdrawRequestResponse hreply
  refine ⟨sent ++ [.invoice (withdrawInvoiceRequest reply amount)], ?_⟩
  refine Async.run_bind_eq_ok.2 ⟨reply, sent, hsent, ?_⟩
  refine Async.run_bind_eq_ok.2 ⟨invoice, _, Async.run_request_eq_ok.2 ⟨hinvoice, rfl⟩, ?_⟩
  exact Async.run_bind_eq_ok.2 ⟨callbackUrl, _, Async.run_lift_eq_ok.2 ⟨hbuild, rfl⟩, rfl⟩

end

/-- **When a withdrawal is what it reports.**  Only where it cannot come to its end: wherever there are a withdraw
request, an invoice and a callback, it reports a success that has not taken place. -/
theorem withdraw_done_iff (L : LnurlLib) (http : HttpClient) (node : Node) (lnurl : String) (amount : UInt64) :
    (∀ sent, (withdraw L http node lnurl amount).run [] = (.ok (), sent) →
        Withdrawn L http node lnurl amount sent) ↔
      ¬ ∃ reply invoice callbackUrl, Prepared L http node lnurl amount reply invoice callbackUrl := by
  constructor
  · rintro hdone ⟨reply, invoice, callbackUrl, hprepared⟩
    obtain ⟨sent, hsent⟩ := exists_run_withdraw hprepared
    obtain ⟨-, -, url, -, -, -, -, -, honce, -⟩ := hdone sent hsent
    obtain ⟨-, hnone⟩ := withdraw_eq_ok hsent
    rw [hnone] at honce
    cases honce
  · intro hno sent hsent
    obtain ⟨hprepared, -⟩ := withdraw_eq_ok hsent
    exact absurd hprepared hno

/-- A server that offers between 1000 and 5000 millisatoshis. -/
def offeringServer : HttpClient where
  getPayRequestResponse _ := .error "no payments"
  getPayRequestCallbackResponse _ := .error "no payments"
  getWithdrawalRequestResponse _ := .ok
    { tag := "withdrawRequest", callback := "https://b/w", k1 := "unique", defaultDescription := "",
      minWithdrawable := 1000, maxWithdrawable := 5000 }
  sendInvoiceForWithdrawRequest _ := .ok ⟨"OK"⟩

/-- The withdrawal of an amount that is offered ends with `Ok` and two requests, neither of them the callback. -/
theorem withdraw_not_done : ¬ ∀ (http : HttpClient) (node : Node) (lnurl : String) (amount : UInt64)
    (sent : List Request), (withdraw plainLnurl http node lnurl amount).run [] = (.ok (), sent) →
      Withdrawn plainLnurl http node lnurl amount sent := by
  intro hall
  have hrun : (withdraw plainLnurl offeringServer ⟨fun _ => .ok "lnbc50n1stated"⟩
      "LNURL1DP68GURN8GHJ7C30WUWX582E" 5000).run [] =
      (.ok (), [.getWithdrawalRequestResponse "https://b/w", .invoice ⟨some (.amount 5000), ""⟩]) := by
    decide +kernel
  obtain ⟨-, -, url, -, -, -, -, -, honce, -⟩ := hall _ _ _ _ _ hrun
  exact nomatch honce

end Greenlight.Lnurl
