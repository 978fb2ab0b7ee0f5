import Greenlight.Signer.Process

/-!
# Approvals of the context

`GreenlightAuthorizer::authorize` approves the invoices of the `Pay` requests of a context.  The resolver lets an
invoice pass for two more kinds of requests, and for these no approval is made (`authorize_approves_iff`).
-/

namespace Greenlight

open Greenlight.Lib

/-- The invoice that a request is about, for the kinds that the resolver lets justify an invoice. -/
def Request.invoiceToPay? : Request → Option String
  | .pay req => some req.bolt11
  | .preApproveInvoice req => some req.bolt11
  | .trampolinePay req => some req.bolt11
  | _ => none

variable {Value : Type} {vls : Vls Value} {reqctx : List Request}

/-- Every `Pay` request has an invoice that parses. -/
def PaysParse (vls : Vls Value) (reqctx : List Request) : Prop :=
  ∀ req, .pay req ∈ reqctx → ∃ invoice, vls.invoiceFromStr req.bolt11 = .ok invoice

theorem paysParse_append {more : List Request} :
    PaysParse vls (reqctx ++ more) ↔ PaysParse vls reqctx ∧ PaysParse vls more := by
  constructor
  · intro h
    exact ⟨fun req hmem => h req (List.mem_append_left _ hmem),
      fun req hmem => h req (List.mem_append_right _ hmem)⟩
  · rintro ⟨h, h'⟩ req hmem
    rcases List.mem_append.1 hmem with hmem | hmem
    · exact h req hmem
    · exact h' req hmem

theorem mem_authorize {approvals : List vls.Invoice} (h : authorize vls reqctx = .ok approvals)
    {invoice : vls.Invoice} :
    invoice ∈ approvals ↔ ∃ req, .pay req ∈ reqctx ∧ vls.invoiceFromStr req.bolt11 = .ok invoice := by
  induction reqctx generalizing approvals with
  | nil =>
    obtain rfl := Except.ok.inj h
    simp
  | cons request rest ih =>
    cases request with
    | pay req =>
      rw [authorize] at h
      split at h
      · rename_i first hfirst
        cases hrest : authorize vls rest with
        | error e =>
          rw [hrest] at h
          cases h
        | ok others =>
          rw [hrest] at h
          obtain rfl := Except.ok.inj h
          rw [List.mem_cons, ih hrest]
          constructor
          · rintro (rfl | ⟨req', hmem, hparse⟩)
            · exact ⟨req, List.mem_cons_self, hfirst⟩
            · exact ⟨req', List.mem_cons_of_mem _ hmem, hparse⟩
          · rintro ⟨req', hmem, hparse⟩
            rcases List.mem_cons.1 hmem with heq | hmem
            · obtain rfl := Request.pay.inj heq
              exact Or.inl (Except.ok.inj (hparse.symm.trans hfirst))
            · exact Or.inr ⟨req', hmem, hparse⟩
      · cases h
    | _ =>
      rw [authorize] at h
      · rw [ih h]
        simp
      · exact nofun

theorem exists_authorize_iff : (∃ approvals, authorize vls reqctx = .ok approvals) ↔ PaysParse vls reqctx := by
  induction reqctx with
  | nil =>
    constructor
    · intro _ req hmem
      cases hmem
    · intro _
      exact ⟨[], rfl⟩
  | cons request rest ih =>
    cases request with
    | pay req =>
      rw [← List.singleton_append, paysParse_append, ← ih, List.singleton_append, authorize]
      have hfirst : PaysParse vls [.pay req] ↔ ∃ invoice, vls.invoiceFromStr req.bolt11 = .ok invoice := by
        simp [PaysParse]
      rw [hfirst]
      cases vls.invoiceFromStr req.bolt11 with
      | error e => simp
      | ok invoice =>
        cases authorize vls rest with
        | error e => simp [Functor.map, Except.map]
        | ok approvals => simp [Functor.map, Except.map]
    | _ =>
      rw [authorize]
      · rw [ih]
        simp [PaysParse]
      · exact nofun

/-- **Which resolved invoices are approved.**  In a context whose invoices parse, the authorizer approves an invoice
that the resolver lets pass if and only if a `Pay` request has this invoice. -/
theorem authorize_approves_iff {asVec : Message → Bytes}
    (hparse : ∀ request ∈ reqctx, ∀ bolt11, request.invoiceToPay? = some bolt11 →
      ∃ invoice, vls.invoiceFromStr bolt11 = .ok invoice)
    {invstring : String} {invoice : vls.Invoice} (_hinvoice : vls.invoiceFromStr invstring = .ok invoice)
    (_hresolved : (Message.preapproveInvoice (utf8 invstring)).tryResolve asVec reqctx = .ok ()) :
    (∃ approvals, authorize vls reqctx = .ok approvals ∧ invoice ∈ approvals) ↔
      ∃ req, .pay req ∈ reqctx ∧ vls.invoiceFromStr req.bolt11 = .ok invoice := by
  have hpays : PaysParse vls reqctx := fun req hmem => hparse _ hmem _ rfl
  obtain ⟨approvals, hok⟩ := exists_authorize_iff.2 hpays
  rw [← mem_authorize hok]
  constructor
  · rintro ⟨approvals', hok', hmem⟩
    obtain rfl := Except.ok.inj (hok.symm.trans hok')
    exact hmem
  · intro hmem
    exact ⟨approvals, hok, hmem⟩

theorem authorize_approves_iff_pay : ∃ invoice, Signer.plainVls.invoiceFromStr "lnbc" = .ok invoice ∧
    ((∃ approvals, authorize Signer.plainVls [.pay ⟨"lnbc"⟩] = .ok approvals ∧ invoice ∈ approvals) ↔
      ∃ req, .pay req ∈ [Request.pay ⟨"lnbc"⟩] ∧ Signer.plainVls.invoiceFromStr req.bolt11 = .ok invoice) := by
  have hresolved : (Message.preapproveInvoice (utf8 "lnbc")).tryResolve Signer.plainVls.asVec [.pay ⟨"lnbc"⟩] =
      .ok () :=
    Message.tryResolve_eq_ok.2 (Or.inr ⟨_, List.mem_singleton_self _, by decide +kernel⟩)
  exact ⟨_, rfl, authorize_approves_iff (fun _ _ bolt11 _ => ⟨_, rfl⟩) rfl hresolved⟩

/-- A `PreApproveInvoice` request resolves the invoice, and nothing approves it. -/
theorem authorize_misses : ¬ ∀ (vls : Vls Bool) (reqctx : List Request) (invstring : String) (invoice : vls.Invoice),
    (∀ request ∈ reqctx, ∀ bolt11, request.invoiceToPay? = some bolt11 →
      ∃ invoice, vls.invoiceFromStr bolt11 = .ok invoice) →
    vls.invoiceFromStr invstring = .ok invoice →
    (Message.preapproveInvoice (utf8 invstring)).tryResolve vls.asVec reqctx = .ok () →
    ∃ approvals, authorize vls reqctx = .ok approvals ∧ invoice ∈ approvals := by
  intro hall
  have hresolved : (Message.preapproveInvoice (utf8 "lnbc")).tryResolve Signer.plainVls.asVec
      [.preApproveInvoice ⟨"lnbc"⟩] = .ok () :=
    Message.tryResolve_eq_ok.2 (Or.inr ⟨_, List.mem_singleton_self _, by decide +kernel⟩)
  obtain ⟨approvals, hok, hmem⟩ := hall Signer.plainVls [.preApproveInvoice ⟨"lnbc"⟩] "lnbc" _
    (fun _ _ bolt11 _ => ⟨_, rfl⟩) rfl hresolved
  obtain rfl := Except.ok.inj hok
  cases hmem

end Greenlight
