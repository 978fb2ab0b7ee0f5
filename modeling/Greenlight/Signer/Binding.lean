import Greenlight.Client.AuthService
import Greenlight.Signer.Request

/-!
# Which call a request of the context comes from

No one but its client signs the bytes of a call.  But the URI is not among them, so the node can attach the bytes
under another URI, and what the signer derives is a call of the client exactly if the client has made that call as
well wherever the rune and the decoder admit it (`boundToCalls_iff`).
-/

namespace Greenlight

open Greenlight.Lib

namespace Signer

variable {s : Signer} {prost : Prost} {now : ℤ} {log : List ClientCall}

/-- The signatures of the calls of the log verify. -/
def Genuine (s : Signer) (log : List ClientCall) : Prop :=
  ∀ c ∈ log, c.pubkey ≠ [] ∧ c.signature ≠ [] ∧ s.verify c.pubkey c.signedData c.signature

/-- Only the signatures of calls verify. -/
def Unforgeable (s : Signer) (log : List ClientCall) : Prop :=
  ∀ key data sig, s.verify key data sig → ∃ c ∈ log, c.pubkey = key ∧ c.signedData = data

/-- The client has made the call that the request pretends to be. -/
def HasCall (log : List ClientCall) (p : PendingRequest) : Prop :=
  ∃ c ∈ log, c.pubkey = p.pubkey ∧ c.signedData = p.signedData ∧ c.uri = p.uri

/-- Every request of a context, whatever the node attaches, is a call of the client. -/
def BoundToCalls (s : Signer) (prost : Prost) (now : ℤ) (log : List ClientCall) : Prop :=
  ∀ (requests : List PendingRequest) (context : List Request), s.contextRequests prost now requests = some context →
    ∀ request ∈ context, ∀ p ∈ requests, s.Derives prost now p request → HasCall log p

/-- Where the bytes of a call decode under a second URI and a rune admits it for the key, the client has made that
call too. -/
def ClosedUnderRelabelling (s : Signer) (prost : Prost) (now : ℤ) (log : List ClientCall) : Prop :=
  ∀ c ∈ log, ∀ p : PendingRequest, p.pubkey = c.pubkey → p.signature = c.signature → p.signedData = c.signedData →
    p.rune ≠ [] → s.verifyRune now p = .ok () → (∃ request, decodeRequest prost p = some (.ok request)) →
    HasCall log p

/-- **The node can relabel calls.**  What the signer derives are calls of the client if and only if the log of calls
is closed under relabelling. -/
theorem boundToCalls_iff (hgenuine : s.Genuine log) (hunf : s.Unforgeable log) :
    s.BoundToCalls prost now log ↔ s.ClosedUnderRelabelling prost now log := by
  constructor
  · intro hbound c hc p hkey hsig hdata hrune hverify hdecodes
    obtain ⟨request, hrequest⟩ := hdecodes
    obtain ⟨hkey', hsig', hgood⟩ := hgenuine c hc
    have haccepts : s.Accepts now p := by
      refine ⟨⟨?_, ?_, hrune⟩, ?_, hverify⟩
      · rwa [hkey]
      · rwa [hsig]
      · rwa [hkey, hdata, hsig]
    have hderives : s.Derives prost now p request := ⟨haccepts, hrequest⟩
    -- the node attaches the relabelled call alone
    exact hbound [p] [request] (contextRequests_singleton hderives) request (List.mem_singleton_self request) p
      (List.mem_singleton_self p) hderives
  · intro hclosed requests context _ request _ p _ hderives
    obtain ⟨c, hc, hkey, hdata⟩ := hunf _ _ _ hderives.accepts.signature
    -- the signature of the call takes the place of that of the request, which nothing else depends on
    obtain ⟨c', hc', hkey', hdata', huri'⟩ := hclosed c hc { p with signature := c.signature } hkey.symm rfl
      hdata.symm hderives.accepts.isSigned.2.2 hderives.accepts.rune ⟨request, hderives.decodes⟩
    exact ⟨c', hc', hkey', hdata', huri'⟩

/-- A signer with runes in plain text that knows the signatures of the calls of a log, and no others. -/
def knowing (log : List ClientCall) : Signer :=
  { plain with
    verify := fun key data sig =>
      log.any fun c => decide (c.pubkey = key ∧ c.signedData = data ∧ c.signature = sig) }

theorem unforgeable_knowing (log : List ClientCall) : (knowing log).Unforgeable log := by
  intro key data sig h
  obtain ⟨c, hc, hmatch⟩ := List.any_eq_true.1 h
  obtain ⟨hkey, hdata, -⟩ := of_decide_eq_true hmatch
  exact ⟨c, hc, hkey, hdata⟩

theorem genuine_knowing {log : List ClientCall} (h : ∀ c ∈ log, c.pubkey ≠ [] ∧ c.signature ≠ []) :
    (knowing log).Genuine log := fun c hc =>
  ⟨(h c hc).1, (h c hc).2, List.any_eq_true.2 ⟨c, hc, by simp⟩⟩

def payCall : ClientCall :=
  AuthService.call ⟨[0x11, 0x22], fun data => data, "K:=0-gl0&pubkey=1122"⟩ 5 "/cln.Node/Pay"
    [0, 0, 0, 0, 6, 0x0a, 4, 0x6c, 0x6e, 0x62, 0x63]

theorem boundToCalls_iff_pay : (knowing [payCall]).BoundToCalls Prost.bolt11 0 [payCall] ↔
    (knowing [payCall]).ClosedUnderRelabelling Prost.bolt11 0 [payCall] :=
  boundToCalls_iff (genuine_knowing (by decide)) (unforgeable_knowing _)

/-- The bytes of a call of `Pay` decode as a `PreapproveinvoiceRequest`, and a rune that admits both methods
lets the node attach them as such. -/
theorem boundToCalls_relabelled : ¬ ∀ (s : Signer) (prost : Prost) (now : ℤ) (log : List ClientCall),
    s.Genuine log → s.Unforgeable log → s.BoundToCalls prost now log := by
  intro hall
  let p : PendingRequest :=
    { plainRequest payCall.pubkey "K:=0-gl0&pubkey=1122" with
      uri := "/cln.Node/PreApproveInvoice"
      request := payCall.body
      signature := payCall.signature
      timestamp := payCall.timestamp }
  have hderives : (knowing [payCall]).Derives Prost.bolt11 0 p (.preApproveInvoice ⟨"lnbc"⟩) :=
    ⟨⟨by decide +kernel, by decide +kernel, by decide +kernel⟩, by decide +kernel⟩
  have hbound := hall (knowing [payCall]) Prost.bolt11 0 [payCall] (genuine_knowing (by decide))
    (unforgeable_knowing _)
  obtain ⟨c, hc, -, -, huri⟩ := hbound [p] _ (contextRequests_singleton hderives) _ (List.mem_singleton_self _) p
    (List.mem_singleton_self p) hderives
  obtain rfl := List.mem_singleton.1 hc
  exact absurd huri (by decide)

end Signer

end Greenlight
