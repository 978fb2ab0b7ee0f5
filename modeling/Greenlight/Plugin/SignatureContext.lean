import Mathlib.Logic.Function.Basic
import Greenlight.Lib.Transition
import Greenlight.Signer.Rune

/-!
# The signature request context

`Context` of `context.rs` and `SignatureContextService::call` of `node/mod.rs`, which adds the request of a signed
call to the context while the inner service handles it.  Any number of calls run at a time; an event is one
uninterrupted piece of one call, or of the task that removes its request.  The context is right as long as no call is
dropped while it is handled (`noStale_iff`) and no two calls in it have the same signature (`listsInFlight_iff`).
-/

namespace Greenlight.Plugin

open Greenlight.Lib

/-- `context::Request`. -/
structure Context.Request where
  pubkey : Bytes
  signature : Bytes
  rune : Bytes
  payload : Bytes
  uri : String
  timestamp : Option UInt64
  deriving DecidableEq, Repr

/-- `PendingRequest::from`. -/
def Context.Request.toPendingRequest (r : Context.Request) : PendingRequest where
  pubkey := r.pubkey
  signature := r.signature
  request := r.payload
  uri := r.uri
  timestamp := r.timestamp.getD 0
  rune := r.rune

structure Context where
  requests : List Context.Request
  deriving DecidableEq, Repr

namespace Context

def snapshot (c : Context) : List Request := c.requests

def addRequest (c : Context) (r : Request) : Context := ⟨c.requests ++ [r]⟩

def removeRequest (c : Context) (r : Request) : Context :=
  ⟨c.requests.filter fun a => a.signature ≠ r.signature⟩

/-- The requests that `stream_hsm_requests` attaches for the signer, the stored request to configure the node after
those of the context. -/
def attachedRequests (c : Context) (configure : Option Request) : List PendingRequest :=
  (c.snapshot ++ configure.toList).map Request.toPendingRequest

end Context

/-! ### A call on the wire -/

/-- The URI of a call, the values of the headers that are read, and the pieces that its body arrives in. -/
structure HttpRequest where
  uri : Option String
  glauthpubkey : Option Bytes
  glauthsig : Option Bytes
  glts : Option Bytes
  glrune : Option Bytes
  body : List (Except String Bytes)

/-- The decoders of base64, `STANDARD_NO_PAD` and `URL_SAFE`. -/
structure Base64 where
  standardNoPad : Bytes → Option Bytes
  urlSafe : Bytes → Option Bytes

/-- What makes a request of the body of a signed call.  The outer `none` is a panic, on a URI without a path or on a
timestamp that is too short. -/
def HttpRequest.signed? (b64 : Base64) (r : HttpRequest) : Option (Option (Bytes → Context.Request)) := do
  let uri ← r.uri
  let timestamp ← match r.glts.bind b64.standardNoPad with
    | none => some none
    | some s => (getU64 s).map some
  return do
    let pk ← r.glauthpubkey.bind b64.standardNoPad
    let sig ← r.glauthsig.bind b64.standardNoPad
    let rune ← r.glrune.bind b64.urlSafe
    return fun payload => ⟨pk, sig, rune, payload, uri, timestamp⟩

/-- The maximum message size that is buffered. -/
def maxMessageSize : ℕ := 4000000

/-- The loop that buffers a body: an inner `none` is a body that is too large, the outer one is a panic, on an error
of the connection. -/
def bufferBody : Bytes → List (Except String Bytes) → Option (Option Bytes)
  | buf, [] => some (some buf)
  | _, .error _ :: _ => none
  | buf, .ok chunk :: body =>
    if buf.length + chunk.length > maxMessageSize then some none else bufferBody (buf ++ chunk) body

theorem bufferBody_append (rest : List (Except String Bytes)) : ∀ (chunks : List Bytes) (buf : Bytes),
    buf.length ≤ maxMessageSize → bufferBody buf (chunks.map .ok ++ rest) =
      if buf.length + chunks.flatten.length > maxMessageSize then some none
      else bufferBody (buf ++ chunks.flatten) rest := by
  intro chunks
  induction chunks with
  | nil =>
    intro buf hbuf
    simp [hbuf.not_gt]
  | cons chunk chunks ih =>
    intro buf hbuf
    rw [List.map_cons, List.cons_append, bufferBody, List.flatten_cons, List.length_append]
    by_cases hfull : buf.length + chunk.length > maxMessageSize
    · rw [if_pos hfull, if_pos (by omega)]
    · have hroom : (buf ++ chunk).length ≤ maxMessageSize := by
        rw [List.length_append]
        omega
      rw [if_neg hfull, ih _ hroom, List.length_append, List.append_assoc, Nat.add_assoc]

/-! ### The calls -/

abbrev RpcId := ℕ

inductive RpcPhase where
  | buffering (req : Bytes → Context.Request) (body : List (Except String Bytes))
  /-- It waits for the lock of the context. -/
  | adding (req : Context.Request)
  /-- The inner service handles it; a call that is not signed has no request. -/
  | calling (req : Option Context.Request)
  /-- It has ended, and the task that removes its request has not run. -/
  | returned (req : Context.Request)
  | ended

/-- The request of a call that has added it and neither been dropped nor cleaned up. -/
def RpcPhase.entry? : RpcPhase → Option Context.Request
  | calling req => req
  | returned req => some req
  | _ => none

/-- The calls and the requests of the context, each with the call that has added it. -/
structure SignatureContextService where
  rpcs : RpcId → Option RpcPhase
  entries : List (RpcId × Context.Request)

inductive RpcEvent where
  | call (id : RpcId) (request : HttpRequest)
  /-- The body is read. -/
  | buffer (id : RpcId)
  | add (id : RpcId)
  /-- The inner service returns, with a response or an error, and the task for the request is spawned. -/
  | finish (id : RpcId)
  /-- The task removes the request. -/
  | cleanup (id : RpcId)
  /-- The call is cancelled where it waits, or the inner service panics. -/
  | drop (id : RpcId)

namespace SignatureContextService

def new : SignatureContextService := ⟨fun _ => none, []⟩

def ctx (s : SignatureContextService) : Context := ⟨s.entries.map (·.2)⟩

def setPhase (s : SignatureContextService) (id : RpcId) (ph : RpcPhase) : SignatureContextService :=
  { s with rpcs := Function.update s.rpcs id (some ph) }

@[simp] theorem rpcs_setPhase_self (s : SignatureContextService) (id : RpcId) (ph : RpcPhase) :
    (s.setPhase id ph).rpcs id = some ph := Function.update_self _ _ _

theorem rpcs_setPhase_of_ne (s : SignatureContextService) {id id' : RpcId} (ph : RpcPhase) (h : id' ≠ id) :
    (s.setPhase id ph).rpcs id' = s.rpcs id' := Function.update_of_ne h _ _

/-- One piece of a call of the service. -/
def step (b64 : Base64) (s : SignatureContextService) : RpcEvent → Option SignatureContextService
  | .call id request =>
    match s.rpcs id with
    | none =>
      match request.signed? b64 with
      | none => some (s.setPhase id .ended)
      | some none => some (s.setPhase id (.calling none))
      | some (some req) => some (s.setPhase id (.buffering req request.body))
    | some _ => none
  | .buffer id =>
    match s.rpcs id with
    | some (.buffering req body) =>
      match bufferBody [] body with
      | none => some (s.setPhase id .ended)
      | some none => some (s.setPhase id .ended) -- the payload is too large
      | some (some buf) => some (s.setPhase id (.adding (req buf)))
    | _ => none
  | .add id =>
    match s.rpcs id with
    | some (.adding req) =>
      some { s.setPhase id (.calling (some req)) with entries := s.entries ++ [(id, req)] }
    | _ => none
  | .finish id =>
    match s.rpcs id with
    | some (.calling (some req)) => some (s.setPhase id (.returned req))
    | some (.calling none) => some (s.setPhase id .ended)
    | _ => none
  | .cleanup id =>
    match s.rpcs id with
    | some (.returned req) =>
      some { s.setPhase id .ended with entries := s.entries.filter fun e => e.2.signature ≠ req.signature }
    | _ => none
  | .drop id =>
    match s.rpcs id with
    | some (.buffering _ _) | some (.adding _) | some (.calling _) => some (s.setPhase id .ended)
    | _ => none

variable {b64 : Base64} {s t : SignatureContextService} {e : RpcEvent} {es : List RpcEvent}

inductive StepOutcome (s : SignatureContextService) : RpcEvent → SignatureContextService → Prop where
  | call {id : RpcId} {request : HttpRequest} {ph : RpcPhase} (hid : s.rpcs id = none) (hph : ph.entry? = none) :
      StepOutcome s (.call id request) (s.setPhase id ph)
  | buffer {id : RpcId} {req : Bytes → Context.Request} {body : List (Except String Bytes)} {ph : RpcPhase}
      (hid : s.rpcs id = some (.buffering req body)) (hph : ph = .ended ∨ ∃ req, ph = .adding req) :
      StepOutcome s (.buffer id) (s.setPhase id ph)
  | add {id : RpcId} {req : Context.Request} (hid : s.rpcs id = some (.adding req)) :
      StepOutcome s (.add id) { s.setPhase id (.calling (some req)) with entries := s.entries ++ [(id, req)] }
  | finish {id : RpcId} {req : Option Context.Request} {ph : RpcPhase} (hid : s.rpcs id = some (.calling req))
      (hph : ph = (req.map .returned).getD .ended) : StepOutcome s (.finish id) (s.setPhase id ph)
  | cleanup {id : RpcId} {req : Context.Request} (hid : s.rpcs id = some (.returned req)) :
      StepOutcome s (.cleanup id)
        { s.setPhase id .ended with entries := s.entries.filter fun e => e.2.signature ≠ req.signature }
  | drop {id : RpcId} {ph : RpcPhase} (hid : s.rpcs id = some ph)
      (hph : ph.entry? = none ∨ ∃ req, ph = .calling (some req)) :
      StepOutcome s (.drop id) (s.setPhase id .ended)

theorem step_outcome (h : s.step b64 e = some t) : StepOutcome s e t := by
  cases e with
  | call id request =>
    simp only [step] at h
    split at h
    · rename_i hid
      split at h
      · cases h
        exact .call hid rfl
      · cases h
        exact .call hid rfl
      · cases h
        exact .call hid rfl
    · cases h
  | buffer id =>
    simp only [step] at h
    split at h
    · rename_i hid
      split at h
      · cases h
        exact .buffer hid (Or.inl rfl)
      · cases h
        exact .buffer hid (Or.inl rfl)
      · cases h
        exact .buffer hid (Or.inr ⟨_, rfl⟩)
    · cases h
  | add id =>
    simp only [step] at h
    split at h
    · cases h
      exact .add (by assumption)
    · cases h
  | finish id =>
    simp only [step] at h
    split at h
    · cases h
      exact .finish (by assumption) rfl
    · cases h
      exact .finish (by assumption) rfl
    · cases h
  | cleanup id =>
    simp only [step] at h
    split at h
    · cases h
      exact .cleanup (by assumption)
    · cases h
  | drop id =>
    simp only [step] at h
    split at h
    · cases h
      exact .drop (by assumption) (Or.inl rfl)
    · cases h
      exact .drop (by assumption) (Or.inl rfl)
    · rename_i req hid
      cases h
      cases req with
      | none => exact .drop hid (Or.inl rfl)
      | some req => exact .drop hid (Or.inr ⟨req, rfl⟩)
    · cases h

/-- The context changes by `add_request` of a call that waits to add its request, and by `remove_request` of one that
has returned. -/
theorem ctx_step (h : s.step b64 e = some t) :
    match e with
    | .add id => ∃ req, s.rpcs id = some (.adding req) ∧ t.ctx = s.ctx.addRequest req
    | .cleanup id => ∃ req, s.rpcs id = some (.returned req) ∧ t.ctx = s.ctx.removeRequest req
    | _ => t.ctx = s.ctx := by
  cases step_outcome h with
  | @add id req hid =>
    have hctx : (s.entries ++ [(id, req)]).map (·.2) = s.entries.map (·.2) ++ [req] := by simp
    exact ⟨req, hid, congrArg Context.mk hctx⟩
  | @cleanup id req hid =>
    have hctx : (s.entries.filter fun e => e.2.signature ≠ req.signature).map (·.2) =
        (s.entries.map (·.2)).filter fun a => a.signature ≠ req.signature := by
      rw [List.filter_map]
      rfl
    exact ⟨req, hid, congrArg Context.mk hctx⟩
  | _ => rfl

/-! ### No stale requests -/

/-- A call that has ended and been cleaned up has no request in the context. -/
def NoStale (s : SignatureContextService) : Prop :=
  ∀ id, s.rpcs id = some .ended → ∀ req, (id, req) ∉ s.entries

/-- No call is dropped that is being handled and has its request in the context. -/
def DropsNoEntry (s : SignatureContextService) (e : RpcEvent) : Prop :=
  ∀ id req, e = .drop id → s.rpcs id = some (.calling (some req)) → (id, req) ∉ s.entries

/-- Every request in the context is that of a call that will remove it. -/
def Owned (s : SignatureContextService) : Prop :=
  ∀ id req, (id, req) ∈ s.entries → (s.rpcs id).bind RpcPhase.entry? = some req

theorem Owned.noStale (h : s.Owned) : s.NoStale := fun id hid req hmem => by
  have howned := h id req hmem
  rw [hid] at howned
  cases howned

theorem owned_new : new.Owned := fun _ _ hmem => nomatch hmem

theorem Owned.not_mem (h : s.Owned) {id : RpcId} (hid : (s.rpcs id).bind RpcPhase.entry? = none)
    (req : Context.Request) : (id, req) ∉ s.entries := fun hmem => by
  rw [h id req hmem] at hid
  cases hid

theorem Owned.setPhase (h : s.Owned) (id : RpcId) (ph : RpcPhase)
    (hph : ph.entry? = (s.rpcs id).bind RpcPhase.entry? ∨ ∀ req, (id, req) ∉ s.entries) :
    (s.setPhase id ph).Owned := by
  intro id' req hmem
  by_cases hne : id' = id
  · subst hne
    rw [rpcs_setPhase_self]
    rcases hph with hph | hno
    · exact hph.trans (h _ _ hmem)
    · exact absurd hmem (hno req)
  · rw [rpcs_setPhase_of_ne _ _ hne]
    exact h id' req hmem

theorem owned_step (howned : s.Owned) (hdrop : s.DropsNoEntry e) (h : s.step b64 e = some t) : t.Owned := by
  cases step_outcome h with
  | @call id request ph hid hph =>
    have hno : ∀ req, (id, req) ∉ s.entries := howned.not_mem (by simp [hid])
    exact howned.setPhase id ph (Or.inr hno)
  | @buffer id req body ph hid hph =>
    have hno : ∀ req, (id, req) ∉ s.entries := howned.not_mem (by simp [hid, RpcPhase.entry?])
    exact howned.setPhase id ph (Or.inr hno)
  | @add id req hid =>
    have hno : ∀ req, (id, req) ∉ s.entries := howned.not_mem (by simp [hid, RpcPhase.entry?])
    have hold := howned.setPhase id (.calling (some req)) (Or.inr hno)
    intro id' req' hmem
    rcases List.mem_append.1 hmem with hmem | hmem
    · exact hold id' req' hmem
    · obtain ⟨rfl, rfl⟩ := Prod.mk.inj (List.mem_singleton.1 hmem)
      have hself : (s.setPhase id' (.calling (some req'))).rpcs id' = some (.calling (some req')) :=
        rpcs_setPhase_self _ _ _
      exact congrArg (Option.bind · RpcPhase.entry?) hself
  | @finish id req ph hid hph =>
    refine howned.setPhase id ph (Or.inl ?_)
    subst hph
    rw [hid]
    cases req with
    | none => rfl
    | some req => rfl
  | @cleanup id req hid =>
    intro id' req' hmem
    obtain ⟨hmem, hsig⟩ := List.mem_filter.1 hmem
    have howned' := howned id' req' hmem
    -- the request of the call itself has its signature
    have hne : id' ≠ id := by
      rintro rfl
      rw [hid] at howned'
      obtain rfl := Option.some.inj howned'
      simp at hsig
    have hother : (s.setPhase id .ended).rpcs id' = s.rpcs id' := rpcs_setPhase_of_ne _ _ hne
    exact (congrArg (Option.bind · RpcPhase.entry?) hother).trans howned'
  | @drop id ph hid hph =>
    refine howned.setPhase id .ended (Or.inr ?_)
    rcases hph with hph | ⟨req, rfl⟩
    · exact howned.not_mem (by simp [hid, hph])
    · intro req' hmem
      have howned' := howned id req' hmem
      rw [hid] at howned'
      obtain rfl := Option.some.inj howned'
      exact hdrop id req rfl hid hmem

/-- **No stale requests.**  In every state of a run, a call that has ended and been cleaned up has no request in the
context, if and only if no call is dropped in the run while it is handled and has its request there. -/
theorem noStale_iff (b64 : Base64) (es : List RpcEvent) :
    Always (step b64) NoStale new es ↔ AllSteps (step b64) DropsNoEntry new es := by
  constructor
  · intro h
    rw [allSteps_iff]
    rintro pre _ post t hes hr id req rfl hid hmem
    have hstep : t.step b64 (.drop id) = some (t.setPhase id .ended) := by simp [step, hid]
    exact h.after hes hr hstep id (rpcs_setPhase_self _ _ _) req hmem
  · intro h
    exact (always_of_invariant owned_step owned_new h).mono fun _ howned => howned.noStale

/-- Base64 that is its own text. -/
def plainBase64 : Base64 := ⟨some, some⟩

def payCall : HttpRequest where
  uri := some "/cln.Node/Pay"
  glauthpubkey := some [1]
  glauthsig := some [2]
  glts := none
  glrune := some [3]
  body := [.ok [0, 0, 0, 0, 0]]

/-- A call that is dropped while it is handled leaves its request behind. -/
theorem drop_leaves_request : ¬ ∀ (b64 : Base64) (es : List RpcEvent), Always (step b64) NoStale new es := by
  intro hall
  have h : ∃ s, Run (step plainBase64) new [.call 0 payCall, .buffer 0, .add 0, .drop 0] s ∧
      s.rpcs 0 = some .ended ∧ s.entries = [(0, ⟨[1], [2], [3], [0, 0, 0, 0, 0], "/cln.Node/Pay", none⟩)] :=
    ⟨_, rfl, rfl, rfl⟩
  obtain ⟨s, hr, hended, hentries⟩ := h
  exact hall _ _ _ [] s (List.append_nil _).symm hr 0 hended _ (hentries ▸ List.mem_singleton_self _)

/-! ### What is attached -/

/-- If no call is dropped so, an attached request is the stored one or that of a call that will remove it. -/
theorem owned_of_mem_attachedRequests (hr : Run (step b64) new es s)
    (h : AllSteps (step b64) DropsNoEntry new es) {configure : Option Context.Request} {p : PendingRequest}
    (hp : p ∈ s.ctx.attachedRequests configure) :
    (∃ req, configure = some req ∧ p = req.toPendingRequest) ∨
      ∃ id req, (s.rpcs id).bind RpcPhase.entry? = some req ∧ p = req.toPendingRequest := by
  have howned := hr.invariant_of owned_step owned_new h
  obtain ⟨req, hmem, rfl⟩ := List.mem_map.1 hp
  rcases List.mem_append.1 hmem with hmem | hmem
  · obtain ⟨⟨id, _⟩, hentry, rfl⟩ := List.mem_map.1 hmem
    exact Or.inr ⟨id, _, howned id _ hentry, rfl⟩
  · exact Or.inl ⟨req, Option.mem_toList.1 hmem, rfl⟩

/-! ### Requests in flight -/

/-- The request of every call that is being handled is in the context. -/
def ListsInFlight (s : SignatureContextService) : Prop :=
  ∀ id req, s.rpcs id = some (.calling (some req)) → req ∈ s.ctx.snapshot

/-- A task that runs removes nothing but the request of its own call. -/
def RemovesOwn (b64 : Base64) (s : SignatureContextService) (e : RpcEvent) : Prop :=
  ∀ id t, e = .cleanup id → s.step b64 e = some t → ∀ entry ∈ s.entries, entry.1 ≠ id → entry ∈ t.entries

/-- No other call has a request of the same signature in the context when a task runs. -/
def OnlyOneSigned (s : SignatureContextService) (e : RpcEvent) : Prop :=
  ∀ id req, e = .cleanup id → s.rpcs id = some (.returned req) →
    ∀ entry ∈ s.entries, entry.1 ≠ id → entry.2.signature ≠ req.signature

theorem removesOwn_iff : s.RemovesOwn b64 e ↔ s.OnlyOneSigned e := by
  constructor
  · rintro h id req rfl hid entry hmem hne hsig
    have hkept := h id _ rfl (by simp only [step, hid]; rfl) entry hmem hne
    simpa [hsig] using (List.mem_filter.1 hkept).2
  · rintro h id t rfl hstep entry hmem hne
    cases step_outcome hstep with
    | cleanup hid => exact List.mem_filter.2 ⟨hmem, by simpa using h id _ rfl hid entry hmem hne⟩

/-- Every call that is being handled has its own request in the context. -/
def KeepsEntries (s : SignatureContextService) : Prop :=
  ∀ id req, s.rpcs id = some (.calling (some req)) → (id, req) ∈ s.entries

theorem KeepsEntries.listsInFlight (h : s.KeepsEntries) : s.ListsInFlight := fun id req hid =>
  List.mem_map.2 ⟨_, h id req hid, rfl⟩

theorem KeepsEntries.setPhase (h : s.KeepsEntries) (id : RpcId) (ph : RpcPhase)
    (hph : ∀ req, ph ≠ .calling (some req)) : (s.setPhase id ph).KeepsEntries := by
  intro id' req hid
  by_cases hne : id' = id
  · subst hne
    rw [rpcs_setPhase_self] at hid
    exact absurd (Option.some.inj hid) (hph req)
  · rw [rpcs_setPhase_of_ne _ _ hne] at hid
    exact h id' req hid

theorem keepsEntries_step (hkeeps : s.KeepsEntries) (hone : s.OnlyOneSigned e) (h : s.step b64 e = some t) :
    t.KeepsEntries := by
  have hown : s.RemovesOwn b64 e := removesOwn_iff.2 hone
  cases step_outcome h with
  | @call id request ph hid hph =>
    exact hkeeps.setPhase id ph fun req heq => by simp [heq, RpcPhase.entry?] at hph
  | @buffer id req body ph hid hph =>
    refine hkeeps.setPhase id ph fun req => ?_
    rcases hph with rfl | ⟨req', rfl⟩
    · exact nofun
    · exact nofun
  | @add id req hid =>
    intro id' req' hid'
    by_cases hne : id' = id
    · subst hne
      obtain rfl : req = req' := by simpa [SignatureContextService.setPhase] using hid'
      exact List.mem_append_right _ (List.mem_singleton_self _)
    · have hother : (s.setPhase id (.calling (some req))).rpcs id' = s.rpcs id' := rpcs_setPhase_of_ne _ _ hne
      exact List.mem_append_left _ (hkeeps id' req' (hother.symm.trans hid'))
  | @finish id req ph hid hph =>
    refine hkeeps.setPhase id ph fun req' => ?_
    subst hph
    cases req with
    | none => exact nofun
    | some req => exact nofun
  | @cleanup id req hid =>
    intro id' req' hid'
    have hne : id' ≠ id := by
      rintro rfl
      simp [SignatureContextService.setPhase] at hid'
    have hother : (s.setPhase id .ended).rpcs id' = s.rpcs id' := rpcs_setPhase_of_ne _ _ hne
    have hentry : (id', req') ∈ s.entries := hkeeps id' req' (hother.symm.trans hid')
    exact hown id _ rfl h _ hentry hne
  | @drop id ph hid hph => exact hkeeps.setPhase id .ended nofun

/-- **Requests in flight.**  In every state of a run the requests of the calls that are being handled are in the
context, and every task removes nothing but its own one, if and only if no task runs while another call has a request
of the same signature there. -/
theorem listsInFlight_iff (b64 : Base64) (es : List RpcEvent) :
    Always (step b64) ListsInFlight new es ∧ AllSteps (step b64) (RemovesOwn b64) new es ↔
      AllSteps (step b64) OnlyOneSigned new es := by
  have hown : AllSteps (step b64) (RemovesOwn b64) new es ↔ AllSteps (step b64) OnlyOneSigned new es := by
    simp only [allSteps_iff, removesOwn_iff]
  rw [hown]
  refine ⟨And.right, fun h => ⟨?_, h⟩⟩
  have hkeeps : Always (step b64) KeepsEntries new es := always_of_invariant keepsEntries_step nofun h
  exact hkeeps.mono fun _ hkeeps => hkeeps.listsInFlight

/-- A call that is retried loses its request when the first attempt is cleaned up. -/
theorem retry_loses_request : ¬ ∀ (b64 : Base64) (es : List RpcEvent), Always (step b64) ListsInFlight new es := by
  intro hall
  have h : ∃ s, Run (step plainBase64) new [.call 0 payCall, .buffer 0, .add 0, .call 1 payCall, .buffer 1, .add 1,
      .finish 0, .cleanup 0] s ∧
      s.rpcs 1 = some (.calling (some ⟨[1], [2], [3], [0, 0, 0, 0, 0], "/cln.Node/Pay", none⟩)) ∧
      s.ctx.snapshot = [] := ⟨_, rfl, rfl, rfl⟩
  obtain ⟨s, hr, hcalling, hempty⟩ := h
  have hmem := hall _ _ _ [] s (List.append_nil _).symm hr 1 _ hcalling
  rw [hempty] at hmem
  cases hmem

end SignatureContextService

end Greenlight.Plugin
