import Greenlight.Client.AuthService
import Greenlight.Plugin.SignatureContext
import Greenlight.Lib.Base64
import Greenlight.Lib.BigEndian
import Greenlight.Signer.Auth

/-!
# The envelope of a signed call

A client signs the body of a call and the time, and sends the key, the signature and the time in base64 and the rune
as it is.  The plugin takes the headers apart, buffers the body and keeps a request in the context while the call is
handled; the signer puts the signed bytes together again from what the context says.  The two ends agree on the bytes
for every body, time and rune (`honest_envelope`).
-/

namespace Greenlight

open Greenlight.Lib Greenlight.Plugin Greenlight.Plugin.SignatureContextService

/-! ### The client -/

/-- `HeaderValue::from_str` takes visible ASCII and tabs. -/
def isHeaderValue (s : String) : Bool := s.toList.all fun c => decide (c = '\t' ∨ (' ' ≤ c ∧ c ≤ '~'))

/-- The call that goes out at a time in milliseconds after the epoch; the first piece of the body is taken for all of
it.  An outer `none` is a panic, on a body without a piece or a rune that is no header value. -/
def AuthService.send (service : AuthService) (time : ℕ) (uri : String) (body : List (Except String Bytes)) :
    Option (Except String ClientCall) :=
  match body with
  | .ok data :: _ =>
    if time < UInt64.size then
      if isHeaderValue service.rune then some (.ok (service.call (.ofNat time) uri data)) else none
    else some (.error "out of range integral type conversion attempted")
  | _ => none

/-! ### The wire -/

/-- What arrives of a call: the URI, the headers as they were written, and the body in any number of pieces. -/
structure ClientCall.Delivered (encode : Bytes → Bytes) (c : ClientCall) (r : HttpRequest) : Prop where
  uri : r.uri = some c.uri
  glauthpubkey : r.glauthpubkey = some (encode c.pubkey)
  glauthsig : r.glauthsig = some (encode c.signature)
  glts : r.glts = some (encode (beBytes c.timestamp))
  glrune : r.glrune = some (utf8 c.rune)
  body : ∃ chunks : List Bytes, r.body = chunks.map .ok ∧ chunks.flatten = c.body

/-- The decoder of `STANDARD_NO_PAD` reads what its encoder writes. -/
def Plugin.Base64.Undoes (b64 : Base64) (encode : Bytes → Bytes) : Prop :=
  ∀ b, b64.standardNoPad (encode b) = some b

/-- A text in URL-safe base64, with the bytes it stands for. -/
structure Plugin.Base64.IsUrlSafe (b64 : Base64) (text : String) (bytes : Bytes) : Prop where
  alphabet : ∀ c ∈ text.toList, c.isAlphanum ∨ c ∈ ['-', '_', '=']
  decodes : b64.urlSafe (utf8 text) = some bytes

/-- The request that the plugin makes of a call. -/
def ClientCall.toRequest (c : ClientCall) (rune : Bytes) (payload : Bytes) : Context.Request :=
  ⟨c.pubkey, c.signature, rune, payload, c.uri, some c.timestamp⟩

/-- What the signer gets is what the client signed and sent. -/
structure Arrives (service : AuthService) (c : ClientCall) (rune : Bytes) (p : PendingRequest) : Prop where
  signedData : p.signedData = c.signedData
  pubkey : p.pubkey = service.pubkey
  signature : p.signature = service.sign c.signedData
  rune : p.rune = rune

section

variable {b64 : Base64} {encode : Bytes → Bytes} {service : AuthService} {c : ClientCall} {r : HttpRequest}
  {rune data : Bytes} {time : ℕ} {uri : String}

theorem isHeaderValue_of_isUrlSafe {text : String} (h : b64.IsUrlSafe text rune) : isHeaderValue text := by
  unfold isHeaderValue
  rw [List.all_eq_true]
  intro c hc
  rw [decide_eq_true_eq]
  refine Or.inr ?_
  rcases h.alphabet c hc with halnum | hmem
  · have hranges : c.isAlphanum = ((decide (65 ≤ c.val ∧ c.val ≤ 90) || (decide (97 ≤ c.val) &&
        decide (c.val ≤ 122))) || (decide (48 ≤ c.val) && decide (c.val ≤ 57))) := rfl
    simp only [hranges, Bool.or_eq_true, Bool.and_eq_true, decide_eq_true_eq, UInt32.le_iff_toNat_le] at halnum
    have hspace : ' '.val.toNat = 32 := rfl
    have htilde : '~'.val.toNat = 126 := rfl
    change (((65 ≤ c.val.toNat ∧ c.val.toNat ≤ 90) ∨ (97 ≤ c.val.toNat ∧ c.val.toNat ≤ 122)) ∨
      (48 ≤ c.val.toNat ∧ c.val.toNat ≤ 57)) at halnum
    rw [Char.le_def, Char.le_def, UInt32.le_iff_toNat_le, UInt32.le_iff_toNat_le]
    omega
  · simp only [List.mem_cons, List.not_mem_nil, or_false] at hmem
    rcases hmem with rfl | rfl | rfl <;> decide

theorem send_eq_ok (hrune : b64.IsUrlSafe service.rune rune) :
    service.send time uri [.ok data] = some (.ok c) ↔
      time < UInt64.size ∧ c = service.call (.ofNat time) uri data := by
  unfold AuthService.send
  simp only [isHeaderValue_of_isUrlSafe hrune, if_true]
  split_ifs with h
  · simp [h, eq_comm]
  · simp [h]

theorem bufferBody_eq (chunks : List Bytes) (buf : Bytes)
    (hlen : buf.length + chunks.flatten.length ≤ maxMessageSize) :
    bufferBody buf (chunks.map .ok) = some (some (buf ++ chunks.flatten)) := by
  have happend := bufferBody_append [] chunks buf (by omega)
  rwa [List.append_nil, if_neg (by omega)] at happend

theorem signed?_of_delivered (hcodec : b64.Undoes encode) (hrune : b64.IsUrlSafe c.rune rune)
    (hd : c.Delivered encode r) : r.signed? b64 = some (some (c.toRequest rune)) := by
  have hts : getU64 (beBytes c.timestamp) = some c.timestamp := by
    rw [← List.append_nil (beBytes c.timestamp), getU64_beBytes]
  unfold HttpRequest.signed?
  simp only [hd.uri, hd.glauthpubkey, hd.glauthsig, hd.glts, hd.glrune, hcodec _, hrune.decodes, hts,
    Option.bind_eq_bind, Option.bind_some, Option.map_some]
  rfl

end

/-! ### The plugin -/

namespace Plugin.SignatureContextService

variable {b64 : Base64} {s t : SignatureContextService} {e : RpcEvent} {es : List RpcEvent} {id : RpcId}
  {r : HttpRequest} {f : Bytes → Context.Request} {payload : Bytes}

/-- The call has come in, and it has not left a request but `req`. -/
structure Carries (s : SignatureContextService) (id : RpcId) (f : Bytes → Context.Request)
    (body : List (Except String Bytes)) (req : Context.Request) : Prop where
  phase : s.rpcs id = some (.buffering f body) ∨ s.rpcs id = some (.adding req) ∨
    s.rpcs id = some (.calling (some req)) ∨ s.rpcs id = some (.returned req) ∨ s.rpcs id = some .ended
  entry : ∀ req', (id, req') ∈ s.entries → req' = req

/-- Only calls that have come in have requests. -/
def Known (s : SignatureContextService) : Prop := ∀ id req, (id, req) ∈ s.entries → s.rpcs id ≠ none

theorem known_setPhase (h : s.Known) (id : RpcId) (ph : RpcPhase) : (s.setPhase id ph).Known := by
  intro id' req hmem
  by_cases hne : id' = id
  · subst hne
    simp
  · rw [rpcs_setPhase_of_ne _ _ hne]
    exact h id' req hmem

theorem known_step (h : s.Known) (hstep : s.step b64 e = some t) : t.Known := by
  cases step_outcome hstep with
  | @add id req hid =>
    intro id' req' hmem
    rcases List.mem_append.1 hmem with hmem | hmem
    · exact known_setPhase h id _ id' req' hmem
    · obtain ⟨rfl, rfl⟩ := Prod.mk.inj (List.mem_singleton.1 hmem)
      simp [SignatureContextService.setPhase]
  | @cleanup id req hid =>
    intro id' req' hmem
    exact known_setPhase h id _ id' req' (List.mem_filter.1 hmem).1
  | @call id r ph hid hph => exact known_setPhase h id ph
  | @buffer id req body ph hid hph => exact known_setPhase h id ph
  | @finish id req ph hid hph => exact known_setPhase h id ph
  | @drop id ph hid hph => exact known_setPhase h id .ended

theorem carries_setPhase_of_ne {body : List (Except String Bytes)} {req : Context.Request}
    (h : s.Carries id f body req) {id' : RpcId} (hne : id ≠ id') (ph : RpcPhase) :
    (s.setPhase id' ph).Carries id f body req := by
  refine ⟨?_, h.entry⟩
  rw [rpcs_setPhase_of_ne _ _ hne]
  exact h.phase

theorem carries_step {body : List (Except String Bytes)} (hbuf : bufferBody [] body = some (some payload))
    (h : s.Carries id f body (f payload)) (hstep : s.step b64 e = some t) : t.Carries id f body (f payload) := by
  cases step_outcome hstep with
  | @call id' r ph hid hph =>
    have hne : id ≠ id' := by
      rintro rfl
      rcases h.phase with hp | hp | hp | hp | hp <;> simp [hp] at hid
    exact carries_setPhase_of_ne h hne ph
  | @buffer id' req body' ph hid hph =>
    by_cases hne : id = id'
    · subst hne
      -- the call has its whole body
      rcases h.phase with hp | hp | hp | hp | hp <;> rw [hp] at hid <;> cases hid
      simp only [step, hp, hbuf, Option.some.injEq] at hstep
      rw [← hstep]
      exact ⟨Or.inr (Or.inl (rpcs_setPhase_self _ _ _)), h.entry⟩
    · exact carries_setPhase_of_ne h hne ph
  | @add id' req hid =>
    by_cases hne : id = id'
    · subst hne
      rcases h.phase with hp | hp | hp | hp | hp <;> rw [hp] at hid <;> cases hid
      refine ⟨Or.inr (Or.inr (Or.inl (rpcs_setPhase_self _ _ _))), fun req' hmem => ?_⟩
      rcases List.mem_append.1 hmem with hmem | hmem
      · exact h.entry req' hmem
      · exact (Prod.mk.inj (List.mem_singleton.1 hmem)).2
    · refine ⟨(carries_setPhase_of_ne h hne _).phase, fun req' hmem => ?_⟩
      rcases List.mem_append.1 hmem with hmem | hmem
      · exact h.entry req' hmem
      · exact absurd (Prod.mk.inj (List.mem_singleton.1 hmem)).1 hne
  | @finish id' req ph hid hph =>
    by_cases hne : id = id'
    · subst hne
      rcases h.phase with hp | hp | hp | hp | hp <;> rw [hp] at hid <;> cases hid
      subst hph
      exact ⟨Or.inr (Or.inr (Or.inr (Or.inl (rpcs_setPhase_self _ _ _)))), h.entry⟩
    · exact carries_setPhase_of_ne h hne ph
  | @cleanup id' req hid =>
    have hmem : ∀ req', (id, req') ∈ s.entries.filter (fun e => e.2.signature ≠ req.signature) →
        req' = f payload := fun req' hmem => h.entry req' (List.mem_filter.1 hmem).1
    by_cases hne : id = id'
    · subst hne
      exact ⟨Or.inr (Or.inr (Or.inr (Or.inr (rpcs_setPhase_self _ _ _)))), hmem⟩
    · exact ⟨(carries_setPhase_of_ne h hne _).phase, hmem⟩
  | @drop id' ph hid hph =>
    by_cases hne : id = id'
    · subst hne
      exact ⟨Or.inr (Or.inr (Or.inr (Or.inr (rpcs_setPhase_self _ _ _)))), h.entry⟩
    · exact carries_setPhase_of_ne h hne _

/-- In every state of a run after the call has come in, its request in the context is the one of its body. -/
theorem carries_of_run {pre post : List RpcEvent} (hsigned : r.signed? b64 = some (some f))
    (hbuf : bufferBody [] r.body = some (some payload))
    (hr : Run (step b64) new (pre ++ .call id r :: post) t) : t.Carries id f r.body (f payload) := by
  obtain ⟨s, hpre, hr⟩ := run_append.1 hr
  obtain ⟨s', hcall, hpost⟩ := run_cons.1 hr
  have hknown : s.Known := hpre.invariant known_step nofun
  refine hpost.invariant (I := fun s => s.Carries id f r.body (f payload)) (carries_step hbuf) ?_
  cases hid : s.rpcs id with
  | some ph =>
    simp only [step, hid] at hcall
    cases hcall
  | none =>
    simp only [step, hid, hsigned, Option.some.injEq] at hcall
    rw [← hcall]
    exact ⟨Or.inl (rpcs_setPhase_self _ _ _), fun req' hmem => absurd hid (hknown id req' hmem)⟩

theorem run_call (hsigned : r.signed? b64 = some (some f)) (hbuf : bufferBody [] r.body = some (some payload))
    (hid : s.rpcs id = none) : ∃ t, Run (step b64) s [.call id r, .buffer id, .add id] t ∧
      (id, f payload) ∈ t.entries := by
  have hcall : s.step b64 (.call id r) = some (s.setPhase id (.buffering f r.body)) := by
    simp only [step, hid, hsigned]
  have hbuffer : (s.setPhase id (.buffering f r.body)).step b64 (.buffer id) =
      some ((s.setPhase id (.buffering f r.body)).setPhase id (.adding (f payload))) := by
    simp only [step, rpcs_setPhase_self, hbuf]
  have hadd : ∃ t, ((s.setPhase id (.buffering f r.body)).setPhase id (.adding (f payload))).step b64 (.add id) =
      some t ∧ (id, f payload) ∈ t.entries := by
    simp only [step, rpcs_setPhase_self, Option.some.injEq]
    exact ⟨_, rfl, List.mem_append_right _ (List.mem_singleton_self _)⟩
  obtain ⟨t, hadd, hmem⟩ := hadd
  exact ⟨t, run_cons.2 ⟨_, hcall, run_cons.2 ⟨_, hbuffer, run_singleton.2 hadd⟩⟩, hmem⟩

end Plugin.SignatureContextService

/-! ### Both ends -/

section

variable {b64 : Base64} {encode : Bytes → Bytes} {service : AuthService} {rune data : Bytes} {time : ℕ}

/-- The request of a call, as the signer gets it. -/
theorem arrives_toRequest (htime : 1 ≤ time) (hfits : time < UInt64.size) (uri : String) :
    Arrives service (service.call (.ofNat time) uri data) rune
      ((service.call (.ofNat time) uri data).toRequest rune data).toPendingRequest := by
  have hne : UInt64.ofNat time ≠ 0 := by
    intro h
    have hzero := congrArg UInt64.toNat h
    rw [UInt64.toNat_ofNat_of_lt' hfits] at hzero
    have : time = 0 := hzero
    omega
  exact ⟨PendingRequest.signedData_of_ne_zero hne, rfl, rfl, rfl⟩

/-- **The envelope is honest.**  A body in one piece that is not too large is signed and sent at every time that fits
in a `u64`, and not at any other one.  However the call arrives and whatever other calls the plugin handles, the
request gets into the context, and while it is there the bytes that the signer verifies are the bytes that the client
signed, under the key, with the signature and with the rune of the client. -/
theorem honest_envelope (hcodec : b64.Undoes encode) (hrune : b64.IsUrlSafe service.rune rune)
    (hlen : data.length ≤ maxMessageSize) (htime : 1 ≤ time) (uri : String) :
    ((∃ c, service.send time uri [.ok data] = some (.ok c)) ↔ time < UInt64.size) ∧
      ∀ c r, service.send time uri [.ok data] = some (.ok c) → c.Delivered encode r →
        c.signature = service.sign c.signedData ∧
          (∀ (s : SignatureContextService) (id : RpcId), s.rpcs id = none →
            ∃ t, Run (step b64) s [.call id r, .buffer id, .add id] t ∧ ∃ req, (id, req) ∈ t.entries) ∧
          ∀ (id : RpcId) (pre post : List RpcEvent) (t : SignatureContextService),
            Run (step b64) new (pre ++ .call id r :: post) t → ∀ req, (id, req) ∈ t.entries →
              req ∈ t.ctx.snapshot ∧ Arrives service c rune req.toPendingRequest := by
  refine ⟨?_, fun c r hsend hd => ?_⟩
  · simp only [send_eq_ok hrune]
    exact ⟨fun ⟨_, h, _⟩ => h, fun h => ⟨_, h, rfl⟩⟩
  obtain ⟨hfits, rfl⟩ := (send_eq_ok hrune).1 hsend
  have hsigned := signed?_of_delivered hcodec hrune hd
  -- the pieces in which the body arrives are those of the signed one
  have hbuf : bufferBody [] r.body = some (some data) := by
    obtain ⟨chunks, hbody, hflat⟩ := hd.body
    have hdata : chunks.flatten = data := hflat
    rw [hbody, bufferBody_eq chunks [] (by simpa [hdata] using hlen), hdata, List.nil_append]
  refine ⟨rfl, fun s id hid => ?_, fun id pre post t hr req hmem => ?_⟩
  · obtain ⟨t, hr, hmem⟩ := run_call hsigned hbuf hid
    exact ⟨t, hr, _, hmem⟩
  · obtain rfl := (carries_of_run hsigned hbuf hr).entry req hmem
    exact ⟨List.mem_map.2 ⟨_, hmem, rfl⟩, arrives_toRequest htime hfits uri⟩

end

def Plugin.Base64.engines : Base64 where
  standardNoPad := Lib.Base64.decode Lib.Base64.standard
  urlSafe := Lib.Base64.decodePadded Lib.Base64.urlSafe

theorem undoes_engines : Base64.engines.Undoes (Lib.Base64.encode Lib.Base64.standard) :=
  Lib.Base64.decode_encode Lib.Base64.Alphabet.reads_standard

/-- A client whose signature of a message is the key before the message. -/
def plainService : AuthService where
  pubkey := [4, 17]
  sign data := [4, 17] ++ data
  rune := "-_8="

theorem isUrlSafe_plainService : Base64.engines.IsUrlSafe plainService.rune [251, 255] where
  alphabet := by
    intro c hc
    have hmem : c ∈ ['-', '_', '8', '='] := hc
    simp only [List.mem_cons, List.not_mem_nil, or_false] at hmem
    rcases hmem with rfl | rfl | rfl | rfl
    · exact Or.inr (by simp)
    · exact Or.inr (by simp)
    · exact Or.inl (by decide)
    · exact Or.inr (by simp)
  decodes := by decide

/-- A payment, whose body arrives in two pieces. -/
theorem honest_envelope_pay : Base64.engines.Undoes (Lib.Base64.encode Lib.Base64.standard) ∧
    Base64.engines.IsUrlSafe plainService.rune [251, 255] ∧
    ∃ c r, plainService.send 1700000000000 "/cln.Node/Pay" [.ok [0, 0, 0, 0, 2, 8, 1]] = some (.ok c) ∧
      r.body = [.ok [0, 0, 0, 0, 2], .ok [8, 1]] ∧ c.Delivered (Lib.Base64.encode Lib.Base64.standard) r ∧
      ∃ t, Run (step Base64.engines) new [.call 0 r, .buffer 0, .add 0] t ∧
        ∃ req ∈ t.ctx.snapshot, Arrives plainService c [251, 255] req.toPendingRequest := by
  have hlen : ([0, 0, 0, 0, 2, 8, 1] : Bytes).length ≤ maxMessageSize := by decide
  have htime : 1 ≤ 1700000000000 := by decide
  have h := honest_envelope undoes_engines isUrlSafe_plainService hlen htime "/cln.Node/Pay"
  obtain ⟨c, hc⟩ := h.1.2 (by decide)
  let r : HttpRequest := ⟨some c.uri, some (Lib.Base64.encode Lib.Base64.standard c.pubkey),
    some (Lib.Base64.encode Lib.Base64.standard c.signature),
    some (Lib.Base64.encode Lib.Base64.standard (beBytes c.timestamp)), some (utf8 c.rune),
    [.ok [0, 0, 0, 0, 2], .ok [8, 1]]⟩
  have hbody : c.body = [0, 0, 0, 0, 2, 8, 1] := by
    obtain ⟨-, rfl⟩ := (send_eq_ok isUrlSafe_plainService).1 hc
    rfl
  have hd : c.Delivered (Lib.Base64.encode Lib.Base64.standard) r :=
    ⟨rfl, rfl, rfl, rfl, rfl, [[0, 0, 0, 0, 2], [8, 1]], rfl, hbody.symm⟩
  obtain ⟨-, hruns, harrives⟩ := h.2 c r hc hd
  obtain ⟨t, hr, req, hmem⟩ := hruns new 0 rfl
  exact ⟨undoes_engines, isUrlSafe_plainService, c, r, hc, rfl, hd, t, hr, req,
    harrives 0 [] [.buffer 0, .add 0] t hr req hmem⟩

end Greenlight
