import Greenlight.Client.Envelope
import Greenlight.Util.Error

/-!
# One call of the signature context

What `SignatureContextService::call` does with one request: the request that it adds to the context, the request that
it hands to the inner service, and what it returns.  Only the bytes of a body count, not the pieces that they come in
(`call_chunks`).  The headers and the body come from the network, and a few of them make the call panic: a timestamp
of less than eight bytes, and an error of the connection while a body is buffered (`call_total_iff`).
-/

namespace Greenlight.Plugin

open Greenlight.Lib Greenlight.Util SignatureContextService

/-- `hyper::Body::from` of a vector. -/
def bodyFromVec (buf : Bytes) : List (Except String Bytes) := if buf = [] then [] else [.ok buf]

def bodyBytes (body : List (Except String Bytes)) : Option Bytes := (body.mapM Except.toOption).map List.flatten

inductive HttpResponse (R : Type) where
  | status (s : Status)
  | inner (r : R)

def payloadTooLarge : Status := ⟨.invalidArgument, "payload too large", []⟩

/-- What a call adds to the context, what it hands to the inner service, and what it returns: `none` is a panic. -/
structure CallRun (E R : Type) where
  added : Option Context.Request
  forwarded : Option HttpRequest
  result : Option (Except E (HttpResponse R))

def SignatureContextService.call {E R : Type} (b64 : Base64) (inner : HttpRequest → Except E R)
    (request : HttpRequest) : CallRun E R :=
  match request.signed? b64 with
  | none => ⟨none, none, none⟩
  | some none => ⟨none, some request, some ((inner request).map .inner)⟩
  | some (some req) =>
    match bufferBody [] request.body with
    | none => ⟨none, none, none⟩
    | some none => ⟨none, none, some (.ok (.status payloadTooLarge))⟩
    | some (some buf) =>
      let forwarded := { request with body := bodyFromVec buf }
      ⟨some (req buf), some forwarded, some ((inner forwarded).map .inner)⟩

/-- The request is refused, and nobody gets to see it. -/
structure CallRun.TooLarge {E R : Type} (run : CallRun E R) : Prop where
  added : run.added = none
  forwarded : run.forwarded = none
  result : run.result = some (.ok (.status payloadTooLarge))

/-- The three headers that a signed call has are there and are base64. -/
def HttpRequest.AuthDecodes (b64 : Base64) (r : HttpRequest) : Prop :=
  (r.glauthpubkey.bind b64.standardNoPad).isSome ∧ (r.glauthsig.bind b64.standardNoPad).isSome ∧
    (r.glrune.bind b64.urlSafe).isSome

/-- The pieces of a body before the first error. -/
def leadingChunks : List (Except String Bytes) → List Bytes
  | .ok chunk :: body => chunk :: leadingChunks body
  | _ => []

/-- A body that is read without an error, because there is none or because it is too large before. -/
def Buffers (body : List (Except String Bytes)) : Prop :=
  (∀ chunk ∈ body, chunk.isOk) ∨ maxMessageSize < (leadingChunks body).flatten.length

/-- The requests that a call handles. -/
structure HttpRequest.Harmless (b64 : Base64) (r : HttpRequest) : Prop where
  path : r.uri.isSome
  timestamp : ∀ s, r.glts.bind b64.standardNoPad = some s → 8 ≤ s.length
  body : r.AuthDecodes b64 → Buffers r.body

section

variable {E R : Type} {b64 : Base64} {inner : HttpRequest → Except E R} {r : HttpRequest}
  {f : Bytes → Context.Request} {body : List (Except String Bytes)}

/-! ### The body -/

@[simp] theorem bodyBytes_chunks (chunks : List Bytes) : bodyBytes (chunks.map .ok) = some chunks.flatten := by
  unfold bodyBytes
  have hok : (chunks.map (Except.ok (ε := String))).mapM Except.toOption = some chunks := by
    induction chunks with
    | nil => rfl
    | cons c cs ih => simp [ih, Except.toOption]
  rw [hok, Option.map_some]

@[simp] theorem bodyBytes_bodyFromVec (buf : Bytes) : bodyBytes (bodyFromVec buf) = some buf := by
  unfold bodyFromVec
  split_ifs with h
  · rw [h]
    rfl
  · simpa using bodyBytes_chunks [buf]

theorem bufferBody_chunks (chunks : List Bytes) : bufferBody [] (chunks.map .ok) =
    some (if chunks.flatten.length > maxMessageSize then none else some chunks.flatten) := by
  have happend := bufferBody_append [] chunks [] (Nat.zero_le _)
  rw [List.append_nil, List.length_nil, Nat.zero_add, List.nil_append] at happend
  rw [happend]
  split_ifs <;> rfl

theorem eq_leadingChunks_append : ∀ body : List (Except String Bytes),
    ∃ rest, body = (leadingChunks body).map .ok ++ rest ∧
      ((∀ chunk ∈ body, chunk.isOk) ∧ rest = [] ∨
        (¬ ∀ chunk ∈ body, chunk.isOk) ∧ ∃ e rest', rest = .error e :: rest')
  | [] => ⟨[], rfl, Or.inl ⟨nofun, rfl⟩⟩
  | .error e :: body => ⟨.error e :: body, rfl, Or.inr ⟨by simp [Except.isOk, Except.toBool], e, body, rfl⟩⟩
  | .ok chunk :: body => by
    obtain ⟨rest, hbody, hrest⟩ := eq_leadingChunks_append body
    refine ⟨rest, ?_, ?_⟩
    · rw [leadingChunks, List.map_cons, List.cons_append, ← hbody]
    · have hok : (Except.ok chunk : Except String Bytes).isOk = true := rfl
      simpa only [List.forall_mem_cons, hok, true_and] using hrest

theorem isSome_bufferBody_iff : (bufferBody [] body).isSome ↔ Buffers body := by
  obtain ⟨rest, hbody, hrest⟩ := eq_leadingChunks_append body
  have happend := bufferBody_append rest (leadingChunks body) [] (Nat.zero_le _)
  rw [← hbody, List.length_nil, Nat.zero_add, List.nil_append] at happend
  rw [happend]
  unfold Buffers
  by_cases hlarge : maxMessageSize < (leadingChunks body).flatten.length
  · rw [if_pos hlarge]
    exact iff_of_true rfl (Or.inr hlarge)
  · rw [if_neg hlarge]
    rcases hrest with ⟨hok, rfl⟩ | ⟨herr, e, rest', rfl⟩
    · exact iff_of_true rfl (Or.inl hok)
    · refine iff_of_false (by simp [bufferBody]) ?_
      rintro (hok | hlarge')
      · exact herr hok
      · exact hlarge hlarge'

/-! ### The headers -/

/-- The headers are taken apart if there is a path and the timestamp is not too short, -/
theorem isSome_signed?_iff : (r.signed? b64).isSome ↔
    r.uri.isSome ∧ ∀ s, r.glts.bind b64.standardNoPad = some s → 8 ≤ s.length := by
  unfold HttpRequest.signed?
  cases r.uri with
  | none => simp
  | some uri =>
    cases r.glts.bind b64.standardNoPad with
    | none => simp
    | some s =>
      have hread := isSome_getU64_iff s
      cases hts : getU64 s with
      | none => simpa [hts] using hread
      | some ts => simpa [hts] using hread

/-- and then the call is signed if the other three are there; a signed call makes a request of every payload. -/
theorem signed?_spec {o : Option (Bytes → Context.Request)} (h : r.signed? b64 = some o) :
    (o.isSome ↔ r.AuthDecodes b64) ∧ ∀ f, o = some f → ∀ payload, (f payload).payload = payload := by
  unfold HttpRequest.signed? at h
  obtain ⟨uri, -, h⟩ := Option.bind_eq_some_iff.1 h
  obtain ⟨timestamp, rfl⟩ : ∃ timestamp, o = (do
      let pk ← r.glauthpubkey.bind b64.standardNoPad
      let sig ← r.glauthsig.bind b64.standardNoPad
      let rune ← r.glrune.bind b64.urlSafe
      return fun payload => ⟨pk, sig, rune, payload, uri, timestamp⟩) := by
    split at h
    · exact ⟨none, (Option.some.inj h).symm⟩
    · obtain ⟨timestamp, -, h⟩ := Option.bind_eq_some_iff.1 h
      exact ⟨timestamp, (Option.some.inj h).symm⟩
  unfold HttpRequest.AuthDecodes
  cases r.glauthpubkey.bind b64.standardNoPad with
  | none => simp
  | some pk =>
    cases r.glauthsig.bind b64.standardNoPad with
    | none => simp
    | some sig =>
      cases r.glrune.bind b64.urlSafe with
      | none => simp
      | some rune =>
        refine ⟨by simp, fun f hf payload => ?_⟩
        rw [← Option.some.inj hf]

/-! ### The call -/

theorem isSome_result_iff : (call b64 inner r).result.isSome ↔ r.Harmless b64 := by
  cases hsigned : r.signed? b64 with
  | none =>
    have hnone : (call b64 inner r).result = none := by simp only [call, hsigned]
    have hnot : ¬ (r.signed? b64).isSome := by simp [hsigned]
    rw [hnone]
    exact iff_of_false (by simp) fun h => hnot (isSome_signed?_iff.2 ⟨h.path, h.timestamp⟩)
  | some o =>
    have hheaders := isSome_signed?_iff.1 (by rw [hsigned]; rfl : (r.signed? b64).isSome)
    obtain ⟨hauth, -⟩ := signed?_spec hsigned
    cases o with
    | none =>
      have hplain : ¬ r.AuthDecodes b64 := fun h => by simpa using hauth.2 h
      have hsome : (call b64 inner r).result = some ((inner r).map .inner) := by simp only [call, hsigned]
      rw [hsome]
      exact iff_of_true rfl ⟨hheaders.1, hheaders.2, fun h => absurd h hplain⟩
    | some f =>
      have hbody : (call b64 inner r).result.isSome ↔ (bufferBody [] r.body).isSome := by
        simp only [call, hsigned]
        cases bufferBody [] r.body with
        | none => exact Iff.rfl
        | some o => cases o <;> exact iff_of_true rfl rfl
      rw [hbody, isSome_bufferBody_iff]
      exact ⟨fun h => ⟨hheaders.1, hheaders.2, fun _ => h⟩, fun h => h.body (hauth.1 rfl)⟩

theorem call_of_not_authDecodes (hauth : ¬ r.AuthDecodes b64) (hresult : (call b64 inner r).result.isSome) :
    (call b64 inner r).added = none ∧ (call b64 inner r).forwarded = some r := by
  have hharmless := isSome_result_iff.1 hresult
  obtain ⟨o, hsigned⟩ := Option.isSome_iff_exists.1 (isSome_signed?_iff.2 ⟨hharmless.path, hharmless.timestamp⟩)
  cases o with
  | some f => exact absurd ((signed?_spec hsigned).1.1 rfl) hauth
  | none => simp only [call, hsigned, and_self]

theorem added_eq_some_iff {s : SignatureContextService} {id : RpcId} {req : Context.Request}
    (hid : s.rpcs id = none) : (call b64 inner r).added = some req ↔
      ∃ t, Run (step b64) s [.call id r, .buffer id] t ∧ t.rpcs id = some (.adding req) := by
  have hrun : ∀ t, Run (step b64) s [.call id r, .buffer id] t ↔
      ∃ u, s.step b64 (.call id r) = some u ∧ u.step b64 (.buffer id) = some t := fun t => by
    simp only [run_cons, run_nil, exists_eq_right]
  simp only [hrun, step, hid, call]
  cases r.signed? b64 with
  | none => simp
  | some o =>
    cases o with
    | none => simp
    | some f =>
      cases hbuf : bufferBody [] r.body with
      | none => simp [hbuf]
      | some o => cases o <;> simp [hbuf]

end

/-- **The headers and the body of a request.**  A call returns a response or an error, and passes on a request whose
headers do not decode, exactly if the URI has a path, the timestamp is not base64 or has at least eight bytes, and
there is no error in the body of a signed call before it is too large. -/
theorem call_total_iff {E R : Type} (b64 : Base64) (inner : HttpRequest → Except E R) (r : HttpRequest) :
    ((call b64 inner r).result.isSome ∧
      (¬ r.AuthDecodes b64 → (call b64 inner r).added = none ∧ (call b64 inner r).forwarded = some r)) ↔
      r.Harmless b64 := by
  rw [isSome_result_iff]
  exact ⟨fun h => h.1, fun h => ⟨h, fun hauth => call_of_not_authDecodes hauth (isSome_result_iff.2 h)⟩⟩

/-- A call without any other header whose timestamp has three bytes. -/
theorem call_not_total : ¬ ∀ (b64 : Base64) (inner : HttpRequest → Except String Unit) (r : HttpRequest),
    (call b64 inner r).result.isSome ∧
      (¬ r.AuthDecodes b64 → (call b64 inner r).added = none ∧ (call b64 inner r).forwarded = some r) := by
  intro h
  have hpanic := (h Base64.engines (fun _ => .ok ())
    ⟨some "/cln.Node/Getinfo", none, none, some (utf8 "AAAA"), none, []⟩).1
  exact absurd hpanic (by decide +kernel)

/-- **The pieces of a body do not count.**  A signed call is refused as too large exactly if its body has more than
four million bytes altogether; otherwise the payload in the context and the body that the inner service gets are both
the pieces put together. -/
theorem call_chunks {E R : Type} (b64 : Base64) (inner : HttpRequest → Except E R) (r : HttpRequest)
    (chunks : List Bytes) (hbody : r.body = chunks.map .ok) (hpath : r.uri.isSome) (hauth : r.AuthDecodes b64)
    (htimestamp : ∀ s, r.glts.bind b64.standardNoPad = some s → 8 ≤ s.length) :
    ((call b64 inner r).TooLarge ↔ 4000000 < chunks.flatten.length) ∧
      (¬ 4000000 < chunks.flatten.length → ∃ req forwarded, (call b64 inner r).added = some req ∧
        req.payload = chunks.flatten ∧ (call b64 inner r).forwarded = some forwarded ∧
        bodyBytes forwarded.body = some chunks.flatten ∧
        (call b64 inner r).result = some ((inner forwarded).map .inner)) := by
  obtain ⟨o, hsigned⟩ := Option.isSome_iff_exists.1 (isSome_signed?_iff.2 ⟨hpath, htimestamp⟩)
  obtain ⟨hauth', hpayload⟩ := signed?_spec hsigned
  obtain ⟨f, rfl⟩ := Option.isSome_iff_exists.1 (hauth'.2 hauth)
  have hbuffer := bufferBody_chunks chunks
  rw [← hbody] at hbuffer
  -- the answer to a body that is too large comes before the context and the inner service
  by_cases hlarge : 4000000 < chunks.flatten.length
  · have hrun : call b64 inner r = ⟨none, none, some (.ok (.status payloadTooLarge))⟩ := by
      simp only [call, hsigned, hbuffer, if_pos (show chunks.flatten.length > maxMessageSize from hlarge)]
    rw [hrun]
    exact ⟨iff_of_true ⟨rfl, rfl, rfl⟩ hlarge, fun h => absurd hlarge h⟩
  · have hrun : call b64 inner r = ⟨some (f chunks.flatten), some { r with body := bodyFromVec chunks.flatten },
        some ((inner { r with body := bodyFromVec chunks.flatten }).map .inner)⟩ := by
      simp only [call, hsigned, hbuffer, if_neg (show ¬ chunks.flatten.length > maxMessageSize from hlarge)]
    rw [hrun]
    refine ⟨iff_of_false (fun h => nomatch h.added) hlarge, fun _ => ?_⟩
    exact ⟨_, _, rfl, hpayload f rfl _, rfl, bodyBytes_bodyFromVec _, rfl⟩

/-- A signed call without a timestamp, whose body of three bytes comes in three pieces. -/
theorem call_chunks_three : ∃ (req : Context.Request) (forwarded : HttpRequest),
    (call Base64.engines (fun _ => (.ok () : Except String Unit)) ⟨some "/cln.Node/Pay", some (utf8 "BBE"),
      some (utf8 "BBE"), none, some (utf8 "-_8="), [.ok [1], .ok [], .ok [2, 3]]⟩).added = some req ∧
      req.payload = [1, 2, 3] ∧ bodyBytes forwarded.body = some [1, 2, 3] := by
  have hchunks := call_chunks Base64.engines (fun _ => (.ok () : Except String Unit))
    ⟨some "/cln.Node/Pay", some (utf8 "BBE"), some (utf8 "BBE"), none, some (utf8 "-_8="),
      [.ok [1], .ok [], .ok [2, 3]]⟩ [[1], [], [2, 3]] rfl rfl
    (by unfold HttpRequest.AuthDecodes; decide +kernel) nofun
  obtain ⟨req, forwarded, hadded, hpayload, -, hbytes, -⟩ := hchunks.2 (by decide)
  exact ⟨req, forwarded, hadded, hpayload, hbytes⟩

end Greenlight.Plugin
