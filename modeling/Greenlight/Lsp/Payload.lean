import Greenlight.Lsp.HtlcAccepted

/-!
# The payload of a request

A request is read from an object, whose fields come in any order, or from an array.  Either way its payload is what
the text in its place is read as (`payload_of_requestOfJson`), so a payload that was read fits what can be written
(`fits_of_requestOfJson`).
-/

namespace Greenlight.Lsp

open Greenlight.Lib Greenlight.Plugin Greenlight.Plugin.SerializedTlvStream

def onionField : Json → Option Json
  | .obj fields => fields.lookup "onion"
  | .arr (v :: _) => some v
  | _ => none

def payloadField : Json → Option Json
  | .obj fields => fields.lookup "payload"
  | .arr (v :: _) => some v
  | _ => none

def requestPayload (v : Json) : Option Json := (onionField v).bind payloadField

/-! ### Payloads that were read -/

theorem fits_of_stream {b : Bytes} {es : List TlvEntry} (h : Stream b es) :
    ∀ e ∈ es, e.value.length < 2 ^ 64 := by
  induction h with
  | stop => exact nofun
  | @record t l value b typ len es _ _ hv _ ih =>
    intro e he
    rcases List.mem_cons.1 he with rfl | he
    · rw [hv]
      exact len.toNat_lt
    · exact ih e he

theorem fits_of_payloadOfJson {v : Json} {payload : SerializedTlvStream} (h : payloadOfJson v = .ok payload) :
    payload.Fits := by
  cases v with
  | str s =>
    simp only [payloadOfJson, SerializedTlvStream.ofHex] at h
    cases hs : hexDecode s with
    | none =>
      rw [hs] at h
      cases h
    | some b =>
      rw [hs] at h
      obtain ⟨⟨l, rest⟩, -, h⟩ := bind_eq_ok.1 h
      exact fits_of_stream (fromBytes_eq_ok_iff.1 h)
  | _ => cases h

theorem fill_eq_ok {α : Type} {slot slot' : Option α} {x : Fallible α} (h : fill slot x = .ok slot') :
    slot = none ∧ ∃ a, x = .ok a ∧ slot' = some a := by
  cases slot with
  | some a => cases h
  | none =>
    obtain ⟨a, ha, h⟩ := bind_eq_ok.1 h
    cases h
    exact ⟨rfl, a, ha, rfl⟩

theorem orError_eq_ok {α : Type} {x : Option α} {a : α} (h : orError x = .ok a) : x = some a := by
  cases x with
  | none => cases h
  | some b =>
    cases h
    rfl

theorem next_eq_ok {α : Type} {de : Json → Fallible α} {l l' : List Json} {a : α} (h : next de l = .ok (a, l')) :
    ∃ v, l = v :: l' ∧ de v = .ok a := by
  cases l with
  | nil => cases h
  | cons v l =>
    obtain ⟨b, hb, h⟩ := bind_eq_ok.1 h
    cases h
    exact ⟨v, rfl, hb⟩

/-! ### The payload in the request -/

/-- A slot that only the field `name` fills holds what the first field of that name is read as. -/
theorem lookup_of_foldlM {σ α : Type} {visit : σ → String × Json → Fallible σ} {slot : σ → Option α}
    {de : Json → Fallible α} {name : String}
    (hname : ∀ f field f', field.1 = name → visit f field = .ok f' →
      slot f = none ∧ ∃ a, de field.2 = .ok a ∧ slot f' = some a)
    (hother : ∀ f field f', field.1 ≠ name → visit f field = .ok f' → slot f' = slot f)
    {fields : List (String × Json)} {f f' : σ} (h : fields.foldlM visit f = .ok f') {a : α}
    (hnone : slot f = none) (hsome : slot f' = some a) :
    ∃ v, fields.lookup name = some v ∧ de v = .ok a := by
  -- a filled slot stays as it is, since a second field of the name is an error
  have hkeep : ∀ {fields : List (String × Json)} {f f' : σ} {a : α}, fields.foldlM visit f = .ok f' →
      slot f = some a → slot f' = some a := by
    intro fields f f' a h hf
    refine foldlM_invariant (P := fun f => slot f = some a) (fun f field f₁ hf hvisit => ?_) hf h
    by_cases heq : field.1 = name
    · rw [(hname f field f₁ heq hvisit).1] at hf
      cases hf
    · rwa [hother f field f₁ heq hvisit]
  induction fields generalizing f with
  | nil =>
    cases h
    rw [hnone] at hsome
    cases hsome
  | cons field fields ih =>
    obtain ⟨key, v⟩ := field
    rw [List.foldlM_cons] at h
    obtain ⟨f₁, hvisit, h⟩ := bind_eq_ok.1 h
    by_cases heq : key = name
    · obtain ⟨-, a', hread, hslot⟩ := hname f _ f₁ heq hvisit
      obtain rfl := Option.some.inj ((hkeep h hslot).symm.trans hsome)
      refine ⟨v, ?_, hread⟩
      rw [List.lookup_cons, heq, beq_self_eq_true]
    · obtain ⟨w, hlookup, hread⟩ := ih h ((hother f _ f₁ heq hvisit).trans hnone)
      refine ⟨w, ?_, hread⟩
      rw [List.lookup_cons, beq_false_of_ne (Ne.symm heq)]
      exact hlookup

section Request

variable {cln : ClnPrimitives} {v : Json}

theorem payload_of_ofTail {payload : SerializedTlvStream} {l : List Json} {onion : Onion}
    (h : Onion.ofTail cln payload l = .ok onion) : onion.payload = payload := by
  obtain ⟨_, -, h⟩ := bind_eq_ok.1 h
  obtain ⟨_, -, h⟩ := bind_eq_ok.1 h
  obtain ⟨_, -, h⟩ := bind_eq_ok.1 h
  obtain ⟨_, -, h⟩ := bind_eq_ok.1 h
  obtain ⟨_, -, h⟩ := bind_eq_ok.1 h
  obtain ⟨⟨_, l₆⟩, -, h⟩ := bind_eq_ok.1 h
  cases l₆ with
  | nil =>
    cases h
    rfl
  | cons v l => cases h

theorem payload_of_onionOfJson {onion : Onion} (h : Onion.ofJson cln v = .ok onion) :
    ∃ text, payloadField v = some text ∧ payloadOfJson text = .ok onion.payload := by
  cases v with
  | obj fields =>
    obtain ⟨f, hfold, h⟩ := bind_eq_ok.1 h
    obtain ⟨payload, hpayload, h⟩ := bind_eq_ok.1 h
    obtain ⟨sharedSecret, -, h⟩ := bind_eq_ok.1 h
    obtain ⟨nextOnion, -, h⟩ := bind_eq_ok.1 h
    cases h
    have hslot : f.payload = some payload := orError_eq_ok hpayload
    have hempty : OnionFields.empty.payload = none := rfl
    refine lookup_of_foldlM ?_ ?_ hfold hempty hslot
    · intro f field f' hname hvisit
      rw [OnionFields.visit, if_pos hname] at hvisit
      obtain ⟨slot, hslot, hvisit⟩ := bind_eq_ok.1 hvisit
      cases hvisit
      exact fill_eq_ok hslot
    · intro f field f' hname hvisit
      rw [OnionFields.visit, if_neg hname] at hvisit
      -- the other fields leave the payload alone
      iterate 6
        split at hvisit
        · obtain ⟨slot, -, hvisit⟩ := bind_eq_ok.1 hvisit
          cases hvisit
          rfl
      cases hvisit
      rfl
  | arr l =>
    obtain ⟨⟨payload, l'⟩, hnext, htail⟩ := bind_eq_ok.1 h
    obtain ⟨text, rfl, htext⟩ := next_eq_ok hnext
    exact ⟨text, rfl, (payload_of_ofTail htail).symm ▸ htext⟩
  | _ => cases h

theorem payload_of_requestOfJson {req : HtlcAcceptedRequest} (h : HtlcAcceptedRequest.ofJson cln v = .ok req) :
    ∃ text, requestPayload v = some text ∧ payloadOfJson text = .ok req.onion.payload := by
  have honion : ∃ w, onionField v = some w ∧ Onion.ofJson cln w = .ok req.onion := by
    cases v with
    | obj fields =>
      obtain ⟨f, hfold, h⟩ := bind_eq_ok.1 h
      obtain ⟨onion, honion, h⟩ := bind_eq_ok.1 h
      obtain ⟨htlc, -, h⟩ := bind_eq_ok.1 h
      cases h
      have hslot : f.onion = some onion := orError_eq_ok honion
      have hempty : RequestFields.onion ⟨none, none⟩ = none := rfl
      refine lookup_of_foldlM ?_ ?_ hfold hempty hslot
      · intro f field f' hname hvisit
        rw [RequestFields.visit, if_pos hname] at hvisit
        obtain ⟨slot, hslot, hvisit⟩ := bind_eq_ok.1 hvisit
        cases hvisit
        exact fill_eq_ok hslot
      · intro f field f' hname hvisit
        rw [RequestFields.visit, if_neg hname] at hvisit
        split at hvisit
        · obtain ⟨slot, -, hvisit⟩ := bind_eq_ok.1 hvisit
          cases hvisit
          rfl
        · cases hvisit
          rfl
    | arr l =>
      obtain ⟨⟨onion, l'⟩, hnext, htail⟩ := bind_eq_ok.1 h
      obtain ⟨w, rfl, hw⟩ := next_eq_ok hnext
      obtain ⟨⟨htlc, l₂⟩, -, hend⟩ := bind_eq_ok.1 htail
      cases l₂ with
      | nil =>
        cases hend
        exact ⟨w, rfl, hw⟩
      | cons v l => cases hend
    | _ => cases h
  obtain ⟨w, hw, hread⟩ := honion
  obtain ⟨text, htext, hpayload⟩ := payload_of_onionOfJson hread
  exact ⟨text, by rw [requestPayload, hw]; exact htext, hpayload⟩

theorem fits_of_requestOfJson {req : HtlcAcceptedRequest} (h : HtlcAcceptedRequest.ofJson cln v = .ok req) :
    req.onion.payload.Fits := by
  obtain ⟨text, -, hread⟩ := payload_of_requestOfJson h
  exact fits_of_payloadOfJson hread

end Request

end Greenlight.Lsp
