import Mathlib.Logic.Encodable.Basic
import Mathlib.Logic.Equiv.List
import Greenlight.Plugin.SignatureContext
import Greenlight.Signer.Request

/-!
# Configuring a node

`configure` of `node/mod.rs`: the address of a `GlConfig` is checked against the network, and the signed request
that it came with is stored, to be attached for the signer from then on.  The handler takes the first request of the
context for its own.  What it stores is its own request exactly if that is the first one at this moment
(`configure_stores_own_iff`).
-/

namespace Greenlight.Plugin

open Greenlight.Lib

/-! ### The libraries of the handler -/

/-- The part of `bitcoin` that is used. -/
structure Bitcoin where
  Network : Type
  Address : Type
  parseNetwork : String → Option Network
  addressFromStr : String → Except String Address
  requireNetwork : Address → Network → Except String Unit

/-- The checks of an address, with the network that `getinfo` reports. -/
def Bitcoin.checkAddress (bitcoin : Bitcoin) (network closeToAddr : String) : Except String Unit :=
  match bitcoin.parseNetwork network with
  | none => .error "Failed to parse 'network' from 'getinfo' response"
  | some network =>
    match bitcoin.addressFromStr closeToAddr with
    | .ok address =>
      match bitcoin.requireNetwork address network with
      | .ok _ => .ok ()
      | .error e => .error ("Network validation failed: " ++ e)
    | .error e => .error ("The address " ++ closeToAddr ++ " is not valid: " ++ e)

/-- `serde_json` for the requests of a context. -/
structure RequestJson where
  toString : Context.Request → String
  fromStr : String → Option Context.Request

def RequestJson.RoundTrip (json : RequestJson) : Prop := ∀ r, json.fromStr (json.toString r) = some r

/-- The functions of other crates that the handler and the service around it call. -/
structure Crates where
  b64 : Base64
  prost : Prost
  /-- What `tonic` makes of the body of a unary call. -/
  unary : Bytes → Except String GlConfig
  bitcoin : Bitcoin
  json : RequestJson

/-- A body that is one message, after its compression flag and its length. -/
def IsOneFrame (body message : Bytes) : Prop :=
  ∃ a b c d : UInt8, body = 0 :: a :: b :: c :: d :: message ∧
    message.length = ((a.toNat * 256 + b.toNat) * 256 + c.toNat) * 256 + d.toNat

/-- `tonic` decodes the message of a body that has one. -/
def Crates.UnaryReadsFrame (crates : Crates) : Prop :=
  ∀ body message, IsOneFrame body message → crates.unary body = crates.prost.glConfig message

/-- `_parse_gl_config_from_serialized_request`; the outer `none` is a panic. -/
def parseGlConfigFromSerializedRequest (crates : Crates) (request : String) : Option (Option GlConfig) :=
  match crates.json.fromStr request with
  | none => none
  | some glConfReq =>
    let glConfReq := glConfReq.toPendingRequest
    if glConfReq.request.length < 5 then none
    else
      match crates.prost.glConfig (glConfReq.request.drop 5) with
      | .ok glconfig => some (some glconfig)
      | .error _ => some none

/-! ### The handler -/

/-- A `GlConfig` with an address that has passed the checks for the network. -/
structure Validated (bitcoin : Bitcoin) where
  glConfig : GlConfig
  network : String
  valid : bitcoin.checkAddress network glConfig.closeToAddr = .ok ()

/-- Where a call of `configure` is. -/
inductive ConfigurePhase (bitcoin : Bitcoin) where
  | entered (glConfig : GlConfig)
  | locked (glConfig : GlConfig)
  | validated (v : Validated bitcoin)
  | serialized (v : Validated bitcoin) (serializedReq : String)
  | stored (v : Validated bitcoin) (serializedReq : String)
  /-- It has returned `Ok`. -/
  | returned (v : Validated bitcoin) (serializedReq : String)
  /-- It has returned the message of a status, panicked or been dropped. -/
  | failed (message : Option String)

namespace ConfigurePhase

variable {bitcoin : Bitcoin}

/-- The phases in which the client of the node's RPC is locked. -/
def HoldsRpc : ConfigurePhase bitcoin → Prop
  | locked _ | validated _ | serialized _ _ | stored _ _ => True
  | _ => False

/-- The configuration, as long as it has not failed. -/
def glConfig? : ConfigurePhase bitcoin → Option GlConfig
  | entered glConfig | locked glConfig => some glConfig
  | validated v | serialized v _ | stored v _ | returned v _ => some v.glConfig
  | failed _ => none

/-- The request that the call takes for its own, once it has one. -/
def serialized? : ConfigurePhase bitcoin → Option String
  | serialized _ serializedReq | stored _ serializedReq | returned _ serializedReq => some serializedReq
  | _ => none

def isActive : ConfigurePhase bitcoin → Bool
  | returned _ _ | failed _ => false
  | _ => true

end ConfigurePhase

/-- The calls of the service with those of `configure` among them, and what these share. -/
structure ConfigureState (bitcoin : Bitcoin) where
  service : SignatureContextService
  configures : RpcId → Option (ConfigurePhase bitcoin)
  /-- The call that has locked the client of the node's RPC. -/
  rpcLock : Option RpcId
  /-- The entry `glconf/request` of the datastore. -/
  datastore : Option String
  /-- `SERIALIZED_CONFIGURE_REQUEST`. -/
  cached : Option String

inductive ConfigureEvent where
  | service (e : RpcEvent)
  /-- The call gets to the handler, with the message that was decoded from its body. -/
  | enter (id : RpcId) (glConfig : GlConfig)
  | lockRpc (id : RpcId)
  /-- `getinfo` with the network of its response, and the check of the address. -/
  | getinfo (id : RpcId) (res : Except String String)
  | snapshot (id : RpcId)
  | datastore (id : RpcId) (res : Except String Unit)
  /-- The request is cached, and the call returns. -/
  | cache (id : RpcId)
  /-- The task of a new server that fills the cache from the datastore. -/
  | restore

namespace ConfigureState

variable {crates : Crates}

def new {bitcoin : Bitcoin} : ConfigureState bitcoin := ⟨.new, fun _ => none, none, none, none⟩

def setPhase {bitcoin : Bitcoin} (n : ConfigureState bitcoin) (id : RpcId) (ph : ConfigurePhase bitcoin) :
    ConfigureState bitcoin :=
  { n with configures := Function.update n.configures id (some ph) }

/-- The call ends without an `Ok`: its guard is dropped. -/
def fail {bitcoin : Bitcoin} (n : ConfigureState bitcoin) (id : RpcId) (message : Option String) :
    ConfigureState bitcoin :=
  { n.setPhase id (.failed message) with rpcLock := if n.rpcLock = some id then none else n.rpcLock }

/-- One piece of a call.  The service goes on with a call when its handler has ended, and a call that is dropped
takes its handler with it. -/
def step (crates : Crates) (n : ConfigureState crates.bitcoin) :
    ConfigureEvent → Option (ConfigureState crates.bitcoin)
  | .service e =>
    match n.service.step crates.b64 e with
    | none => none
    | some service =>
      match e with
      | .finish id =>
        if (n.configures id).any ConfigurePhase.isActive then none else some { n with service := service }
      | .drop id =>
        if (n.configures id).any ConfigurePhase.isActive then some (fail { n with service := service } id none)
        else some { n with service := service }
      | _ => some { n with service := service }
  | .enter id glConfig =>
    match n.service.rpcs id, n.configures id with
    | some (.calling none), none => some (n.setPhase id (.entered glConfig))
    | some (.calling (some req)), none =>
      if req.uri = "/greenlight.Node/Configure" then
        match crates.unary req.payload with
        | .ok c => if c = glConfig then some (n.setPhase id (.entered glConfig)) else none
        | .error _ => none
      else none
    | _, _ => none
  | .lockRpc id =>
    match n.configures id with
    | some (.entered glConfig) =>
      if n.rpcLock = none then some { n.setPhase id (.locked glConfig) with rpcLock := some id } else none
    | _ => none
  | .getinfo id res =>
    match n.configures id with
    | some (.locked glConfig) =>
      match res with
      | .error e =>
        some (n.fail id (some ("Failed to retrieve a response from 'getinfo' while setting the node's " ++
          "configuration: " ++ e)))
      | .ok network =>
        match h : crates.bitcoin.checkAddress network glConfig.closeToAddr with
        | .error e => some (n.fail id (some e))
        | .ok () => some (n.setPhase id (.validated ⟨glConfig, network, h⟩))
    | _ => none
  | .snapshot id =>
    match n.configures id with
    | some (.validated v) =>
      match n.service.ctx.snapshot.head? with
      | none => some (n.fail id none) -- there is no `requests[0]`
      | some r => some (n.setPhase id (.serialized v (crates.json.toString r)))
    | _ => none
  | .datastore id res =>
    match n.configures id with
    | some (.serialized v serializedReq) =>
      match res with
      | .error e =>
        some (n.fail id (some ("Failed to store the raw configure request in the datastore: " ++ e)))
      | .ok _ => some { n.setPhase id (.stored v serializedReq) with datastore := some serializedReq }
    | _ => none
  | .cache id =>
    match n.configures id with
    | some (.stored v serializedReq) =>
      some { n.setPhase id (.returned v serializedReq) with cached := some serializedReq, rpcLock := none }
    | _ => none
  | .restore => if n.rpcLock = none then some { n with cached := n.datastore.or n.cached } else none

variable {n m : ConfigureState crates.bitcoin} {e : ConfigureEvent} {es : List ConfigureEvent} {id : RpcId}

inductive StepOutcome (n : ConfigureState crates.bitcoin) :
    ConfigureEvent → ConfigureState crates.bitcoin → Prop where
  | service {e : RpcEvent} {service : SignatureContextService} (hs : n.service.step crates.b64 e = some service) :
      StepOutcome n (.service e) { n with service := service }
  | dropped {id : RpcId} {service : SignatureContextService}
      (hs : n.service.step crates.b64 (.drop id) = some service) :
      StepOutcome n (.service (.drop id)) (fail { n with service := service } id none)
  | enter {id : RpcId} {glConfig : GlConfig} {req : Option Context.Request}
      (hrpc : n.service.rpcs id = some (.calling req)) (hid : n.configures id = none)
      (hread : ∀ r, req = some r → r.uri = "/greenlight.Node/Configure" ∧ crates.unary r.payload = .ok glConfig) :
      StepOutcome n (.enter id glConfig) (n.setPhase id (.entered glConfig))
  | lockRpc {id : RpcId} {glConfig : GlConfig} (hid : n.configures id = some (.entered glConfig))
      (hlock : n.rpcLock = none) :
      StepOutcome n (.lockRpc id) { n.setPhase id (.locked glConfig) with rpcLock := some id }
  | getinfo {id : RpcId} {res : Except String String} {v : Validated crates.bitcoin}
      (hid : n.configures id = some (.locked v.glConfig)) :
      StepOutcome n (.getinfo id res) (n.setPhase id (.validated v))
  | getinfoFails {id : RpcId} {res : Except String String} {message : Option String} :
      StepOutcome n (.getinfo id res) (n.fail id message)
  | snapshot {id : RpcId} {v : Validated crates.bitcoin} {r : Context.Request}
      (hid : n.configures id = some (.validated v)) (hfirst : n.service.ctx.snapshot.head? = some r) :
      StepOutcome n (.snapshot id) (n.setPhase id (.serialized v (crates.json.toString r)))
  | snapshotFails {id : RpcId} {message : Option String} : StepOutcome n (.snapshot id) (n.fail id message)
  | datastore {id : RpcId} {v : Validated crates.bitcoin} {serializedReq : String}
      (hid : n.configures id = some (.serialized v serializedReq)) :
      StepOutcome n (.datastore id (.ok ()))
        { n.setPhase id (.stored v serializedReq) with datastore := some serializedReq }
  | datastoreFails {id : RpcId} {res : Except String Unit} {message : Option String} :
      StepOutcome n (.datastore id res) (n.fail id message)
  | cache {id : RpcId} {v : Validated crates.bitcoin} {serializedReq : String}
      (hid : n.configures id = some (.stored v serializedReq)) :
      StepOutcome n (.cache id)
        { n.setPhase id (.returned v serializedReq) with cached := some serializedReq, rpcLock := none }
  | restore (hlock : n.rpcLock = none) : StepOutcome n .restore { n with cached := n.datastore.or n.cached }

theorem step_outcome (h : n.step crates e = some m) : StepOutcome n e m := by
  cases e with
  | service e =>
    simp only [step] at h
    split at h
    · cases h
    rename_i service hs
    split at h
    · split_ifs at h
      cases h
      exact .service hs
    · split_ifs at h
      · cases h
        exact .dropped hs
      · cases h
        exact .service hs
    · cases h
      exact .service hs
  | enter id glConfig =>
    simp only [step] at h
    split at h
    · rename_i hrpc hid
      cases h
      exact .enter hrpc hid nofun
    · rename_i req hrpc hid
      split_ifs at h with huri
      split at h
      · rename_i c hread
        split_ifs at h with hc
        cases h
        subst hc
        refine .enter hrpc hid fun r hr => ?_
        obtain rfl := Option.some.inj hr
        exact ⟨huri, hread⟩
      · cases h
    · cases h
  | lockRpc id =>
    simp only [step] at h
    split at h
    · rename_i hid
      split_ifs at h with hlock
      cases h
      exact .lockRpc hid hlock
    · cases h
  | getinfo id res =>
    simp only [step] at h
    split at h
    · rename_i glConfig hid
      split at h
      · cases h
        exact .getinfoFails
      · split at h
        · cases h
          exact .getinfoFails
        · cases h
          exact .getinfo hid
    · cases h
  | snapshot id =>
    simp only [step] at h
    split at h
    · rename_i hid
      split at h
      · cases h
        exact .snapshotFails
      · cases h
        exact .snapshot hid (by assumption)
    · cases h
  | datastore id res =>
    simp only [step] at h
    split at h
    · rename_i hid
      split at h
      · cases h
        exact .datastoreFails
      · cases h
        exact .datastore hid
    · cases h
  | cache id =>
    simp only [step] at h
    split at h
    · cases h
      exact .cache (by assumption)
    · cases h
  | restore =>
    simp only [step] at h
    split_ifs at h with hlock
    cases h
    exact .restore hlock

/-! ### The lock -/

theorem of_configures_setPhase {ph ph' : ConfigurePhase crates.bitcoin} {id' : RpcId}
    (h : (n.setPhase id ph).configures id' = some ph') :
    id' = id ∧ ph' = ph ∨ id' ≠ id ∧ n.configures id' = some ph' := by
  by_cases hne : id' = id
  · subst hne
    exact Or.inl ⟨rfl, Option.some.inj (h.symm.trans (Function.update_self _ _ _))⟩
  · exact Or.inr ⟨hne, (Function.update_of_ne hne _ _).symm.trans h⟩

@[simp] theorem configures_setPhase_self (n : ConfigureState crates.bitcoin) (id : RpcId)
    (ph : ConfigurePhase crates.bitcoin) : (n.setPhase id ph).configures id = some ph := Function.update_self _ _ _

theorem configures_setPhase_of_ne (n : ConfigureState crates.bitcoin) {id id' : RpcId}
    (ph : ConfigurePhase crates.bitcoin) (h : id' ≠ id) : (n.setPhase id ph).configures id' = n.configures id' :=
  Function.update_of_ne h _ _

/-- The lock belongs to the call that is between its start and its end, and what this call has stored is in the
datastore. -/
structure Locked (n : ConfigureState crates.bitcoin) : Prop where
  holds : ∀ id ph, n.configures id = some ph → ph.HoldsRpc → n.rpcLock = some id
  stored : ∀ id v serializedReq, n.configures id = some (.stored v serializedReq) → n.datastore = some serializedReq

theorem Locked.setPhase (h : n.Locked) {ph : ConfigurePhase crates.bitcoin}
    (hholds : ph.HoldsRpc → n.rpcLock = some id) (hstored : ∀ v serializedReq, ph ≠ .stored v serializedReq) :
    (n.setPhase id ph).Locked where
  holds id' ph' hid' hholds' := by
    rcases of_configures_setPhase hid' with ⟨rfl, rfl⟩ | ⟨-, hid'⟩
    · exact hholds hholds'
    · exact h.holds id' ph' hid' hholds'
  stored id' v serializedReq hid' := by
    rcases of_configures_setPhase hid' with ⟨rfl, rfl⟩ | ⟨-, hid'⟩
    · exact absurd rfl (hstored v serializedReq)
    · exact h.stored id' v serializedReq hid'

theorem Locked.fail (h : n.Locked) (id : RpcId) (message : Option String) : (n.fail id message).Locked where
  holds id' ph' hid' hholds' := by
    rcases of_configures_setPhase hid' with ⟨rfl, rfl⟩ | ⟨hne, hid'⟩
    · exact hholds'.elim
    · have hlock := h.holds id' ph' hid' hholds'
      simp [ConfigureState.fail, hlock, hne]
  stored id' v serializedReq hid' := by
    rcases of_configures_setPhase hid' with ⟨-, hph⟩ | ⟨-, hid'⟩
    · cases hph
    · exact h.stored id' v serializedReq hid'

theorem locked_step (hlocked : n.Locked) (h : n.step crates e = some m) : m.Locked := by
  cases step_outcome h with
  | service hs => exact ⟨hlocked.holds, hlocked.stored⟩
  | @dropped id service hs =>
    have hservice : Locked { n with service := service } := ⟨hlocked.holds, hlocked.stored⟩
    exact hservice.fail id none
  | enter hrpc hid hread => exact hlocked.setPhase nofun nofun
  | @lockRpc id glConfig hid hlock =>
    -- no other call is between its start and its end
    have hno : ∀ id' ph, n.configures id' = some ph → ¬ ph.HoldsRpc := fun id' ph hid' hholds =>
      nomatch hlock.symm.trans (hlocked.holds id' ph hid' hholds)
    refine ⟨fun id' ph' hid' hholds' => ?_, fun id' v serializedReq hid' => ?_⟩
    · rcases of_configures_setPhase hid' with ⟨rfl, -⟩ | ⟨-, hid'⟩
      · rfl
      · exact absurd hholds' (hno id' ph' hid')
    · rcases of_configures_setPhase hid' with ⟨-, hph⟩ | ⟨-, hid'⟩
      · cases hph
      · exact hlocked.stored id' v serializedReq hid'
  | getinfo hid => exact hlocked.setPhase (fun _ => hlocked.holds _ _ hid trivial) nofun
  | getinfoFails => exact hlocked.fail _ _
  | snapshot hid hfirst => exact hlocked.setPhase (fun _ => hlocked.holds _ _ hid trivial) nofun
  | snapshotFails => exact hlocked.fail _ _
  | @datastore id v serializedReq hid =>
    have hlock := hlocked.holds id _ hid trivial
    refine ⟨fun id' ph' hid' hholds' => ?_, fun id' v' serializedReq' hid' => ?_⟩
    · rcases of_configures_setPhase hid' with ⟨rfl, -⟩ | ⟨-, hid'⟩
      · exact hlock
      · exact hlocked.holds id' ph' hid' hholds'
    · rcases of_configures_setPhase hid' with ⟨-, hph⟩ | ⟨hne, hid'⟩
      · cases hph
        rfl
      · exact absurd (Option.some.inj ((hlocked.holds id' _ hid' trivial).symm.trans hlock)) hne
  | datastoreFails => exact hlocked.fail _ _
  | @cache id v serializedReq hid =>
    have hlock := hlocked.holds id _ hid trivial
    have hno : ∀ id' ph, id' ≠ id → n.configures id' = some ph → ¬ ph.HoldsRpc := fun id' ph hne hid' hholds =>
      hne (Option.some.inj ((hlocked.holds id' ph hid' hholds).symm.trans hlock))
    refine ⟨fun id' ph' hid' hholds' => ?_, fun id' v' serializedReq' hid' => ?_⟩
    · rcases of_configures_setPhase hid' with ⟨-, rfl⟩ | ⟨hne, hid'⟩
      · exact hholds'.elim
      · exact absurd hholds' (hno id' ph' hne hid')
    · rcases of_configures_setPhase hid' with ⟨-, hph⟩ | ⟨-, hid'⟩
      · cases hph
      · exact hlocked.stored id' v' serializedReq' hid'
  | restore hlock => exact ⟨hlocked.holds, hlocked.stored⟩

end ConfigureState

/-! ### The message and the request of a call -/

/-- A call that has got to its handler has `P` of its request, if it is signed and as long as it is handled. -/
def RpcPhase.Handled (P : Context.Request → Prop) : RpcPhase → Prop
  | .calling req => ∀ r, req = some r → P r
  | .returned _ | .ended => True
  | _ => False

theorem SignatureContextService.handled_step {P : Context.Request → Prop} {b64 : Base64}
    {service service' : SignatureContextService} {e : RpcEvent} {id : RpcId} {rpc : RpcPhase}
    (hs : service.step b64 e = some service') (hid : service.rpcs id = some rpc) (hrpc : rpc.Handled P) :
    ∃ rpc', service'.rpcs id = some rpc' ∧ rpc'.Handled P := by
  -- the phase of a call that is handled changes only to its end
  have hother : ∀ {id' ph}, id ≠ id' →
      ∃ rpc', (service.setPhase id' ph).rpcs id = some rpc' ∧ rpc'.Handled P := fun hne =>
    ⟨rpc, (rpcs_setPhase_of_ne _ _ hne).trans hid, hrpc⟩
  have hends : ∀ {id' ph}, ph.Handled P →
      ∃ rpc', (service.setPhase id' ph).rpcs id = some rpc' ∧ rpc'.Handled P := by
    intro id' ph hph
    rcases eq_or_ne id id' with rfl | hne
    · exact ⟨ph, rpcs_setPhase_self _ _ _, hph⟩
    · exact hother hne
  cases step_outcome hs with
  | @call id' request ph hid' hph =>
    refine hother ?_
    rintro rfl
    cases hid.symm.trans hid'
  | @buffer id' req body ph hid' hph =>
    refine hother ?_
    rintro rfl
    obtain rfl := Option.some.inj (hid.symm.trans hid')
    exact hrpc
  | @add id' req hid' =>
    refine hother ?_
    rintro rfl
    obtain rfl := Option.some.inj (hid.symm.trans hid')
    exact hrpc
  | @finish id' req ph hid' hph =>
    subst hph
    cases req with
    | none => exact hends trivial
    | some req => exact hends trivial
  | cleanup hid' => exact hends trivial
  | drop hid' hph => exact hends trivial

namespace ConfigureState

variable {crates : Crates} {n m : ConfigureState crates.bitcoin} {e : ConfigureEvent} {es : List ConfigureEvent}
  {id : RpcId}

/-- The calls of `configure` are calls to configure the node that have read their message from their body, as far as
they are signed. -/
def Entered (n : ConfigureState crates.bitcoin) : Prop :=
  ∀ id ph glConfig, n.configures id = some ph → ph.glConfig? = some glConfig →
    ∃ rpc, n.service.rpcs id = some rpc ∧
      rpc.Handled fun r => r.uri = "/greenlight.Node/Configure" ∧ crates.unary r.payload = .ok glConfig

theorem Entered.setPhase (h : n.Entered) {ph : ConfigurePhase crates.bitcoin}
    (hph : ∀ glConfig, ph.glConfig? = some glConfig →
      ∃ ph', n.configures id = some ph' ∧ ph'.glConfig? = some glConfig) : (n.setPhase id ph).Entered := by
  intro id' ph' glConfig hid' hread
  rcases of_configures_setPhase hid' with ⟨rfl, rfl⟩ | ⟨-, hid'⟩
  · obtain ⟨ph₀, hid₀, hread₀⟩ := hph glConfig hread
    exact h id' ph₀ glConfig hid₀ hread₀
  · exact h id' ph' glConfig hid' hread

theorem entered_step (hentered : n.Entered) (h : n.step crates e = some m) : m.Entered := by
  have hservice : ∀ {e service}, n.service.step crates.b64 e = some service →
      Entered { n with service := service } := by
    intro e service hs id ph glConfig hid hread
    obtain ⟨rpc, hrpc, hhandled⟩ := hentered id ph glConfig hid hread
    exact SignatureContextService.handled_step hs hrpc hhandled
  cases step_outcome h with
  | service hs => exact hservice hs
  | dropped hs => exact (hservice hs).setPhase nofun
  | @enter id glConfig req hrpc hid hread =>
    intro id' ph' c hid' hc
    rcases of_configures_setPhase hid' with ⟨rfl, rfl⟩ | ⟨-, hid'⟩
    · obtain rfl := Option.some.inj hc
      exact ⟨_, hrpc, hread⟩
    · exact hentered id' ph' c hid' hc
  | lockRpc hid hlock => exact hentered.setPhase fun _ hc => ⟨_, hid, hc⟩
  | getinfo hid => exact hentered.setPhase fun _ hc => ⟨_, hid, hc⟩
  | getinfoFails => exact hentered.setPhase nofun
  | snapshot hid hfirst => exact hentered.setPhase fun _ hc => ⟨_, hid, hc⟩
  | snapshotFails => exact hentered.setPhase nofun
  | datastore hid => exact hentered.setPhase fun _ hc => ⟨_, hid, hc⟩
  | datastoreFails => exact hentered.setPhase nofun
  | cache hid => exact hentered.setPhase fun _ hc => ⟨_, hid, hc⟩
  | restore hlock => exact hentered

/-- When the call takes the first request of the context for its own, that is `req`. -/
def TakesRequest (id : RpcId) (req : Context.Request) (n : ConfigureState crates.bitcoin) (e : ConfigureEvent) :
    Prop :=
  e = .snapshot id → n.service.ctx.snapshot.head? = some req

/-- The request that the call `id` has taken for its own. -/
def taken? (n : ConfigureState crates.bitcoin) (id : RpcId) : Option String :=
  (n.configures id).bind ConfigurePhase.serialized?

def HasFailed (n : ConfigureState crates.bitcoin) (id : RpcId) : Prop :=
  ∃ message, n.configures id = some (.failed message)

/-- The call `id` has not failed in `n`, and has taken there what it has taken in `m`. -/
def Keeps (n m : ConfigureState crates.bitcoin) (id : RpcId) : Prop :=
  ¬ n.HasFailed id ∧ m.taken? id = n.taken? id

theorem keeps_of_eq (heq : m.configures id = n.configures id) (hm : ¬ m.HasFailed id) : n.Keeps m id := by
  simp only [Keeps, HasFailed, taken?, heq] at hm ⊢
  exact ⟨hm, trivial⟩

theorem keeps_setPhase {id' : RpcId} {ph : ConfigurePhase crates.bitcoin} (hfailed : ¬ n.HasFailed id')
    (htaken : ph.serialized? = n.taken? id') (hm : ¬ (n.setPhase id' ph).HasFailed id) :
    n.Keeps (n.setPhase id' ph) id := by
  rcases eq_or_ne id id' with rfl | hne
  · refine ⟨hfailed, ?_⟩
    rw [← htaken, taken?, configures_setPhase_self]
    rfl
  · exact keeps_of_eq (configures_setPhase_of_ne n ph hne) hm

theorem keeps_fail {id' : RpcId} {message : Option String} (hm : ¬ (n.fail id' message).HasFailed id) :
    n.Keeps (n.fail id' message) id := by
  rcases eq_or_ne id id' with rfl | hne
  · exact absurd ⟨message, configures_setPhase_self n id _⟩ hm
  · exact keeps_of_eq (configures_setPhase_of_ne n _ hne) hm

theorem not_hasFailed {ph : ConfigurePhase crates.bitcoin} (hid : n.configures id = some ph)
    (hactive : ph.isActive) : ¬ n.HasFailed id := by
  rintro ⟨message, hfailed⟩
  obtain rfl := Option.some.inj (hid.symm.trans hfailed)
  cases hactive

/-- What a call that does not fail takes for its own in a step: the first request of the context in its own snapshot,
and nothing in any other step. -/
theorem taken?_step (h : n.step crates e = some m) (id : RpcId) (hm : ¬ m.HasFailed id) :
    (e = .snapshot id ∧ ¬ n.HasFailed id ∧ n.taken? id = none ∧
        ∃ r, n.service.ctx.snapshot.head? = some r ∧ m.taken? id = some (crates.json.toString r)) ∨
      e ≠ .snapshot id ∧ n.Keeps m id := by
  cases step_outcome h with
  | service hs => exact Or.inr ⟨nofun, hm, rfl⟩
  | dropped hs => exact Or.inr ⟨nofun, keeps_fail hm⟩
  | @enter id' glConfig req hrpc hid hread =>
    have hnone : ¬ n.HasFailed id' := fun ⟨_, hfailed⟩ => nomatch hid.symm.trans hfailed
    exact Or.inr ⟨nofun, keeps_setPhase hnone (by rw [taken?, hid]; rfl) hm⟩
  | lockRpc hid hlock =>
    exact Or.inr ⟨nofun, keeps_setPhase (not_hasFailed hid rfl) (by rw [taken?, hid]; rfl) hm⟩
  | getinfo hid => exact Or.inr ⟨nofun, keeps_setPhase (not_hasFailed hid rfl) (by rw [taken?, hid]; rfl) hm⟩
  | getinfoFails => exact Or.inr ⟨nofun, keeps_fail hm⟩
  | @snapshot id' v r hid hfirst =>
    rcases eq_or_ne id id' with rfl | hne
    · refine Or.inl ⟨rfl, not_hasFailed hid rfl, by rw [taken?, hid]; rfl, r, hfirst, ?_⟩
      rw [taken?, configures_setPhase_self]
      rfl
    · exact Or.inr ⟨fun heq => hne (ConfigureEvent.snapshot.inj heq).symm,
        keeps_of_eq (configures_setPhase_of_ne n _ hne) hm⟩
  | @snapshotFails id' message =>
    refine Or.inr ⟨fun heq => ?_, keeps_fail hm⟩
    obtain rfl := ConfigureEvent.snapshot.inj heq
    exact hm ⟨message, configures_setPhase_self n _ _⟩
  | datastore hid => exact Or.inr ⟨nofun, keeps_setPhase (not_hasFailed hid rfl) (by rw [taken?, hid]; rfl) hm⟩
  | datastoreFails => exact Or.inr ⟨nofun, keeps_fail hm⟩
  | cache hid => exact Or.inr ⟨nofun, keeps_setPhase (not_hasFailed hid rfl) (by rw [taken?, hid]; rfl) hm⟩
  | restore hlock => exact Or.inr ⟨nofun, hm, rfl⟩

/-- What the call has taken is `req` if and only if this was the first request of the context at its snapshot. -/
def Tracks (id : RpcId) (req : Context.Request) (es : List ConfigureEvent) (n : ConfigureState crates.bitcoin) :
    Prop :=
  match n.taken? id with
  | none => AllSteps (step crates) (TakesRequest id req) new es
  | some serializedReq => crates.json.fromStr serializedReq = some req ↔
      AllSteps (step crates) (TakesRequest id req) new es

theorem tracks_of_run (hjson : crates.json.RoundTrip) (req : Context.Request) (hr : Run (step crates) new es n) :
    ¬ n.HasFailed id → Tracks id req es n := by
  refine Run.induction (motive := fun es n => ¬ n.HasFailed id → Tracks id req es n) hr ?_ ?_
  · intro _
    exact trivial
  · intro es n e m hr ih hstep hm
    unfold Tracks
    rw [allSteps_concat hr]
    rcases taken?_step hstep id hm with ⟨rfl, hfailed, hnone, r, hfirst, htaken⟩ | ⟨hne, hfailed, htaken⟩
    · have hall := ih hfailed
      rw [Tracks, hnone] at hall
      simp only [htaken, hjson r, TakesRequest, hfirst, hall, true_and, forall_const]
    · have htakes : TakesRequest id req n e := fun heq => absurd heq hne
      simp only [htaken, htakes, and_true]
      exact ih hfailed

theorem parseGlConfig_of_isOneFrame (hunary : crates.UnaryReadsFrame) {req : Context.Request} {message : Bytes}
    {glConfig : GlConfig} {serializedReq : String} (hbody : IsOneFrame req.payload message)
    (hread : crates.unary req.payload = .ok glConfig) (hreq : crates.json.fromStr serializedReq = some req) :
    parseGlConfigFromSerializedRequest crates serializedReq = some (some glConfig) := by
  rw [hunary _ _ hbody] at hread
  obtain ⟨a, b, c, d, hpayload, -⟩ := hbody
  simp [parseGlConfigFromSerializedRequest, hreq, Context.Request.toPendingRequest, hpayload, hread]

/-- **What `configure` stores.**  When a signed call returns `Ok`, the datastore and the cache have the request that
it has taken for its own.  This is the request of the call if and only if that was the first one of the context when
the call took its snapshot; and then, if its body is one message, the configuration that is parsed from the stored
request is the one with the address that the call has checked. -/
theorem configure_stores_own_iff (hjson : crates.json.RoundTrip) (hunary : crates.UnaryReadsFrame)
    (hr : Run (step crates) new (es ++ [.cache id]) n) {req : Context.Request}
    (hreq : n.service.rpcs id = some (.calling (some req))) :
    ∃ v serializedReq, n.configures id = some (.returned v serializedReq) ∧ n.datastore = some serializedReq ∧
      n.cached = some serializedReq ∧
      (crates.json.fromStr serializedReq = some req ↔ AllSteps (step crates) (TakesRequest id req) new es) ∧
      ∀ message, IsOneFrame req.payload message → crates.json.fromStr serializedReq = some req →
        parseGlConfigFromSerializedRequest crates serializedReq = some (some v.glConfig) := by
  obtain ⟨m, hrm, hstep⟩ := run_concat.1 hr
  cases step_outcome hstep with
  | @cache _ v serializedReq hid =>
    have hlocked : m.Locked := hrm.invariant locked_step ⟨nofun, nofun⟩
    have hentered : m.Entered := hrm.invariant entered_step nofun
    have htracks : Tracks id req es m := tracks_of_run hjson req hrm (not_hasFailed hid rfl)
    obtain ⟨rpc, hrpc, hread⟩ := hentered id _ _ hid rfl
    obtain rfl := Option.some.inj (hrpc.symm.trans hreq)
    have htaken : m.taken? id = some serializedReq := by rw [taken?, hid]; rfl
    rw [Tracks, htaken] at htracks
    exact ⟨v, serializedReq, configures_setPhase_self _ _ _, hlocked.stored id v serializedReq hid, rfl, htracks,
      fun message hbody hown => parseGlConfig_of_isOneFrame hunary hbody (hread req rfl).2 hown⟩

end ConfigureState

/-! ### Crates in plain text -/

/-- The fields of a request as numbers. -/
def Context.Request.toNats (r : Context.Request) : List (List ℕ) × Option ℕ :=
  ([r.pubkey.map (·.toNat), r.signature.map (·.toNat), r.rune.map (·.toNat), r.payload.map (·.toNat),
    r.uri.toList.map (·.toNat)], r.timestamp.map (·.toNat))

def Context.Request.ofNats : List (List ℕ) × Option ℕ → Option Context.Request
  | ([pubkey, signature, rune, payload, uri], timestamp) =>
    some ⟨pubkey.map UInt8.ofNat, signature.map UInt8.ofNat, rune.map UInt8.ofNat, payload.map UInt8.ofNat,
      String.ofList (uri.map Char.ofNat), timestamp.map UInt64.ofNat⟩
  | _ => none

theorem Context.Request.ofNats_toNats (r : Context.Request) : ofNats r.toNats = some r := by
  have hbytes : UInt8.ofNat ∘ UInt8.toNat = id := funext fun b => UInt8.ofNat_toNat
  have hchars : Char.ofNat ∘ Char.toNat = id := funext Char.ofNat_toNat
  have htime : UInt64.ofNat ∘ UInt64.toNat = id := funext fun t => UInt64.ofNat_toNat
  simp [ofNats, toNats, hbytes, hchars, htime]

/-- Texts that are as long as the number of the request they stand for. -/
def RequestJson.tally : RequestJson where
  toString r := String.ofList (List.replicate (Encodable.encode r.toNats) '|')
  fromStr s := (Encodable.decode s.length).bind Context.Request.ofNats

theorem RequestJson.roundTrip_tally : RequestJson.tally.RoundTrip := fun r => by
  simp only [tally, String.length_ofList, List.length_replicate, Encodable.encodek, Option.bind_some]
  exact Context.Request.ofNats_toNats r

/-- Crates that check nothing of an address. -/
def Crates.plain : Crates where
  b64 := SignatureContextService.plainBase64
  prost := Prost.bolt11
  unary
    | 0 :: _ :: _ :: _ :: _ :: message => Prost.bolt11.glConfig message
    | _ => .error "invalid compression flag"
  bitcoin := ⟨Unit, String, fun _ => some (), .ok, fun _ _ => .ok ()⟩
  json := .tally

theorem Crates.roundTrip_plain : Crates.plain.json.RoundTrip := RequestJson.roundTrip_tally

theorem Crates.unaryReadsFrame_plain : Crates.plain.UnaryReadsFrame := by
  rintro _ message ⟨a, b, c, d, rfl, -⟩
  rfl

namespace ConfigureState

def configureCall : HttpRequest where
  uri := some "/greenlight.Node/Configure"
  glauthpubkey := some [1]
  glauthsig := some [4]
  glts := none
  glrune := some [3]
  body := [.ok ([0, 0, 0, 0, 6, 0x0a, 4] ++ utf8 "addr")]

def configureRequest : Context.Request :=
  ⟨[1], [4], [3], [0, 0, 0, 0, 6, 0x0a, 4] ++ utf8 "addr", "/greenlight.Node/Configure", none⟩

/-- The signed call to `configure` with the given id, up to its snapshot. -/
def configureCalled (id : RpcId) : List ConfigureEvent :=
  [.service (.call id configureCall), .service (.buffer id), .service (.add id), .enter id ⟨"addr"⟩, .lockRpc id,
    .getinfo id (.ok "regtest")]

/-- The rest of it up to its return. -/
def configureStored (id : RpcId) : List ConfigureEvent := [.snapshot id, .datastore id (.ok ())]

def payCalled (id : RpcId) : List ConfigureEvent :=
  [.service (.call id SignatureContextService.payCall), .service (.buffer id), .service (.add id)]

/-- The request of `configure` is the first one, and a payment comes in while it is handled. -/
theorem configure_stores_own_iff_beside : ∃ (n : ConfigureState Crates.plain.bitcoin)
      (v : Validated Crates.plain.bitcoin) (serializedReq : String),
    Run (step Crates.plain) new (configureCalled 0 ++ payCalled 1 ++ configureStored 0 ++ [.cache 0]) n ∧
    n.configures 0 = some (.returned v serializedReq) ∧ n.cached = some serializedReq ∧
    Crates.plain.json.fromStr serializedReq = some configureRequest ∧
    parseGlConfigFromSerializedRequest Crates.plain serializedReq = some (some v.glConfig) := by
  have h : ∃ n : ConfigureState Crates.plain.bitcoin,
      Run (step Crates.plain) new (configureCalled 0 ++ payCalled 1 ++ configureStored 0 ++ [.cache 0]) n ∧
      n.service.rpcs 0 = some (.calling (some configureRequest)) := ⟨_, rfl, rfl⟩
  have hfirst : ∃ m : ConfigureState Crates.plain.bitcoin,
      Run (step Crates.plain) new (configureCalled 0 ++ payCalled 1) m ∧
      m.service.ctx.snapshot.head? = some configureRequest := ⟨_, rfl, rfl⟩
  obtain ⟨n, hr, hreq⟩ := h
  obtain ⟨m, hrm, hsnapshot⟩ := hfirst
  -- the payment comes behind the request of `configure`, which stays the first one
  have htakes : AllSteps (step Crates.plain) (TakesRequest 0 configureRequest) new
      (configureCalled 0 ++ payCalled 1 ++ configureStored 0) := by
    refine allSteps_of_single hrm (fun _ => hsnapshot) (fun e he _ hsnap => ?_) fun e he _ hsnap => ?_
    · simp [hsnap, configureCalled, payCalled] at he
    · simp [hsnap] at he
  obtain ⟨v, serializedReq, hreturned, -, hcached, hown, hparses⟩ :=
    configure_stores_own_iff Crates.roundTrip_plain Crates.unaryReadsFrame_plain hr hreq
  exact ⟨n, v, serializedReq, hr, hreturned, hcached, hown.2 htakes,
    hparses _ ⟨0, 0, 0, 6, rfl, rfl⟩ (hown.2 htakes)⟩

/-- The request of a call that has been pending for longer. -/
def payRequest : Context.Request := ⟨[1], [2], [3], [0, 0, 0, 0, 0], "/cln.Node/Pay", none⟩

/-- A payment that is pending is stored in the place of the request to configure the node. -/
theorem configure_stores_other : ¬ ∀ (crates : Crates) (es : List ConfigureEvent) (id : RpcId)
    (n : ConfigureState crates.bitcoin) (req : Context.Request), crates.json.RoundTrip → crates.UnaryReadsFrame →
    Run (step crates) new (es ++ [.cache id]) n → n.service.rpcs id = some (.calling (some req)) →
    ∀ serializedReq, n.cached = some serializedReq → crates.json.fromStr serializedReq = some req := by
  intro hall
  have h : ∃ n : ConfigureState Crates.plain.bitcoin,
      Run (step Crates.plain) new (payCalled 0 ++ configureCalled 1 ++ configureStored 1 ++ [.cache 1]) n ∧
      n.service.rpcs 1 = some (.calling (some configureRequest)) ∧
      n.cached = some (Crates.plain.json.toString payRequest) := ⟨_, rfl, rfl, rfl⟩
  obtain ⟨n, hr, hreq, hcached⟩ := h
  have hown := hall _ _ _ n _ Crates.roundTrip_plain Crates.unaryReadsFrame_plain hr hreq _ hcached
  have hother : Crates.plain.json.fromStr (Crates.plain.json.toString payRequest) = some payRequest :=
    Crates.roundTrip_plain payRequest
  exact absurd (Option.some.inj (hother.symm.trans hown)) (by decide)

end ConfigureState

end Greenlight.Plugin
