import Greenlight.Plugin.Configure

/-!
# The address that channels close to

`on_openchannel` of `lib.rs` gives a new channel the address of the request to configure the node that the datastore
has, and `stream_hsm_requests` attaches the same request for the signer, from the cache.  The entry is written without
a mode, and the datastore does not replace an entry then.  So whatever is called, and however often the plugin
restarts, at most one call of `configure` is ever stored, all channels from then on get its address, and the signer is
given no other (`configured_of_run`).  This is as long as no client changes the entry: the plugin passes the calls
`Datastore` and `DelDatastore` on to lightningd, whatever their key is, and behind a client that deletes the entry a
second call of `configure` is stored.
-/

namespace Greenlight.Plugin

open Greenlight.Lib

/-! ### The hook -/

/-- The result of the hook with the address it has for the channel, an error, or a panic. -/
inductive OpenchannelResult where
  | continues (closeTo : Option String)
  | error
  | panicked
  deriving DecidableEq

/-- `on_openchannel`, with what `listdatastore` returns for the key `glconf/request`: the strings of its entries.  It
is `none` if there is no connection to the RPC. -/
def onOpenchannel (crates : Crates) : Option (Except String (List (Option String))) → OpenchannelResult
  | none => .error
  | some (.ok (some serializedRequest :: _)) =>
    match parseGlConfigFromSerializedRequest crates serializedRequest with
    | some (some glConfig) => .continues (some glConfig.closeToAddr)
    | some none => .continues none
    | none => .panicked
  | some (.ok (none :: _)) => .continues none
  | some (.ok []) => .continues none
  | some (.error _) => .continues none

/-- The request is a call to configure the node with the address of `v`. -/
structure Sets (crates : Crates) (req : Context.Request) (v : Validated crates.bitcoin) : Prop where
  uri : req.uri = "/greenlight.Node/Configure"
  reads : ∃ message, IsOneFrame req.payload message ∧ crates.prost.glConfig message = .ok v.glConfig

theorem Sets.onOpenchannel {crates : Crates} {req : Context.Request} {v : Validated crates.bitcoin}
    (h : Sets crates req v) (hjson : crates.json.RoundTrip) (rest : List (Option String)) :
    onOpenchannel crates (some (.ok (some (crates.json.toString req) :: rest))) =
      .continues (some v.glConfig.closeToAddr) := by
  obtain ⟨message, ⟨a, b, c, d, hpayload, -⟩, hread⟩ := h.reads
  have hparse : parseGlConfigFromSerializedRequest crates (crates.json.toString req) = some (some v.glConfig) := by
    simp [parseGlConfigFromSerializedRequest, hjson req, Context.Request.toPendingRequest, hpayload, hread]
  simp only [Plugin.onOpenchannel, hparse]

/-- A signer reads the same address from the request, if it accepts it. -/
theorem Sets.derives {crates : Crates} {req : Context.Request} {v : Validated crates.bitcoin}
    (h : Sets crates req v) {signer : Signer} {now : ℤ} (haccepts : signer.Accepts now req.toPendingRequest) :
    signer.Derives crates.prost now req.toPendingRequest (.glConfig v.glConfig) := by
  obtain ⟨message, ⟨a, b, c, d, hpayload, -⟩, hread⟩ := h.reads
  have hcln : Decoders.decodeRequest clnDecoders crates.prost "/greenlight.Node/Configure" message =
      .error "Unknown URI /greenlight.Node/Configure, can't decode payload" := rfl
  have hgreenlight : Decoders.decodeRequest greenlightDecoders crates.prost "/greenlight.Node/Configure" message =
      Request.glConfig <$> crates.prost.glConfig message := rfl
  refine ⟨haccepts, ?_⟩
  simp [decodeRequest, Context.Request.toPendingRequest, hpayload, h.uri, hcln, hgreenlight, hread]

/-! ### What is stored -/

/-- The call has its request stored. -/
def ConfigureEvent.stores : ConfigureEvent → Bool
  | .datastore _ (.ok _) => true
  | _ => false

namespace ConfigureState

variable {crates : Crates} {n m : ConfigureState crates.bitcoin} {e : ConfigureEvent} {id : RpcId}

/-- The requests that the calls are about to store set the addresses that they have checked. -/
def Taken (n : ConfigureState crates.bitcoin) : Prop :=
  ∀ id v serializedReq, n.configures id = some (.serialized v serializedReq) →
    ∃ req, serializedReq = crates.json.toString req ∧ Sets crates req v

theorem Taken.setPhase (h : n.Taken) {ph : ConfigurePhase crates.bitcoin}
    (hph : ∀ v serializedReq, ph = .serialized v serializedReq →
      ∃ req, serializedReq = crates.json.toString req ∧ Sets crates req v) : (n.setPhase id ph).Taken := by
  intro id' v serializedReq hid'
  rcases of_configures_setPhase hid' with ⟨rfl, rfl⟩ | ⟨-, hid'⟩
  · exact hph v serializedReq rfl
  · exact h id' v serializedReq hid'

/-- A call that takes its own request is about to store what it has checked. -/
theorem taken_step (hunary : crates.UnaryReadsFrame) (hentered : n.Entered) (htaken : n.Taken)
    (hown : ∀ id, e = .snapshot id → ∃ req message, n.service.rpcs id = some (.calling (some req)) ∧
      IsOneFrame req.payload message ∧ n.service.ctx.snapshot.head? = some req)
    (h : n.step crates e = some m) : m.Taken := by
  cases step_outcome h with
  | service hs => exact htaken
  | dropped hs => exact htaken.setPhase fun _ _ hph => by cases hph
  | enter hrpc hid hread => exact htaken.setPhase fun _ _ hph => by cases hph
  | lockRpc hid hlock => exact htaken.setPhase fun _ _ hph => by cases hph
  | getinfo hid => exact htaken.setPhase fun _ _ hph => by cases hph
  | getinfoFails => exact htaken.setPhase fun _ _ hph => by cases hph
  | @snapshot id v r hid hfirst =>
    obtain ⟨req, message, hrpc, hbody, hhead⟩ := hown id rfl
    obtain rfl := Option.some.inj (hfirst.symm.trans hhead)
    obtain ⟨rpc, hrpc', hhandled⟩ := hentered id _ _ hid rfl
    obtain rfl := Option.some.inj (hrpc'.symm.trans hrpc)
    -- the call has been entered with the message of the request that it takes
    obtain ⟨huri, hread⟩ := hhandled r rfl
    rw [hunary _ _ hbody] at hread
    refine htaken.setPhase fun v' serializedReq hph => ?_
    cases hph
    exact ⟨r, rfl, huri, message, hbody, hread⟩
  | snapshotFails => exact htaken.setPhase fun _ _ hph => by cases hph
  | datastore hid => exact htaken.setPhase fun _ _ hph => by cases hph
  | datastoreFails => exact htaken.setPhase fun _ _ hph => by cases hph
  | cache hid => exact htaken.setPhase fun _ _ hph => by cases hph
  | restore hlock => exact htaken

/-- What a step does to the entry of the datastore and to the cache, as long as the cache has nothing else. -/
inductive EntryOutcome (n m : ConfigureState crates.bitcoin) (e : ConfigureEvent) : Prop where
  | stored (id : RpcId) (v : Validated crates.bitcoin) (serializedReq : String)
      (he : e.stores = true) (hid : n.configures id = some (.serialized v serializedReq))
      (hdatastore : m.datastore = some serializedReq) (hcached : m.cached = n.cached)
  | kept (he : e.stores = false) (hdatastore : m.datastore = n.datastore)
      (hcached : m.cached = n.cached ∨ m.cached = n.datastore ∨ m.cached = n.datastore.or n.cached)

theorem entry_outcome (hlocked : n.Locked) (h : n.step crates e = some m) : EntryOutcome n m e := by
  cases step_outcome h with
  | @datastore id v serializedReq hid => exact .stored id v serializedReq rfl hid rfl rfl
  | @cache id v serializedReq hid =>
    exact .kept rfl rfl (Or.inr (Or.inl (hlocked.stored id v serializedReq hid).symm))
  | restore hlock => exact .kept rfl rfl (Or.inr (Or.inr rfl))
  | @datastoreFails id res message =>
    cases res with
    | error e => exact .kept rfl rfl (Or.inl rfl)
    | ok u =>
      -- the call goes on if the entry is stored
      simp only [step] at h
      split at h
      · have hid := congrArg (fun m => m.configures id) (Option.some.inj h)
        simp [fail, setPhase] at hid
      · cases h
  | _ => exact .kept rfl rfl (Or.inl rfl)

end ConfigureState

/-! ### The node -/

/-- The plugin of a node with the calls of `configure`, and what its hook has returned for each new channel, with
whether the RPC had answered it.  The datastore is what is left of a plugin that restarts. -/
structure ClosingNode (bitcoin : Bitcoin) where
  configure : ConfigureState bitcoin
  opened : List (Bool × OpenchannelResult)

inductive ClosingEvent where
  | configure (e : ConfigureEvent)
  /-- A channel is opened: the connection of the hook to the RPC, and whether `listdatastore` is an error. -/
  | openchannel (rpc : Option (Except String Unit))
  /-- A client's `Datastore` or `DelDatastore` for `glconf/request`, with what the entry is afterwards. -/
  | client (res : Except String (Option String))
  | restart

def ClosingEvent.stores : ClosingEvent → Bool
  | .configure e => e.stores
  | _ => false

/-- `listdatastore` gets a response. -/
def listed : Option (Except String Unit) → Bool
  | some (.ok _) => true
  | _ => false

namespace ClosingNode

variable {crates : Crates}

def new {bitcoin : Bitcoin} : ClosingNode bitcoin := ⟨.new, []⟩

def listdatastore {bitcoin : Bitcoin} (n : ClosingNode bitcoin) : List (Option String) :=
  n.configure.datastore.toList.map some

def openchannel (crates : Crates) (n : ClosingNode crates.bitcoin) (rpc : Option (Except String Unit)) :
    OpenchannelResult :=
  onOpenchannel crates (rpc.map fun res => res.map fun _ => n.listdatastore)

def restart {bitcoin : Bitcoin} (n : ClosingNode bitcoin) : ClosingNode bitcoin :=
  { n with configure := { ConfigureState.new with datastore := n.configure.datastore } }

def step (crates : Crates) (n : ClosingNode crates.bitcoin) :
    ClosingEvent → Option (ClosingNode crates.bitcoin)
  | .configure e => (n.configure.step crates e).map fun configure => { n with configure := configure }
  | .openchannel rpc => some { n with opened := n.opened ++ [(listed rpc, n.openchannel crates rpc)] }
  | .client res =>
    match res with
    | .error _ => some n
    | .ok entry => some { n with configure := { n.configure with datastore := entry } }
  | .restart => some n.restart

/-- What the hook has returned where the RPC has answered it. -/
def answered {bitcoin : Bitcoin} (n : ClosingNode bitcoin) : List OpenchannelResult :=
  (n.opened.filter (·.1)).map (·.2)

/-- The datastore stores no entry under a key that has one. -/
def MustCreate (n : ClosingNode crates.bitcoin) (e : ClosingEvent) : Prop :=
  e.stores → n.configure.datastore = none

/-- What a client's call leaves in the entry is what has been there. -/
def KeepsEntry (n : ClosingNode crates.bitcoin) (e : ClosingEvent) : Prop :=
  ∀ entry, e = .client (.ok entry) → entry = n.configure.datastore

/-- A call of `configure` that takes the first request of the context takes its own, with one message for a body. -/
def TakesOwn (n : ClosingNode crates.bitcoin) (e : ClosingEvent) : Prop :=
  ∀ id, e = .configure (.snapshot id) → ∃ req message, n.configure.service.rpcs id = some (.calling (some req)) ∧
    IsOneFrame req.payload message ∧ n.configure.service.ctx.snapshot.head? = some req

/-- **The node is configured.**  Its datastore has the one request that was stored in the run `es`, which sets the
address of `v`.  The hook has answered without an address before, and with this one since; and the request that is
attached for a signer is the same one, if any. -/
structure Configured (crates : Crates) (es : List ClosingEvent) (n : ClosingNode crates.bitcoin)
    (req : Context.Request) (v : Validated crates.bitcoin) : Prop where
  sets : Sets crates req v
  stored : n.configure.datastore = some (crates.json.toString req)
  once : es.countP ClosingEvent.stores = 1
  cached : ∀ serializedReq, n.configure.cached = some serializedReq → serializedReq = crates.json.toString req
  answered : ∃ before since, n.answered = List.replicate before (.continues none) ++
    List.replicate since (.continues (some v.glConfig.closeToAddr))

/-- No request has been stored, and no channel was given an address. -/
structure Unconfigured (es : List ClosingEvent) (n : ClosingNode crates.bitcoin) : Prop where
  stored : n.configure.datastore = none
  never : es.countP ClosingEvent.stores = 0
  cached : n.configure.cached = none
  answered : ∃ before, n.answered = List.replicate before (.continues none)

variable {n m : ClosingNode crates.bitcoin} {e : ClosingEvent} {es : List ClosingEvent}

inductive StepOutcome (n : ClosingNode crates.bitcoin) : ClosingEvent → ClosingNode crates.bitcoin → Prop where
  | configure {e : ConfigureEvent} {configure : ConfigureState crates.bitcoin}
      (hs : n.configure.step crates e = some configure) :
      StepOutcome n (.configure e) { n with configure := configure }
  | openchannel (rpc : Option (Except String Unit)) :
      StepOutcome n (.openchannel rpc) { n with opened := n.opened ++ [(listed rpc, n.openchannel crates rpc)] }
  | client (res : Except String (Option String)) (hkeep : n.KeepsEntry (.client res)) : StepOutcome n (.client res) n
  | restart : StepOutcome n .restart n.restart

theorem step_outcome (hkeep : n.KeepsEntry e) (h : n.step crates e = some m) : StepOutcome n e m := by
  cases e with
  | configure e =>
    obtain ⟨configure, hs, rfl⟩ := Option.map_eq_some_iff.1 h
    exact .configure hs
  | openchannel rpc =>
    cases h
    exact .openchannel rpc
  | client res =>
    have hsame : m = n := by
      cases res with
      | error e => exact (Option.some.inj h).symm
      | ok entry =>
        obtain rfl := hkeep entry rfl
        exact (Option.some.inj h).symm
    subst hsame
    exact .client res hkeep
  | restart =>
    cases h
    exact .restart

/-- The calls of `configure` that run: where they are, and what they are about to store. -/
structure Calls (n : ClosingNode crates.bitcoin) : Prop where
  locked : n.configure.Locked
  entered : n.configure.Entered
  taken : n.configure.Taken

theorem calls_restart (n : ClosingNode crates.bitcoin) : n.restart.Calls where
  locked := ⟨fun _ _ hid => (by cases hid), fun _ _ _ hid => (by cases hid)⟩
  entered _ _ _ hid := by cases hid
  taken _ _ _ hid := by cases hid

theorem calls_step (hunary : crates.UnaryReadsFrame) (hcalls : n.Calls) (hkeep : n.KeepsEntry e)
    (hown : n.TakesOwn e) (h : n.step crates e = some m) : m.Calls := by
  cases step_outcome hkeep h with
  | configure hs =>
    exact ⟨ConfigureState.locked_step hcalls.locked hs, ConfigureState.entered_step hcalls.entered hs,
      ConfigureState.taken_step hunary hcalls.entered hcalls.taken (fun id he => hown id (congrArg _ he)) hs⟩
  | openchannel rpc => exact ⟨hcalls.locked, hcalls.entered, hcalls.taken⟩
  | client => exact hcalls
  | restart => exact calls_restart n

@[simp] theorem answered_configure (n : ClosingNode crates.bitcoin) (configure : ConfigureState crates.bitcoin) :
    answered { n with configure := configure } = n.answered := rfl

theorem answered_openchannel (n : ClosingNode crates.bitcoin) (rpc : Option (Except String Unit)) :
    answered { n with opened := n.opened ++ [(listed rpc, n.openchannel crates rpc)] } =
      if listed rpc then n.answered ++ [onOpenchannel crates (some (.ok n.listdatastore))] else n.answered := by
  match rpc with
  | none => simp [answered, listed]
  | some (.error e) => simp [answered, listed]
  | some (.ok u) => simp [answered, listed, openchannel, Except.map]

theorem unconfigured_step (hcalls : n.Calls) (hn : n.Unconfigured es) (hkeep : n.KeepsEntry e)
    (h : n.step crates e = some m) :
    Unconfigured (es ++ [e]) m ∨ ∃ req v, Configured crates (es ++ [e]) m req v := by
  obtain ⟨before, hanswered⟩ := hn.answered
  cases step_outcome hkeep h with
  | @configure e configure hs =>
    cases ConfigureState.entry_outcome hcalls.locked hs with
    | stored id v serializedReq he hid hdatastore hcached =>
      -- the one call that is stored has taken its own request
      obtain ⟨req, rfl, hsets⟩ := hcalls.taken id v serializedReq hid
      refine Or.inr ⟨req, v, hsets, hdatastore, ?_, fun s hs => ?_, before, 0, by simpa using hanswered⟩
      · simp [List.countP_append, hn.never, ClosingEvent.stores, he]
      · rw [hcached, hn.cached] at hs
        cases hs
    | kept he hdatastore hcached =>
      refine Or.inl ⟨hdatastore.trans hn.stored, ?_, ?_, before, hanswered⟩
      · simp [List.countP_append, hn.never, ClosingEvent.stores, he]
      · simpa [hn.cached, hn.stored] using hcached
  | openchannel rpc =>
    refine Or.inl ⟨hn.stored, by simp [List.countP_append, hn.never, ClosingEvent.stores], hn.cached, ?_⟩
    have hlist : n.listdatastore = [] := by simp [listdatastore, hn.stored]
    rw [answered_openchannel, hlist, hanswered]
    split
    · exact ⟨before + 1, by rw [List.replicate_succ', onOpenchannel]⟩
    · exact ⟨before, rfl⟩
  | client =>
    exact Or.inl ⟨hn.stored, by simp [List.countP_append, hn.never, ClosingEvent.stores], hn.cached, hn.answered⟩
  | restart =>
    exact Or.inl ⟨hn.stored, by simp [List.countP_append, hn.never, ClosingEvent.stores], rfl, before, hanswered⟩

theorem configured_step (hjson : crates.json.RoundTrip) {req : Context.Request} {v : Validated crates.bitcoin}
    (hcalls : n.Calls) (hn : Configured crates es n req v) (hcreate : n.MustCreate e) (hkeep : n.KeepsEntry e)
    (h : n.step crates e = some m) : Configured crates (es ++ [e]) m req v := by
  obtain ⟨before, since, hanswered⟩ := hn.answered
  have hsome : n.configure.datastore ≠ none := by simp [hn.stored]
  have honce : (es ++ [e]).countP ClosingEvent.stores = 1 := by
    have he : ¬ e.stores := fun he => hsome (hcreate he)
    simp [List.countP_append, hn.once, he]
  cases step_outcome hkeep h with
  | @configure e configure hs =>
    cases ConfigureState.entry_outcome hcalls.locked hs with
    | stored id v serializedReq he hid hdatastore hcached => exact absurd (hcreate he) hsome
    | kept he hdatastore hcached =>
      refine ⟨hn.sets, hdatastore.trans hn.stored, honce, fun s hs => ?_, before, since, hanswered⟩
      -- what is new in the cache is the entry of the datastore
      have hcache : configure.cached = some s := hs
      rcases hcached with hcached | hcached | hcached
      · exact hn.cached s (hcached ▸ hcache)
      · simpa [hcache, hn.stored] using hcached
      · simpa [hcache, hn.stored] using hcached
  | openchannel rpc =>
    refine ⟨hn.sets, hn.stored, honce, hn.cached, ?_⟩
    have hlist : n.listdatastore = [some (crates.json.toString req)] := by simp [listdatastore, hn.stored]
    rw [answered_openchannel, hlist, hanswered, hn.sets.onOpenchannel hjson]
    split
    · exact ⟨before, since + 1, by rw [List.replicate_succ', List.append_assoc]⟩
    · exact ⟨before, since, rfl⟩
  | client => exact ⟨hn.sets, hn.stored, honce, hn.cached, hn.answered⟩
  | restart => exact ⟨hn.sets, hn.stored, honce, fun s hs => (by cases hs), before, since, hanswered⟩

/-- **The node is configured once.**  In a run in which the datastore replaces no entry, no client changes the entry
and each call of `configure` takes its own request, over any restarts, either nothing is stored and every channel has
been opened without an address, or one call has been stored, whose address has passed its checks: it is the address of
each channel that has been opened since and of each one to come, and a signer that accepts the attached request reads
this address from it. -/
theorem configured_of_run (hjson : crates.json.RoundTrip) (hunary : crates.UnaryReadsFrame)
    (hr : Run (step crates) new es n) (hcreate : AllSteps (step crates) MustCreate new es)
    (hkeep : AllSteps (step crates) KeepsEntry new es) (hown : AllSteps (step crates) TakesOwn new es) :
    Unconfigured es n ∨ ∃ req v, Configured crates es n req v ∧
      n.openchannel crates (some (.ok ())) = .continues (some v.glConfig.closeToAddr) ∧
      ∀ (signer : Signer) (now : ℤ), signer.Accepts now req.toPendingRequest →
        signer.Derives crates.prost now req.toPendingRequest (.glConfig v.glConfig) := by
  have hrun : n.Calls ∧ (Unconfigured es n ∨ ∃ req v, Configured crates es n req v) := by
    refine Run.induction (motive := fun es n => AllSteps (step crates) MustCreate new es →
      AllSteps (step crates) KeepsEntry new es → AllSteps (step crates) TakesOwn new es →
      n.Calls ∧ (Unconfigured es n ∨ ∃ req v, Configured crates es n req v)) hr ?_ ?_ hcreate hkeep hown
    · intro _ _ _
      exact ⟨calls_restart new, Or.inl ⟨rfl, rfl, rfl, 0, rfl⟩⟩
    · intro es n e m hr ih hstep hcreate hkeep hown
      rw [allSteps_concat hr] at hcreate hkeep hown
      obtain ⟨hcalls, hn⟩ := ih hcreate.1 hkeep.1 hown.1
      -- the calls in flight are kept track of whether the node is configured or not
      refine ⟨calls_step hunary hcalls hkeep.2 hown.2 hstep, ?_⟩
      rcases hn with hn | ⟨req, v, hn⟩
      · exact unconfigured_step hcalls hn hkeep.2 hstep
      · exact Or.inr ⟨req, v, configured_step hjson hcalls hn hcreate.2 hkeep.2 hstep⟩
  refine hrun.2.imp_right fun ⟨req, v, hn⟩ => ⟨req, v, hn, ?_, fun signer now => hn.sets.derives⟩
  have hlist : n.listdatastore = [some (crates.json.toString req)] := by simp [listdatastore, hn.stored]
  show onOpenchannel crates (some (.ok n.listdatastore)) = _
  rw [hlist, hn.sets.onOpenchannel hjson]

/-- A channel is opened while `configure` runs, and others after it and after a restart. -/
def beforeSnapshot : List ClosingEvent :=
  [.configure (.service (.call 0 ConfigureState.configureCall)), .configure (.service (.buffer 0)),
    .configure (.service (.add 0)), .configure (.enter 0 ⟨"addr"⟩), .configure (.lockRpc 0),
    .configure (.getinfo 0 (.ok "regtest"))]

/-- A client fails to delete the entry, of a generation that it does not have. -/
def afterDatastore : List ClosingEvent :=
  [.client (.error "generation is different"), .openchannel (some (.ok ())), .restart, .openchannel none,
    .configure .restore, .openchannel (some (.ok ()))]

def beforeDatastore : List ClosingEvent :=
  beforeSnapshot ++ [.configure (.snapshot 0), .openchannel (some (.ok ()))]

def closingRun : List ClosingEvent := beforeDatastore ++ .configure (.datastore 0 (.ok ())) :: afterDatastore

theorem configured_of_run_restart : ∃ (n : ClosingNode Crates.plain.bitcoin) (req : Context.Request)
    (v : Validated Crates.plain.bitcoin), Run (step Crates.plain) new closingRun n ∧
    Configured Crates.plain closingRun n req v := by
  have hcreate : AllSteps (step Crates.plain) MustCreate new closingRun := by
    have hes : ∀ f ∈ beforeDatastore, f.stores = false := by decide
    have hfs : ∀ f ∈ afterDatastore, f.stores = false := by decide
    have hr : ∃ t : ClosingNode Crates.plain.bitcoin, Run (step Crates.plain) new beforeDatastore t ∧
        t.configure.datastore = none := ⟨_, rfl, rfl⟩
    obtain ⟨t, hr, hnone⟩ := hr
    exact allSteps_of_single hr (fun _ => hnone) (fun f hf s hs => by simp [hes f hf] at hs)
      (fun f hf s hs => by simp [hfs f hf] at hs)
  -- no other call is in the context when the snapshot is taken
  have hown : AllSteps (step Crates.plain) TakesOwn new closingRun := by
    have hr : ∃ t : ClosingNode Crates.plain.bitcoin, Run (step Crates.plain) new beforeSnapshot t ∧
        t.configure.service.rpcs 0 = some (.calling (some ConfigureState.configureRequest)) ∧
        t.configure.service.ctx.snapshot.head? = some ConfigureState.configureRequest := ⟨_, rfl, rfl, rfl⟩
    obtain ⟨t, hr, hrpc, hhead⟩ := hr
    have hrun : closingRun = beforeSnapshot ++ .configure (.snapshot 0) :: (.openchannel (some (.ok ())) ::
        .configure (.datastore 0 (.ok ())) :: afterDatastore) := rfl
    rw [hrun]
    refine allSteps_of_single hr ?_ ?_ ?_
    · intro id he
      obtain rfl : 0 = id := by simpa using he
      exact ⟨_, [0x0a, 4] ++ utf8 "addr", hrpc, ⟨0, 0, 0, 6, rfl, rfl⟩, hhead⟩
    · simp [beforeSnapshot, TakesOwn]
    · simp [afterDatastore, TakesOwn]
  have hkeep : AllSteps (step Crates.plain) KeepsEntry new closingRun :=
    allSteps_of_forall fun e he n entry hentry => by
      subst hentry
      simp [closingRun, beforeDatastore, beforeSnapshot, afterDatastore] at he
  have hr : ∃ n : ClosingNode Crates.plain.bitcoin, Run (step Crates.plain) new closingRun n ∧
      n.configure.datastore ≠ none := ⟨_, rfl, by simp [restart]⟩
  obtain ⟨n, hr, hsome⟩ := hr
  rcases configured_of_run Crates.roundTrip_plain Crates.unaryReadsFrame_plain hr hcreate hkeep hown with
    hn | ⟨req, v, hn, -⟩
  · exact absurd hn.stored hsome
  · exact ⟨n, req, v, hr, hn⟩

/-- A client deletes the entry, and the node is configured again. -/
example :
    let es := beforeDatastore ++ [.configure (.datastore 0 (.ok ())), .configure (.cache 0), .client (.ok none)] ++
      (ConfigureState.configureCalled 1 ++ ConfigureState.configureStored 1).map .configure
    (es.foldlM (step Crates.plain) new).isSome ∧ es.countP ClosingEvent.stores = 2 := ⟨rfl, rfl⟩

end ClosingNode

end Greenlight.Plugin
