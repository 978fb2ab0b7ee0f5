import Greenlight.Lib.Transition
import Greenlight.Persist.Nodes

/-!
# Channel records

The channels of all nodes stand in one table of the state, under the hex of a `NodeChannelId`.  `get_node_channels`
picks those of a node by the text their keys begin with and takes the id of the channel from the rest.  In every
state that the calls of the handlers lead to, the keys of the table are such ids and their values are channel entries
(`ChannelsKept`), so the listing does not panic and is what the single entries say
(`State.ChannelsKept.getNodeChannels`).
-/

namespace Greenlight.Persist

open Greenlight.Lib

/-- A public key as `PublicKey::serialize` gives it. -/
abbrev NodeId := { b : Bytes // b.length = 33 }

/-- `vls_persist::model::ChannelEntry`. -/
structure ChannelEntry (ChannelSetup EnforcementState : Type) where
  channelValueSatoshis : UInt64
  channelSetup : Option ChannelSetup
  id : Option Bytes
  enforcementState : EnforcementState
  blockheight : Option UInt32
  deriving DecidableEq

/-- What the persister of channels uses of VLS: the setup of a channel with its value, the enforcement state, an
entry as a `serde_json` value and back, the entry of the core that it stands for (`into`), and the two functions of
`NodeChannelId`. -/
structure ChannelModel (Value : Type) where
  ChannelSetup : Type
  EnforcementState : Type
  CoreChannelEntry : Type
  channelValueSat : ChannelSetup → UInt64
  newEnforcementState : UInt64 → EnforcementState
  toValue : ChannelEntry ChannelSetup EnforcementState → Value
  fromValue : Value → Option (ChannelEntry ChannelSetup EnforcementState)
  into : ChannelEntry ChannelSetup EnforcementState → CoreChannelEntry
  nodeChannelId : Bytes → Bytes → Bytes
  channelId : Bytes → Bytes

structure ChannelStub where
  id0 : Bytes
  blockheight : UInt32
  deriving DecidableEq, Repr

namespace ChannelModel

variable {Value : Type}

structure Channel (M : ChannelModel Value) where
  id0 : Bytes
  id : Option Bytes
  setup : M.ChannelSetup
  enforcementState : M.EnforcementState

abbrev Entry (M : ChannelModel Value) := ChannelEntry M.ChannelSetup M.EnforcementState

variable (M : ChannelModel Value)

/-- The entry that `new_channel` stores. -/
def stubEntry (stub : ChannelStub) : M.Entry where
  channelValueSatoshis := 0
  channelSetup := none
  id := none
  enforcementState := M.newEnforcementState 0
  blockheight := some stub.blockheight

/-- The entry that `update_channel` stores. -/
def channelEntry (channel : M.Channel) : M.Entry where
  channelValueSatoshis := M.channelValueSat channel.setup
  channelSetup := some channel.setup
  id := channel.id
  enforcementState := channel.enforcementState
  blockheight := none

def channelKey (nodeId : NodeId) (channelId : Bytes) : String :=
  "channels/" ++ hexEncode (M.nodeChannelId nodeId.1 channelId)

/-- A `NodeChannelId` is the node id followed by the channel id. -/
def Layout : Prop :=
  ∀ (nodeId : NodeId) (channelId : Bytes), M.nodeChannelId nodeId.1 channelId = nodeId.1 ++ channelId ∧
    M.channelId (nodeId.1 ++ channelId) = channelId

def RoundTrip : Prop := ∀ entry : M.Entry, M.fromValue (M.toValue entry) = some entry

end ChannelModel

/-- Entries that are stored as they are, next to values of other kinds. -/
def plainChannels : ChannelModel (Option (ChannelEntry Unit Unit)) where
  ChannelSetup := Unit
  EnforcementState := Unit
  CoreChannelEntry := ChannelEntry Unit Unit
  channelValueSat _ := 0
  newEnforcementState _ := ()
  toValue := some
  fromValue := id
  into := id
  nodeChannelId := (· ++ ·)
  channelId := List.drop 33

theorem layout_plainChannels : plainChannels.Layout := fun n _ => ⟨rfl, List.drop_left' n.2⟩

theorem roundTrip_plainChannels : plainChannels.RoundTrip := fun _ => rfl

def plainNode (byte : UInt8) : NodeId := ⟨List.replicate 32 2 ++ [byte], rfl⟩

namespace State

variable {Value : Type}

def getChannel (M : ChannelModel Value) (s : State Value) (key : String) : Option M.CoreChannelEntry := do
  let value ← s.get? ("channels/" ++ key)
  let entry ← M.fromValue value.2
  return M.into entry

/-- `get_node_channels`.  The `split` is never empty; the `unwrap`s are those of the hex and of the entry. -/
def getNodeChannels (M : ChannelModel Value) (s : State Value) (nodeId : Bytes) :
    Option (List (Bytes × M.CoreChannelEntry)) :=
  (s.values.toList.filter fun p => startsWith p.1 ("channels/" ++ hexEncode nodeId)).mapM fun (k, v) => do
    let key ← hexDecode ((split k '/').getLastD "")
    let value ← M.fromValue v.2
    return (M.channelId key, M.into value)

end State

/-- The calls of `Persist` that change the state, as the handlers make them.  The entries of nodes, trackers and
allowlists are given as they are stored. -/
inductive PersistCall {Value : Type} (M : ChannelModel Value) where
  | newNode (nodeId : NodeId) (nodeEntry nodeStateEntry : Value)
  | updateNode (nodeId : NodeId) (nodeStateEntry : Value)
  | deleteNode (nodeId : NodeId)
  | newChannel (nodeId : NodeId) (stub : ChannelStub)
  | updateChannel (nodeId : NodeId) (channel : M.Channel)
  | deleteChannel (nodeId : NodeId) (channelId : Bytes)
  | newTracker (nodeId : NodeId) (tracker : Value)
  | updateTracker (nodeId : NodeId) (tracker : Value)
  | updateNodeAllowlist (nodeId : NodeId) (allowlist : Value)
  | clearDatabase

namespace PersistCall

variable {Value : Type} {M : ChannelModel Value}

/-- The operation on the state that a call comes to. -/
def toOp : PersistCall M → PersistOp Value
  | newNode nodeId nodeEntry nodeStateEntry => .newNode nodeId.1 nodeEntry nodeStateEntry
  | updateNode nodeId nodeStateEntry => .updateNode nodeId.1 nodeStateEntry
  | deleteNode nodeId => .deleteNode nodeId.1
  | newChannel nodeId stub => .newChannel nodeId.1 stub.id0 (M.toValue (M.stubEntry stub))
  | updateChannel nodeId channel => .updateChannel nodeId.1 channel.id0 (M.toValue (M.channelEntry channel))
  | deleteChannel nodeId channelId => .deleteChannel nodeId.1 channelId
  | newTracker nodeId tracker => .newTracker nodeId.1 tracker
  | updateTracker nodeId tracker => .updateTracker nodeId.1 tracker
  | updateNodeAllowlist nodeId allowlist => .updateNodeAllowlist nodeId.1 allowlist
  | clearDatabase => .clearDatabase

/-- One call; a `none` is a panic. -/
def step (s : State Value) (call : PersistCall M) : Option (State Value) := call.toOp.apply M.nodeChannelId s

def node? : PersistCall M → Option NodeId
  | newNode nodeId _ _ | updateNode nodeId _ | deleteNode nodeId | newChannel nodeId _ | updateChannel nodeId _
  | deleteChannel nodeId _ | newTracker nodeId _ | updateTracker nodeId _ | updateNodeAllowlist nodeId _ => some nodeId
  | clearDatabase => none

/-- The entry a call stores for a channel. -/
def entryFor (nodeId : NodeId) (channelId : Bytes) : PersistCall M → Option M.Entry
  | newChannel nodeId' stub => if nodeId' = nodeId ∧ stub.id0 = channelId then some (M.stubEntry stub) else none
  | updateChannel nodeId' channel =>
    if nodeId' = nodeId ∧ channel.id0 = channelId then some (M.channelEntry channel) else none
  | _ => none

end PersistCall

/-- The keys an operation writes or removes; `clear_database` is left out. -/
def PersistOp.touched {Value : Type} (nodeChannelId : Bytes → Bytes → Bytes) : PersistOp Value → List String
  | newNode nodeId _ _ | deleteNode nodeId => ["nodes/" ++ hexEncode nodeId, "nodestates/" ++ hexEncode nodeId]
  | updateNode nodeId _ => ["nodestates/" ++ hexEncode nodeId]
  | newChannel nodeId channelId _ | updateChannel nodeId channelId _ =>
    ["channels/" ++ hexEncode (nodeChannelId nodeId channelId)]
  | deleteChannel nodeId channelId => [hexEncode (nodeChannelId nodeId channelId)]
  | newTracker nodeId _ | updateTracker nodeId _ => ["trackers/" ++ hexEncode nodeId]
  | updateNodeAllowlist nodeId _ => ["allowlists/" ++ hexEncode nodeId]
  | clearDatabase => []

/-- **Everything else is unchanged**: an operation leaves the entries of the keys it does not touch. -/
theorem PersistOp.get?_of_not_touched {Value : Type} {nodeChannelId : Bytes → Bytes → Bytes} {op : PersistOp Value}
    {s s' : State Value} {k : String} (h : op.apply nodeChannelId s = some s') (hclear : op ≠ .clearDatabase)
    (hk : k ∉ op.touched nodeChannelId) : s'.get? k = s.get? k := by
  cases op with
  | newNode nodeId nodeEntry nodeStateEntry =>
    simp only [apply, State.insertNode] at h
    split_ifs at h
    obtain rfl := Option.some.inj h
    simp only [touched, List.mem_cons, List.not_mem_nil, or_false, not_or] at hk
    rw [State.get?_insert_of_ne _ _ (Ne.symm hk.2), State.get?_insert_of_ne _ _ (Ne.symm hk.1)]
  | updateNode nodeId nodeStateEntry =>
    rw [State.get?_bump h, if_neg (by simpa [touched] using hk)]
  | deleteNode nodeId =>
    obtain rfl := Option.some.inj h
    simp only [touched, List.mem_cons, List.not_mem_nil, or_false, not_or] at hk
    rw [State.deleteNode, State.get?_remove, if_neg (Ne.symm hk.2), State.get?_remove, if_neg (Ne.symm hk.1)]
  | newChannel nodeId channelId channelEntry =>
    simp only [apply, State.insertChannel] at h
    split_ifs at h
    obtain rfl := Option.some.inj h
    exact State.get?_insert_of_ne _ _ (Ne.symm (by simpa [touched] using hk))
  | updateChannel nodeId channelId channelEntry =>
    rw [State.get?_bump h, if_neg (by simpa [touched] using hk)]
  | deleteChannel nodeId channelId =>
    obtain rfl := Option.some.inj h
    rw [State.deleteChannel, State.get?_remove, if_neg (Ne.symm (by simpa [touched] using hk))]
  | newTracker nodeId tracker =>
    simp only [apply, State.newChainTracker] at h
    split_ifs at h
    obtain rfl := Option.some.inj h
    exact State.get?_insert_of_ne _ _ (Ne.symm (by simpa [touched] using hk))
  | updateTracker nodeId tracker =>
    rw [State.get?_bump h, if_neg (by simpa [touched] using hk)]
  | updateNodeAllowlist nodeId allowlist =>
    obtain rfl := Option.some.inj h
    rw [State.get?_updateNodeAllowlist, if_neg (by simpa [touched] using hk)]
  | clearDatabase => exact absurd rfl hclear

/-! ### The keys of channels -/

section

variable {Value : Type} {M : ChannelModel Value}

theorem ChannelModel.channelKey_eq (hM : M.Layout) (nodeId : NodeId) (channelId : Bytes) :
    M.channelKey nodeId channelId = "channels/" ++ hexEncode (nodeId.1 ++ channelId) := by
  rw [channelKey, (hM nodeId channelId).1]

/-- Two channels have two keys, also channels of two nodes: a node id has one length. -/
theorem ChannelModel.channelKey_inj (hM : M.Layout) {n n' : NodeId} {c c' : Bytes} :
    M.channelKey n c = M.channelKey n' c' ↔ n = n' ∧ c = c' := by
  constructor
  · intro h
    rw [channelKey_eq hM, channelKey_eq hM] at h
    have hbytes : n.1 ++ c = n'.1 ++ c' := hexEncode_injective (by simpa [String.ext_iff] using h)
    obtain ⟨hn, hc⟩ := List.append_inj hbytes (n.2.trans n'.2.symm)
    exact ⟨Subtype.ext hn, hc⟩
  · rintro ⟨rfl, rfl⟩
    rfl

theorem ChannelModel.startsWith_channelKey (hM : M.Layout) {n n' : NodeId} {c : Bytes} :
    startsWith (M.channelKey n c) ("channels/" ++ hexEncode n'.1) ↔ n = n' := by
  rw [channelKey_eq hM, startsWith_hexEncode_iff (n.2.trans n'.2.symm), Subtype.ext_iff]

theorem ChannelModel.getLastD_split_channelKey (n : NodeId) (c : Bytes) :
    (split (M.channelKey n c) '/').getLastD "" = hexEncode (M.nodeChannelId n.1 c) := by
  have hhex : '/' ∉ (hexEncode (M.nodeChannelId n.1 c)).toList := fun h =>
    absurd (hexEncode_isAlphanum _ '/' h) (by decide)
  have hkey : M.channelKey n c = "channels" ++ ("/" ++ hexEncode (M.nodeChannelId n.1 c)) := by
    simp [channelKey, String.ext_iff]
  rw [hkey, split_append (t := hexEncode (M.nodeChannelId n.1 c)) (by simp) (by decide), split_eq_singleton hhex]
  rfl

theorem startsWith_of_startsWith {k table rest : String} (h : startsWith k (table ++ rest)) : startsWith k table := by
  rw [startsWith, decide_eq_true_iff] at h ⊢
  rw [String.toList_append] at h
  exact (List.prefix_append _ _).trans h

end

/-- **What a call does to a channel**: it stores the entry that it has for it, under the next version, and without
one it leaves the channel alone.  That goes for `delete_channel`, whose key has no `channels/`. -/
theorem PersistCall.get?_channelKey {Value : Type} {M : ChannelModel Value} (hM : M.Layout) {call : PersistCall M}
    {s s' : State Value} (h : call.step s = some s') (hclear : call ≠ .clearDatabase) (n : NodeId) (c : Bytes) :
    s'.get? (M.channelKey n c) =
      match call.entryFor n c with
      | some entry => some (State.nextVersion (s.get? (M.channelKey n c)), M.toValue entry)
      | none => s.get? (M.channelKey n c) := by
  have hframe : M.channelKey n c ∉ call.toOp.touched M.nodeChannelId →
      s'.get? (M.channelKey n c) = s.get? (M.channelKey n c) := by
    refine PersistOp.get?_of_not_touched h ?_
    cases call <;> simp [PersistCall.toOp] at hclear ⊢
  have hother : ∀ n' c', ¬ (n' = n ∧ c' = c) → M.channelKey n c ∉ [M.channelKey n' c'] := by
    intro n' c' hne hmem
    obtain ⟨rfl, rfl⟩ := (ChannelModel.channelKey_inj hM).1 (List.mem_singleton.1 hmem)
    exact hne ⟨rfl, rfl⟩
  cases call with
  | newChannel n' stub =>
    by_cases hkey : n' = n ∧ stub.id0 = c
    · obtain ⟨rfl, rfl⟩ := hkey
      simp only [step, toOp, PersistOp.apply, State.insertChannel] at h
      split_ifs at h with hnone
      obtain rfl := Option.some.inj h
      have hold : s.get? (M.channelKey n' stub.id0) = none := Option.not_isSome_iff_eq_none.1 hnone
      rw [hold, entryFor, if_pos ⟨rfl, rfl⟩]
      exact State.get?_insert_self _ _ _
    · rw [entryFor, if_neg hkey]
      exact hframe (hother n' stub.id0 hkey)
  | updateChannel n' channel =>
    by_cases hkey : n' = n ∧ channel.id0 = c
    · obtain ⟨rfl, rfl⟩ := hkey
      simp only [step, toOp, PersistOp.apply, State.updateChannel] at h
      rw [State.get?_bump h, ChannelModel.channelKey, if_pos rfl, entryFor, if_pos ⟨rfl, rfl⟩]
    · rw [entryFor, if_neg hkey]
      exact hframe (hother n' channel.id0 hkey)
  | deleteChannel n' c' =>
    refine hframe ?_
    simp only [toOp, PersistOp.touched, List.mem_singleton]
    intro heq
    -- an id in hex has no slash, so it is no key of a channel
    have hslash : '/' ∈ (hexEncode (M.nodeChannelId n'.1 c')).toList := by
      rw [← heq]
      simp [ChannelModel.channelKey]
    exact absurd (hexEncode_isAlphanum _ '/' hslash) (by decide)
  | clearDatabase => exact absurd rfl hclear
  | newNode | updateNode | deleteNode | newTracker | updateTracker | updateNodeAllowlist =>
    refine hframe ?_
    simp [toOp, PersistOp.touched, ChannelModel.channelKey, String.ext_iff]

/-! ### The table of channels -/

/-- **The invariant of the table**: a key in it is that of a channel, and its value is an entry of a channel. -/
structure State.ChannelsKept {Value : Type} (M : ChannelModel Value) (s : State Value) : Prop where
  keys : ∀ k, (s.get? k).isSome → startsWith k "channels/" → ∃ n c, k = M.channelKey n c
  values : ∀ n c v, s.get? (M.channelKey n c) = some v → ∃ entry, v.2 = M.toValue entry

/-- The states signers reach by the calls of their handlers and by merges. -/
inductive ReachableBy {Value : Type} (M : ChannelModel Value) : State Value → Prop
  | new : ReachableBy M .new
  | call {s s' : State Value} (call : PersistCall M) :
      ReachableBy M s → call.step s = some s' → ReachableBy M s'
  | merge {s other : State Value} :
      ReachableBy M s → ReachableBy M other → ReachableBy M (s.merge other).1

section

variable {Value : Type} {M : ChannelModel Value} {s s' other : State Value}

theorem isSome_newChannel_iff (s : State Value) (n : NodeId) (stub : ChannelStub) :
    (PersistCall.step s (.newChannel (M := M) n stub)).isSome ↔ s.get? (M.channelKey n stub.id0) = none := by
  simp only [PersistCall.step, PersistCall.toOp, PersistOp.apply, State.insertChannel]
  rw [← ChannelModel.channelKey]
  split_ifs with h
  · exact iff_of_false (by simp) fun hnone => by simp [hnone] at h
  · exact iff_of_true rfl (Option.not_isSome_iff_eq_none.1 h)

theorem ReachableBy.reachable (h : ReachableBy M s) : Reachable M.nodeChannelId s := by
  induction h with
  | new => exact .new
  | call call _ hstep ih => exact .persist call.toOp ih hstep
  | merge _ _ ih ihother => exact .merge ih ihother

theorem channelsKept_new : (State.new : State Value).ChannelsKept M where
  keys k h := by simp at h
  values n c v h := by simp at h

theorem channelsKept_step (hM : M.Layout) {call : PersistCall M} (hs : s.ChannelsKept M)
    (h : call.step s = some s') : s'.ChannelsKept M := by
  by_cases hclear : call = .clearDatabase
  · subst hclear
    obtain rfl := Option.some.inj h
    exact channelsKept_new
  refine ⟨fun k hk hstarts => ?_, fun n c v hv => ?_⟩
  -- a new key under `channels/` comes from `new_channel` alone
  · rcases (PersistOp.isSome_get?_apply h k).1 hk with hmem | ⟨hold, -⟩
    · cases call <;> simp only [PersistCall.toOp, PersistOp.inserted, List.mem_cons, List.not_mem_nil, or_false]
        at hmem
      case newChannel n stub => exact ⟨n, stub.id0, hmem⟩
      case newNode =>
        rcases hmem with rfl | rfl
        · simp [startsWith] at hstarts
        · simp [startsWith] at hstarts
      case newTracker =>
        subst hmem
        simp [startsWith] at hstarts
      case updateNodeAllowlist =>
        subst hmem
        simp [startsWith] at hstarts
    · exact hs.keys k hold hstarts
  · rw [PersistCall.get?_channelKey hM h hclear] at hv
    split at hv
    · rename_i entry _
      obtain rfl := Option.some.inj hv
      exact ⟨entry, rfl⟩
    · exact hs.values n c v hv

theorem channelsKept_merge (hs : s.ChannelsKept M) (hother : other.ChannelsKept M) :
    (s.merge other).1.ChannelsKept M := by
  refine ⟨fun k hk hstarts => ?_, fun n c v hv => ?_⟩
  · rcases (State.isSome_get?_merge k).1 hk with h | h
    · exact hs.keys k h hstarts
    · exact hother.keys k h hstarts
  · rw [State.get?_merge] at hv
    rcases Versioned.join_eq_or (s.get? (M.channelKey n c)) (other.get? (M.channelKey n c)) with h | h
    · exact hs.values n c v (h ▸ hv)
    · exact hother.values n c v (h ▸ hv)

theorem channelsKept_of_reachable (hM : M.Layout) (h : ReachableBy M s) : s.ChannelsKept M := by
  induction h with
  | new => exact channelsKept_new
  | call call _ hstep ih => exact channelsKept_step hM ih hstep
  | merge _ _ ih ihother => exact channelsKept_merge ih ihother

/-! ### Listing the channels of a node -/

theorem State.toList_sorted (s : State Value) : s.values.toList.Pairwise fun a b => compare a.1 b.1 = .lt :=
  Std.ExtTreeMap.ordered_keys_toList

theorem State.ChannelsKept.listed (hM : M.Layout) (hjson : M.RoundTrip) (hs : s.ChannelsKept M) {n : NodeId}
    {p : String × UInt64 × Value} (hp : p ∈ s.values.toList)
    (hstarts : startsWith p.1 ("channels/" ++ hexEncode n.1)) :
    ∃ c entry, p.1 = M.channelKey n c ∧ p.2.2 = M.toValue entry ∧
      (do
        let key ← hexDecode ((split p.1 '/').getLastD "")
        let value ← M.fromValue p.2.2
        return (M.channelId key, M.into value)) = some (c, M.into entry) := by
  have hget : s.get? p.1 = some p.2 := State.mem_toList.1 hp
  obtain ⟨n', c, hkey⟩ := hs.keys p.1 (by simp [hget]) (startsWith_of_startsWith hstarts)
  have hnode : n' = n := (ChannelModel.startsWith_channelKey hM).1 (hkey ▸ hstarts)
  subst hnode
  obtain ⟨entry, hentry⟩ := hs.values n' c p.2 (hkey ▸ hget)
  refine ⟨c, entry, hkey, hentry, ?_⟩
  rw [hkey, hentry, ChannelModel.getLastD_split_channelKey, hexDecode_hexEncode, (hM n' c).1, hjson]
  simp [(hM n' c).2]

/-- **The listing of a node is its part of the table**: one element for each channel of the node that has an entry,
with the id of the channel and the entry, in the order of the keys. -/
theorem State.ChannelsKept.getNodeChannels (hM : M.Layout) (hjson : M.RoundTrip) (hs : s.ChannelsKept M)
    (n : NodeId) :
    ∃ l, s.getNodeChannels M n.1 = some l ∧
      l.Pairwise (fun p q => compare (M.channelKey n p.1) (M.channelKey n q.1) = .lt) ∧
      ∀ c e, (c, e) ∈ l ↔ ∃ version entry, s.get? (M.channelKey n c) = some (version, M.toValue entry) ∧
        e = M.into entry := by
  have hmem : ∀ p ∈ s.values.toList.filter (fun p => startsWith p.1 ("channels/" ++ hexEncode n.1)),
      p ∈ s.values.toList ∧ startsWith p.1 ("channels/" ++ hexEncode n.1) := fun p hp => List.mem_filter.1 hp
  obtain ⟨l, hl⟩ : ∃ l, s.getNodeChannels M n.1 = some l := by
    rw [← Option.isSome_iff_exists, State.getNodeChannels, isSome_mapM_iff]
    intro p hp
    obtain ⟨c, entry, -, -, heq⟩ := hs.listed hM hjson (hmem p hp).1 (hmem p hp).2
    exact Option.isSome_of_eq_some heq
  refine ⟨l, hl, ?_, fun c e => ?_⟩
  -- the list is in the order of the keys that its entries stand under
  · have hkeys : l.map (fun q => M.channelKey n q.1) = (s.values.toList.filter
        (fun p => startsWith p.1 ("channels/" ++ hexEncode n.1))).map Prod.fst := by
      refine map_eq_of_mapM hl fun p hp q hq => ?_
      obtain ⟨c, entry, hkey, -, heq⟩ := hs.listed hM hjson (hmem p hp).1 (hmem p hp).2
      obtain rfl := Option.some.inj (heq.symm.trans hq)
      exact hkey.symm
    have hsorted := s.toList_sorted.filter fun p => startsWith p.1 ("channels/" ++ hexEncode n.1)
    rw [← List.pairwise_map (f := Prod.fst) (R := fun a b => compare a b = .lt), ← hkeys, List.pairwise_map] at hsorted
    exact hsorted
  · rw [mem_mapM_iff hl]
    constructor
    · rintro ⟨p, hp, hq⟩
      obtain ⟨c', entry, hkey, hvalue, heq⟩ := hs.listed hM hjson (hmem p hp).1 (hmem p hp).2
      obtain ⟨rfl, rfl⟩ := Prod.mk.inj (Option.some.inj (heq.symm.trans hq))
      refine ⟨p.2.1, entry, ?_, rfl⟩
      rw [← hkey, ← hvalue]
      exact State.mem_toList.1 (hmem p hp).1
    · rintro ⟨version, entry, hget, rfl⟩
      have hp : (M.channelKey n c, version, M.toValue entry) ∈ s.values.toList := State.mem_toList.2 hget
      have hstarts : startsWith (M.channelKey n c) ("channels/" ++ hexEncode n.1) :=
        (ChannelModel.startsWith_channelKey hM).2 rfl
      obtain ⟨c', entry', hkey, hvalue, heq⟩ := hs.listed hM hjson hp hstarts
      obtain ⟨-, rfl⟩ := (ChannelModel.channelKey_inj hM).1 hkey
      refine ⟨_, List.mem_filter.2 ⟨hp, hstarts⟩, ?_⟩
      refine heq.trans ?_
      -- two channels under one key have the same entry
      have hread := congrArg M.fromValue hvalue
      rw [hjson, hjson] at hread
      rw [Option.some.inj hread]

end

end Greenlight.Persist
