import Greenlight.Persist.Memory

/-!
# Node records

A node has two entries in the state of a signer, `nodes/id` for what never changes and `nodestates/id` for what an
update may replace.  The operations touch one key at a time and a merge takes over whatever another state has, and
still no state that signers reach has the one without the other (`nodes_paired`).  `get_nodes` runs when a signer
starts and unwraps both.
-/

namespace Greenlight.Persist

open Greenlight.Lib

/-! ### Reading the nodes -/

/-- `vls_persist::model::NodeEntry`. -/
structure NodeEntry where
  keyDerivationStyle : UInt8
  network : String
  deriving DecidableEq, Repr

/-- What `get_nodes` reads the entries with: `serde_json::from_value` at the three types of an entry,
`Network::from_str` with the text of its error, `Allowable::from_str`, `CoreNodeState::restore` on a state that
starts with no excess amount and no high water mark, and `PublicKey::from_slice`. -/
structure NodeModel (Value : Type) where
  NodeStateEntry : Type
  Network : Type
  Allowable : Type
  CoreNodeState : Type
  PublicKey : Type
  nodeEntry : Value → Option NodeEntry
  nodeStateEntry : Value → Option NodeStateEntry
  allowlist : Value → Option (List String)
  network : String → Except String Network
  allowable : String → Network → Option Allowable
  restore : NodeStateEntry → List Allowable → CoreNodeState
  publicKey : Bytes → Option PublicKey

/-- `lightning_signer::persist::model::NodeEntry`. -/
structure CoreNodeEntry (CoreNodeState : Type) where
  keyDerivationStyle : UInt8
  network : String
  state : CoreNodeState

/-- How `get_nodes` ends without the nodes: with a panic or, for a network it does not know, with an error. -/
inductive GetNodesFailure where
  /-- The `unwrap` of an entry that is not there. -/
  | missing (key : String)
  /-- The `unwrap` of an entry that does not parse. -/
  | unreadable (key : String)
  | internal (message : String)
  /-- The `unwrap` of a node id that is no public key in hex. -/
  | publicKey (nodeId : String)
  deriving DecidableEq, Repr

namespace State

variable {Value : Type} {s : State Value}

theorem get?_remove (s : State Value) (k k' : String) :
    (s.remove k).get? k' = if k = k' then none else s.get? k' := by
  simp [get?, remove, Std.ExtTreeMap.getElem?_erase]

/-- The node ids of `get_nodes`: the last part of every key whose first part is `nodes`. -/
def nodeIds (s : State Value) : List String :=
  ((s.values.toList.map fun p => split p.1 '/').filter fun parts => parts.head? = some "nodes").map
    fun parts => parts.getLastD ""

/-- `state.values.get(&key).unwrap()`, read as an entry. -/
def getEntry {α : Type} (s : State Value) (fromValue : Value → Option α) (key : String) :
    Except GetNodesFailure α :=
  match s.get? key with
  | none => .error (.missing key)
  | some v =>
    match fromValue v.2 with
    | none => .error (.unreadable key)
    | some a => .ok a

/-- The body of the loop in `get_nodes`. -/
def getNode (M : NodeModel Value) (s : State Value) (nodeId : String) :
    Except GetNodesFailure (M.PublicKey × CoreNodeEntry M.CoreNodeState) := do
  let node ← s.getEntry M.nodeEntry ("nodes/" ++ nodeId)
  let stateEntry ← s.getEntry M.nodeStateEntry ("nodestates/" ++ nodeId)
  -- the allowlist of a node that was created before there were any is empty
  let allowlistStrings := ((s.get? ("allowlists/" ++ nodeId)).bind fun v => M.allowlist v.2).getD []
  let network ← (M.network node.network).mapError fun e => .internal ("Invalid network: " ++ e)
  let allowlist := allowlistStrings.filterMap fun s => M.allowable s network
  match (hexDecode nodeId).bind M.publicKey with
  | none => .error (.publicKey nodeId)
  | some key => .ok (key, ⟨node.keyDerivationStyle, node.network, M.restore stateEntry allowlist⟩)

def getNodes (M : NodeModel Value) (s : State Value) :
    Except GetNodesFailure (List (M.PublicKey × CoreNodeEntry M.CoreNodeState)) :=
  s.nodeIds.mapM (s.getNode M)

/-- The message of the assertion that fails in `insert_node`. -/
def insertNodePanic (s : State Value) (key : String) : Option String :=
  if (s.get? ("nodes/" ++ key)).isSome then some "inserting node twice"
  else if (s.get? ("nodestates/" ++ key)).isSome then some "inserting node_state twice"
  else none

theorem isSome_insertNodePanic_iff {key : String} {nodeEntry nodeStateEntry : Value} :
    (s.insertNodePanic key).isSome ↔ s.insertNode key nodeEntry nodeStateEntry = none := by
  unfold insertNodePanic insertNode
  split_ifs <;> simp

end State

/-! ### Which keys there are -/

namespace State

variable {Value : Type} {s s' other : State Value}

theorem isSome_get?_insert (s : State Value) (key k : String) (e : UInt64 × Value) :
    ((s.insert key e).get? k).isSome ↔ k = key ∨ (s.get? k).isSome := by
  rw [get?_insert]
  split_ifs with hk
  · simp [hk]
  · simp [Ne.symm hk]

theorem isSome_get?_remove (s : State Value) (key k : String) :
    ((s.remove key).get? k).isSome ↔ (s.get? k).isSome ∧ ¬ k = key := by
  rw [get?_remove]
  split_ifs with hk
  · simp [hk]
  · simp [Ne.symm hk]

theorem isSome_get?_bump {key : String} {x : Value} (h : s.bump key x = some s') (k : String) :
    (s'.get? k).isSome ↔ (s.get? k).isSome := by
  obtain ⟨v, hv, hself, hother⟩ := bump_eq_some h
  by_cases hk : key = k
  · simp [← hk, hv, hself]
  · rw [hother k hk]

theorem isSome_get?_merge (k : String) :
    ((s.merge other).1.get? k).isSome ↔ (s.get? k).isSome ∨ (other.get? k).isSome := by
  rw [get?_merge]
  cases s.get? k <;> cases other.get? k <;> simp
  split_ifs <;> rfl

end State

namespace PersistOp

variable {Value : Type} {s s' : State Value}

/-- The keys an operation makes sure of. -/
def inserted (nodeChannelId : Bytes → Bytes → Bytes) : PersistOp Value → List String
  | newNode nodeId _ _ => ["nodes/" ++ hexEncode nodeId, "nodestates/" ++ hexEncode nodeId]
  | newChannel nodeId channelId _ => ["channels/" ++ hexEncode (nodeChannelId nodeId channelId)]
  | newTracker nodeId _ => ["trackers/" ++ hexEncode nodeId]
  | updateNodeAllowlist nodeId _ => ["allowlists/" ++ hexEncode nodeId]
  | _ => []

/-- The keys an operation drops. -/
def Drops (nodeChannelId : Bytes → Bytes → Bytes) (k : String) : PersistOp Value → Prop
  | deleteNode nodeId => k = "nodes/" ++ hexEncode nodeId ∨ k = "nodestates/" ++ hexEncode nodeId
  | deleteChannel nodeId channelId => k = hexEncode (nodeChannelId nodeId channelId)
  | clearDatabase => True
  | _ => False

/-- **Which keys an operation leaves**: those it makes sure of, and those there were but for the dropped ones. -/
theorem isSome_get?_apply {nodeChannelId : Bytes → Bytes → Bytes} {op : PersistOp Value}
    (h : op.apply nodeChannelId s = some s') (k : String) :
    (s'.get? k).isSome ↔
      k ∈ op.inserted nodeChannelId ∨ (s.get? k).isSome ∧ ¬ op.Drops nodeChannelId k := by
  cases op with
  | newNode nodeId nodeEntry nodeStateEntry =>
    simp only [apply, State.insertNode] at h
    split_ifs at h
    obtain rfl := Option.some.inj h
    simp only [State.isSome_get?_insert, inserted, Drops, List.mem_cons, List.not_mem_nil]
    tauto
  | updateNode nodeId nodeStateEntry => simpa [inserted, Drops] using State.isSome_get?_bump h k
  | updateChannel nodeId channelId channelEntry => simpa [inserted, Drops] using State.isSome_get?_bump h k
  | updateTracker nodeId tracker => simpa [inserted, Drops] using State.isSome_get?_bump h k
  | deleteNode nodeId =>
    obtain rfl := Option.some.inj h
    simp only [State.deleteNode, State.isSome_get?_remove, inserted, Drops, List.not_mem_nil]
    tauto
  | newChannel nodeId channelId channelEntry =>
    simp only [apply, State.insertChannel] at h
    split_ifs at h
    obtain rfl := Option.some.inj h
    simp [State.isSome_get?_insert, inserted, Drops]
  | deleteChannel nodeId channelId =>
    obtain rfl := Option.some.inj h
    simp [State.deleteChannel, State.isSome_get?_remove, inserted, Drops]
  | newTracker nodeId tracker =>
    simp only [apply, State.newChainTracker] at h
    split_ifs at h
    obtain rfl := Option.some.inj h
    simp [State.isSome_get?_insert, inserted, Drops]
  | updateNodeAllowlist nodeId allowlist =>
    obtain rfl := Option.some.inj h
    rw [State.get?_updateNodeAllowlist]
    split_ifs with hk <;> simp [inserted, Drops, hk]
  | clearDatabase =>
    obtain rfl := Option.some.inj h
    simp [inserted, Drops]

theorem mem_inserted_iff (nodeChannelId : Bytes → Bytes → Bytes) (op : PersistOp Value) (id : String) :
    "nodes/" ++ id ∈ op.inserted nodeChannelId ↔ "nodestates/" ++ id ∈ op.inserted nodeChannelId := by
  cases op <;> simp [inserted, String.ext_iff]

/-- The two keys of a node are dropped together.  The key of a channel is dropped without `channels/`, but no key
of a node is hex. -/
theorem drops_iff (nodeChannelId : Bytes → Bytes → Bytes) (op : PersistOp Value) (id : String) :
    op.Drops nodeChannelId ("nodes/" ++ id) ↔ op.Drops nodeChannelId ("nodestates/" ++ id) := by
  have hhex : ∀ {table : String} (b : Bytes), '/' ∈ table.toList → table ++ id ≠ hexEncode b := by
    intro table b htable h
    have hslash : '/' ∈ (hexEncode b).toList := by simp [← h, htable]
    exact absurd (hexEncode_isAlphanum b '/' hslash) (by decide)
  cases op with
  | deleteNode nodeId => simp [Drops, String.ext_iff]
  | deleteChannel nodeId channelId =>
    exact iff_of_false (hhex _ (by decide)) (hhex _ (by decide))
  | clearDatabase => exact Iff.rfl
  | newNode | updateNode | newChannel | updateChannel | newTracker | updateTracker | updateNodeAllowlist =>
    exact Iff.rfl

end PersistOp

/-! ### Reachable states -/

/-- The states signers reach: the empty one, what an operation makes of one unless it panics, and what a merge
makes of two. -/
inductive Reachable {Value : Type} (nodeChannelId : Bytes → Bytes → Bytes) : State Value → Prop
  | new : Reachable nodeChannelId .new
  | persist {s s' : State Value} (op : PersistOp Value) :
      Reachable nodeChannelId s → op.apply nodeChannelId s = some s' → Reachable nodeChannelId s'
  | merge {s other : State Value} :
      Reachable nodeChannelId s → Reachable nodeChannelId other → Reachable nodeChannelId (s.merge other).1

/-- The tables of the state, as the keys begin. -/
def tables : List String := ["nodes/", "nodestates/", "channels/", "allowlists/", "trackers/"]

/-- **The invariant**: the two entries of a node are there together, and every key is an id in hex in a table. -/
structure State.WellKept {Value : Type} (s : State Value) : Prop where
  paired : ∀ id : String, (s.get? ("nodes/" ++ id)).isSome ↔ (s.get? ("nodestates/" ++ id)).isSome
  keys : ∀ k : String, (s.get? k).isSome → ∃ table ∈ tables, ∃ id : Bytes, k = table ++ hexEncode id

section

variable {Value : Type} {nodeChannelId : Bytes → Bytes → Bytes} {s s' other : State Value}

theorem wellKept_new : (State.new : State Value).WellKept where
  paired _ := by simp
  keys k h := by simp at h

theorem wellKept_apply {op : PersistOp Value} (hs : s.WellKept) (h : op.apply nodeChannelId s = some s') :
    s'.WellKept where
  paired id := by
    rw [PersistOp.isSome_get?_apply h, PersistOp.isSome_get?_apply h, PersistOp.mem_inserted_iff,
      PersistOp.drops_iff, hs.paired]
  keys k hk := by
    rcases (PersistOp.isSome_get?_apply h k).1 hk with hmem | ⟨hold, -⟩
    · cases op <;> simp only [PersistOp.inserted, List.mem_cons, List.not_mem_nil, or_false] at hmem
      case newNode nodeId _ _ =>
        rcases hmem with rfl | rfl
        · exact ⟨"nodes/", by decide, nodeId, rfl⟩
        · exact ⟨"nodestates/", by decide, nodeId, rfl⟩
      case newChannel => exact ⟨"channels/", by decide, _, hmem⟩
      case newTracker => exact ⟨"trackers/", by decide, _, hmem⟩
      case updateNodeAllowlist => exact ⟨"allowlists/", by decide, _, hmem⟩
    · exact hs.keys k hold

theorem wellKept_merge (hs : s.WellKept) (hother : other.WellKept) : (s.merge other).1.WellKept where
  paired id := by rw [State.isSome_get?_merge, State.isSome_get?_merge, hs.paired, hother.paired]
  keys k hk := by
    rcases (State.isSome_get?_merge k).1 hk with h | h
    · exact hs.keys k h
    · exact hother.keys k h

theorem wellKept_of_reachable (h : Reachable nodeChannelId s) : s.WellKept := by
  induction h with
  | new => exact wellKept_new
  | persist op _ hop ih => exact wellKept_apply ih hop
  | merge _ _ ih ihother => exact wellKept_merge ih ihother

theorem State.WellKept.get?_of_mem_nodeIds (hs : s.WellKept) {id : String} (h : id ∈ s.nodeIds) :
    (s.get? ("nodes/" ++ id)).isSome := by
  have hhex : ∀ b : Bytes, split (hexEncode b) '/' = [hexEncode b] := fun b =>
    split_eq_singleton fun hslash => absurd (hexEncode_isAlphanum b '/' hslash) (by decide)
  -- a key is split at its one slash: the id is hex
  have hsplit : ∀ (name : String) (b : Bytes), '/' ∉ name.toList →
      split (name ++ "/" ++ hexEncode b) '/' = [name, hexEncode b] := by
    intro name b hname
    rw [String.append_assoc, split_append (t := hexEncode b) (by simp) hname, hhex]
  simp only [State.nodeIds, List.mem_map, List.mem_filter, decide_eq_true_eq] at h
  obtain ⟨parts, ⟨⟨⟨k, e⟩, hmem, rfl⟩, hfirst⟩, rfl⟩ := h
  have hk : s.get? k = some e := State.mem_toList.1 hmem
  obtain ⟨table, htable, b, rfl⟩ := hs.keys k (by simp [hk])
  obtain ⟨name, rfl, hname, hnodes⟩ : ∃ name : String, table = name ++ "/" ∧ '/' ∉ name.toList ∧
      (name = "nodes" → table = "nodes/") := by
    simp only [tables, List.mem_cons, List.not_mem_nil, or_false] at htable
    rcases htable with rfl | rfl | rfl | rfl | rfl
    · exact ⟨"nodes", by decide, by decide, by decide⟩
    · exact ⟨"nodestates", by decide, by decide, by decide⟩
    · exact ⟨"channels", by decide, by decide, by decide⟩
    · exact ⟨"allowlists", by decide, by decide, by decide⟩
    · exact ⟨"trackers", by decide, by decide, by decide⟩
  rw [hsplit name b hname] at hfirst ⊢
  have hnode : name = "nodes" := by simpa using hfirst
  rw [hnodes hnode] at hk
  simp [hk]

theorem getEntry_ne_missing {α : Type} {fromValue : Value → Option α} {k key : String}
    (hk : (s.get? k).isSome) : s.getEntry fromValue k ≠ .error (.missing key) := by
  obtain ⟨v, hv⟩ := Option.isSome_iff_exists.1 hk
  unfold State.getEntry
  rw [hv]
  cases h : fromValue v.2 <;> simp [h]

theorem State.WellKept.getNodes_ne_missing (hs : s.WellKept) (M : NodeModel Value) (key : String) :
    s.getNodes M ≠ .error (.missing key) := by
  intro h
  obtain ⟨id, hid, h⟩ := exists_of_mapM_eq_error h
  have hnode := hs.get?_of_mem_nodeIds hid
  rcases bind_eq_error.1 h with h | ⟨node, -, h⟩
  · exact getEntry_ne_missing hnode h
  rcases bind_eq_error.1 h with h | ⟨stateEntry, -, h⟩
  · exact getEntry_ne_missing ((hs.paired id).1 hnode) h
  -- what is left fails at the network or at the id itself
  rcases bind_eq_error.1 h with h | ⟨network, -, h⟩
  · cases hnet : M.network node.network <;> simp [hnet, Except.mapError] at h
  · cases hid : (hexDecode id).bind M.publicKey <;> simp [hid] at h

theorem State.WellKept.insertNodePanic_ne (hs : s.WellKept) (id : String) :
    s.insertNodePanic id ≠ some "inserting node_state twice" := by
  unfold State.insertNodePanic
  split_ifs with hnode hstate
  · decide
  · exact absurd ((hs.paired id).2 hstate) hnode
  · decide

/-- **The records of a node stay paired** in every state that signers reach, whatever the id; so `get_nodes` finds
every entry it unwraps, and the second assertion of `new_node` does not fail without the first. -/
theorem nodes_paired (h : Reachable nodeChannelId s) :
    (∀ id : String, (s.get? ("nodes/" ++ id)).isSome ↔ (s.get? ("nodestates/" ++ id)).isSome) ∧
      (∀ (M : NodeModel Value) (key : String), s.getNodes M ≠ .error (.missing key)) ∧
      ∀ id : String, ((s.get? ("nodestates/" ++ id)).isSome → (s.get? ("nodes/" ++ id)).isSome) ∧
        s.insertNodePanic id ≠ some "inserting node_state twice" :=
  have hs := wellKept_of_reachable h
  ⟨hs.paired, hs.getNodes_ne_missing, fun id => ⟨(hs.paired id).2, hs.insertNodePanic_ne id⟩⟩

end

/-- A signer that created a node and merged the state of one that created another and deleted it. -/
def mergedNodes : State Bool :=
  let self := (State.new.insertNode (hexEncode [1]) true false).getD .new
  let other := (State.new.insertNode (hexEncode [2]) true false).getD .new
  (self.merge (other.deleteNode (hexEncode [2]))).1

theorem reachable_mergedNodes : Reachable (· ++ ·) mergedNodes := by
  have hone : ∀ b : Bytes, Reachable (· ++ ·) ((State.new.insertNode (hexEncode b) true false).getD .new) := by
    intro b
    refine .persist (.newNode b true false) .new ?_
    simp [PersistOp.apply, State.insertNode]
  exact .merge (hone [1]) (.persist (.deleteNode [2]) (hone [2]) rfl)

theorem nodes_paired_merged : Reachable (· ++ ·) mergedNodes ∧
    ((mergedNodes.get? ("nodes/" ++ hexEncode [1])).isSome ↔
      (mergedNodes.get? ("nodestates/" ++ hexEncode [1])).isSome) ∧
    mergedNodes.insertNodePanic (hexEncode [1]) ≠ some "inserting node_state twice" :=
  have h := nodes_paired reachable_mergedNodes
  ⟨reachable_mergedNodes, h.1 _, (h.2.2 _).2⟩

end Greenlight.Persist
