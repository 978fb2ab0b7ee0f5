import Greenlight.Lib.Text
import Greenlight.Persist.State

/-!
# The persister of a signer

`MemoryPersister` of `persist.rs`: the operations a handler runs on the `State` of its signer.  A node is known by
its serialized public key and a channel by the bytes of its `NodeChannelId`, both in hex.  The entries are the
`serde_json` values that are stored, and a `none` is a panic (`assert`, `expect` or `unwrap`).
-/

namespace Greenlight.Persist

open Greenlight.Lib

namespace State

variable {Value : Type}

def remove (s : State Value) (key : String) : State Value := ⟨s.values.erase key⟩

def insertNode (s : State Value) (key : String) (nodeEntry nodeStateEntry : Value) : Option (State Value) :=
  if (s.get? ("nodes/" ++ key)).isSome then none
  else if (s.get? ("nodestates/" ++ key)).isSome then none
  else some ((s.insert ("nodes/" ++ key) (0, nodeEntry)).insert ("nodestates/" ++ key) (0, nodeStateEntry))

def deleteNode (s : State Value) (key : String) : State Value :=
  (s.remove ("nodes/" ++ key)).remove ("nodestates/" ++ key)

def insertChannel (s : State Value) (key : String) (channelEntry : Value) : Option (State Value) :=
  if (s.get? ("channels/" ++ key)).isSome then none else some (s.insert ("channels/" ++ key) (0, channelEntry))

/-- `delete_channel`: the key is taken as it is, without `channels/`. -/
def deleteChannel (s : State Value) (key : String) : State Value := s.remove key

def newChainTracker (s : State Value) (key : String) (tracker : Value) : Option (State Value) :=
  if (s.get? ("trackers/" ++ key)).isSome then none else some (s.insert ("trackers/" ++ key) (0, tracker))

def updateTracker (s : State Value) (key : String) (tracker : Value) : Option (State Value) :=
  s.bump ("trackers/" ++ key) tracker

/-- `get_node_allowlist`: no list and a value of another form are an empty list. -/
def getNodeAllowlist (fromValue : Value → Option (List String)) (s : State Value) (key : String) : List String :=
  match s.get? ("allowlists/" ++ key) with
  | some v => (fromValue v.2).getD []
  | none => []

/-- The version an update gives to an entry: the next one, or zero without an entry. -/
def nextVersion : Option (UInt64 × Value) → UInt64
  | some v => v.1 + 1
  | none => 0

theorem get?_bump {s s' : State Value} {k k' : String} {x : Value} (h : s.bump k x = some s') :
    s'.get? k' = if k' = k then some (nextVersion (s.get? k), x) else s.get? k' := by
  obtain ⟨v, hv, hself, hother⟩ := bump_eq_some h
  split_ifs with hk
  · rw [hk, hself, hv]
    rfl
  · exact hother k' (Ne.symm hk)

theorem get?_updateNodeAllowlist (s : State Value) (key k' : String) (x : Value) :
    (s.updateNodeAllowlist key x).get? k' =
      if k' = "allowlists/" ++ key then some (nextVersion (s.get? ("allowlists/" ++ key)), x) else s.get? k' := by
  unfold updateNodeAllowlist
  cases h : s.get? ("allowlists/" ++ key) <;> split_ifs with hk
  · rw [hk, get?_insert_self]
    rfl
  · exact get?_insert_of_ne _ _ (Ne.symm hk)
  · rw [hk, get?_insert_self]
    rfl
  · exact get?_insert_of_ne _ _ (Ne.symm hk)

end State

/-- The operations of `Persist` that change the state. -/
inductive PersistOp (Value : Type) where
  | newNode (nodeId : Bytes) (nodeEntry nodeStateEntry : Value)
  | updateNode (nodeId : Bytes) (nodeStateEntry : Value)
  | deleteNode (nodeId : Bytes)
  | newChannel (nodeId channelId : Bytes) (channelEntry : Value)
  | updateChannel (nodeId channelId : Bytes) (channelEntry : Value)
  | deleteChannel (nodeId channelId : Bytes)
  | newTracker (nodeId : Bytes) (tracker : Value)
  | updateTracker (nodeId : Bytes) (tracker : Value)
  | updateNodeAllowlist (nodeId : Bytes) (allowlist : Value)
  | clearDatabase

namespace PersistOp

variable {Value : Type}

/-- An operation of `MemoryPersister`; `nodeChannelId` is `NodeChannelId::new`. -/
def apply (nodeChannelId : Bytes → Bytes → Bytes) (s : State Value) : PersistOp Value → Option (State Value)
  | newNode nodeId nodeEntry nodeStateEntry => s.insertNode (hexEncode nodeId) nodeEntry nodeStateEntry
  | updateNode nodeId nodeStateEntry => s.updateNode (hexEncode nodeId) nodeStateEntry
  | deleteNode nodeId => some (s.deleteNode (hexEncode nodeId))
  | newChannel nodeId channelId channelEntry =>
    s.insertChannel (hexEncode (nodeChannelId nodeId channelId)) channelEntry
  | updateChannel nodeId channelId channelEntry =>
    s.updateChannel (hexEncode (nodeChannelId nodeId channelId)) channelEntry
  | deleteChannel nodeId channelId => some (s.deleteChannel (hexEncode (nodeChannelId nodeId channelId)))
  | newTracker nodeId tracker => s.newChainTracker (hexEncode nodeId) tracker
  | updateTracker nodeId tracker => s.updateTracker (hexEncode nodeId) tracker
  | updateNodeAllowlist nodeId allowlist => some (s.updateNodeAllowlist (hexEncode nodeId) allowlist)
  | clearDatabase => some .new

def update? (nodeChannelId : Bytes → Bytes → Bytes) : PersistOp Value → Option (String × Value)
  | updateNode nodeId nodeStateEntry => some ("nodestates/" ++ hexEncode nodeId, nodeStateEntry)
  | updateChannel nodeId channelId channelEntry =>
    some ("channels/" ++ hexEncode (nodeChannelId nodeId channelId), channelEntry)
  | updateTracker nodeId tracker => some ("trackers/" ++ hexEncode nodeId, tracker)
  | updateNodeAllowlist nodeId allowlist => some ("allowlists/" ++ hexEncode nodeId, allowlist)
  | _ => none

variable {nodeChannelId : Bytes → Bytes → Bytes} {op : PersistOp Value} {s s' : State Value}

/-- **What an update does**: its entry gets the next version and the new value, and no other entry changes. -/
theorem get?_update {k : String} {x : Value} (hop : op.update? nodeChannelId = some (k, x))
    (h : op.apply nodeChannelId s = some s') (k' : String) :
    s'.get? k' = if k' = k then some (State.nextVersion (s.get? k), x) else s.get? k' := by
  cases op with
  | updateNode nodeId nodeStateEntry =>
    obtain ⟨rfl, rfl⟩ := Prod.mk.inj (Option.some.inj hop)
    exact State.get?_bump h
  | updateChannel nodeId channelId channelEntry =>
    obtain ⟨rfl, rfl⟩ := Prod.mk.inj (Option.some.inj hop)
    exact State.get?_bump h
  | updateTracker nodeId tracker =>
    obtain ⟨rfl, rfl⟩ := Prod.mk.inj (Option.some.inj hop)
    exact State.get?_bump h
  | updateNodeAllowlist nodeId allowlist =>
    obtain ⟨rfl, rfl⟩ := Prod.mk.inj (Option.some.inj hop)
    obtain rfl := Option.some.inj h
    exact State.get?_updateNodeAllowlist s _ k' _
  | newNode | deleteNode | newChannel | deleteChannel | newTracker | clearDatabase => cases hop

end PersistOp

end Greenlight.Persist
