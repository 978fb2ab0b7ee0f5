import Greenlight.Lib.StableSort
import Greenlight.Plugin.Awaitables
import Greenlight.Lib.Result
import Mathlib.Data.String.Basic

/-!
# The peers to reconnect to

`get_reconnect_peers` of `node/mod.rs`: the peers that are connected, without an address, are put in front of those
of the datastore with theirs; the list is sorted by id and all but the first of the requests for one id are
dropped.  So a peer that is connected is asked for without an address, and any other one with the address of its
first entry (`getReconnectPeers_spec`).
-/

namespace Greenlight.Plugin

open Greenlight.Lib Greenlight.Util

structure ListpeersPeer where
  id : PublicKey
  connected : Bool
  deriving DecidableEq, Repr

structure DatastoreEntry where
  string : Option String
  deriving DecidableEq, Repr

/-- `messages::Peer`. -/
structure Messages.Peer where
  id : String
  addr : String
  deriving DecidableEq, Repr

structure ConnectRequest where
  id : String
  host : Option String
  port : Option UInt16
  deriving DecidableEq, Repr

/-- `str::replace` of a character by nothing. -/
def removeChar (c : Char) (s : String) : String := String.ofList (s.toList.filter (· ≠ c))

section

-- `serde_json::from_str::<messages::Peer>`
variable (fromStr : String → Option Messages.Peer)

/-- The peer of an entry of the peer list; `none` is a panic, on an entry that has no string or is not read. -/
def DatastoreEntry.peer (x : DatastoreEntry) : Option Messages.Peer := do
  let s ← x.string
  fromStr (removeChar '\\' s)

/-- `get_reconnect_peers`, on the replies to its two calls; `none` is a panic. -/
def getReconnectPeers (listpeers : Except RpcError (List ListpeersPeer))
    (listdatastore : Except RpcError (List DatastoreEntry)) : Option (Except RpcError (List ConnectRequest)) :=
  match listpeers with
  | .error e => some (.error e)
  | .ok peers =>
    let requests := (peers.filter (·.connected)).map fun p => ⟨hexEncode p.id, none, none⟩
    match listdatastore with
    | .error e => some (.error e)
    | .ok datastore => do
      let dspeers ← datastore.mapM (DatastoreEntry.peer fromStr)
      let dsrequests := dspeers.map fun x => ⟨x.id, some x.addr, none⟩
      return .ok (dedupByKey ConnectRequest.id (sortByKey ConnectRequest.id (requests ++ dsrequests)))

end

/-- What the list of requests says: a request for every peer that is connected or stored, in the order of the ids,
and the address of the first entry for those that are not connected. -/
structure ReconnectList (connected : List String) (stored : List Messages.Peer)
    (requests : List ConnectRequest) : Prop where
  sorted : requests.Pairwise fun a b => a.id < b.id
  ids : ∀ id, (∃ r ∈ requests, r.id = id) ↔ id ∈ connected ∨ ∃ p ∈ stored, p.id = id
  host_connected : ∀ r ∈ requests, r.id ∈ connected → r.host = none
  host_stored : ∀ r ∈ requests, r.id ∉ connected →
    ∃ p, stored.find? (fun q => decide (q.id = r.id)) = some p ∧ r.host = some p.addr

/-- The requests before the sort. -/
def mergedRequests (connected : List String) (stored : List Messages.Peer) : List ConnectRequest :=
  connected.map (fun id => ⟨id, none, none⟩) ++ stored.map fun x => ⟨x.id, some x.addr, none⟩

section

variable (connected : List String) (stored : List Messages.Peer)

theorem find?_connected (id : String) :
    (connected.map fun id => (⟨id, none, none⟩ : ConnectRequest)).find? (fun r => decide (r.id = id)) =
      if id ∈ connected then some ⟨id, none, none⟩ else none := by
  induction connected with
  | nil => rfl
  | cons a l ih =>
    rw [List.map_cons, List.find?_cons, ih]
    by_cases h : a = id
    · simp [h]
    · simp [h, Ne.symm h]

theorem find?_mergedRequests (id : String) :
    (mergedRequests connected stored).find? (fun r => decide (r.id = id)) =
      if id ∈ connected then some ⟨id, none, none⟩
      else (stored.find? fun p => decide (p.id = id)).map fun p => ⟨p.id, some p.addr, none⟩ := by
  unfold mergedRequests
  rw [List.find?_append, find?_connected, List.find?_map]
  split <;> rfl

theorem reconnectList_merged : ReconnectList connected stored
    (dedupByKey ConnectRequest.id (sortByKey ConnectRequest.id (mergedRequests connected stored))) where
  sorted := pairwise_dedupByKey (sortedByKey_sortByKey _ _)
  ids id := by
    rw [exists_mem_dedupByKey_sortByKey]
    simp [mergedRequests, or_and_right, exists_or]
  host_connected r hr hmem := by
    rw [mem_dedupByKey_sortByKey, find?_mergedRequests, if_pos hmem, Option.some.injEq] at hr
    rw [← hr]
  host_stored r hr hmem := by
    rw [mem_dedupByKey_sortByKey, find?_mergedRequests, if_neg hmem, Option.map_eq_some_iff] at hr
    obtain ⟨p, hp, rfl⟩ := hr
    exact ⟨p, hp, rfl⟩

end

/-- **The reconnect list.**  If all entries of the peer list are read there is a list of requests, whose ids are
those of the connected and of the stored peers, each once and in order; a connected peer has no address in it and any
other one that of its first entry. -/
theorem getReconnectPeers_spec (fromStr : String → Option Messages.Peer) (peers : List ListpeersPeer)
    (datastore : List DatastoreEntry) (hread : ∀ x ∈ datastore, (x.peer fromStr).isSome) :
    ∃ requests, getReconnectPeers fromStr (.ok peers) (.ok datastore) = some (.ok requests) ∧
      ReconnectList ((peers.filter (·.connected)).map fun p => hexEncode p.id)
        (datastore.filterMap (DatastoreEntry.peer fromStr)) requests := by
  obtain ⟨dspeers, hds⟩ := Option.isSome_iff_exists.1 (isSome_mapM_iff.2 hread)
  refine ⟨_, ?_, reconnectList_merged _ _⟩
  simp only [getReconnectPeers, hds, Option.bind_eq_bind, Option.bind_some, Option.pure_def, mergedRequests,
    filterMap_of_mapM hds, List.map_map]
  rfl

/-- A reader of the entries that the plugin writes. -/
def readPeer (s : String) : Option Messages.Peer :=
  match split s '"' with
  | ["\x7b", "id", ":", id, ",", "direction", ":", "out", ",", "addr", ":", addr, ",", "features", ":", _, "\x7d"] =>
    some ⟨id, addr⟩
  | _ => none

def peerEntry (id addr : String) : DatastoreEntry where
  string := some ("\x7b\\\"id\\\":\\\"" ++ id ++ "\\\",\\\"direction\\\":\\\"out\\\",\\\"addr\\\":\\\"" ++ addr ++
    "\\\",\\\"features\\\":\\\"\\\"\x7d")

/-- A connected peer that is stored too, and one that is stored twice. -/
theorem getReconnectPeers_spec_ab : ∃ requests,
    getReconnectPeers readPeer (.ok [⟨[0xab], true⟩, ⟨[0xcd], false⟩])
        (.ok [peerEntry "cd" "1.1.1.1:9735", peerEntry "cd" "2.2.2.2:9735", peerEntry "ab" "3.3.3.3:9735"]) =
      some (.ok requests) ∧
      ReconnectList ["ab"] [⟨"cd", "1.1.1.1:9735"⟩, ⟨"cd", "2.2.2.2:9735"⟩, ⟨"ab", "3.3.3.3:9735"⟩] requests := by
  have hread : [peerEntry "cd" "1.1.1.1:9735", peerEntry "cd" "2.2.2.2:9735",
      peerEntry "ab" "3.3.3.3:9735"].mapM (DatastoreEntry.peer readPeer) =
        some [⟨"cd", "1.1.1.1:9735"⟩, ⟨"cd", "2.2.2.2:9735"⟩, ⟨"ab", "3.3.3.3:9735"⟩] := by decide +kernel
  have hspec := getReconnectPeers_spec readPeer [⟨[0xab], true⟩, ⟨[0xcd], false⟩] _
    (isSome_mapM_iff.1 (Option.isSome_of_mem hread))
  have hconnected : (([⟨[0xab], true⟩, ⟨[0xcd], false⟩] : List ListpeersPeer).filter (·.connected)).map
      (fun p => hexEncode p.id) = ["ab"] := by decide +kernel
  rwa [hconnected, filterMap_of_mapM hread] at hspec

end Greenlight.Plugin
