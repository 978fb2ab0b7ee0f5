import Greenlight.Lib.Transition
import Greenlight.Plugin.Reconnect
import Mathlib.Data.List.AList

/-!
# The peer list

The hook on a new connection writes the peer into the datastore of lightningd, under its id, and `disconnect` of
`wrapper.rs` deletes the entry; neither of them cares whether this works.  Whenever a signer attaches,
`reconnect_peers` asks for all peers of the list.

So after any run the peers to reconnect to are those that are connected, and those that have been written and not
deleted since, with the address that they were written with last (`reconnect_of_run`).
-/

namespace Greenlight.Plugin

open Greenlight.Lib Greenlight.Util

/-! ### The datastore -/

/-- `messages::Direction`. -/
inductive Direction where
  | incoming
  | outgoing
  deriving DecidableEq, Repr

/-- `PeerConnectedCall`, with the fields of its peer. -/
structure PeerConnectedCall where
  id : String
  direction : Direction
  addr : String
  features : String
  deriving DecidableEq, Repr

/-- The JSON form of a peer, and what the datastore makes of it. -/
structure PeerJson where
  /-- `serde_json::to_string` of the peer. -/
  toString : PeerConnectedCall → String
  /-- `serde_json::from_str`. -/
  fromStr : String → Option Messages.Peer
  /-- The string of an entry, as it is returned. -/
  returned : String → String

/-- The entry of the peer is read back, once the escape characters are taken out. -/
def PeerJson.ReadsBack (json : PeerJson) (call : PeerConnectedCall) : Prop :=
  json.fromStr (removeChar '\\' (json.returned (json.toString call))) = some ⟨call.id, call.addr⟩

/-- The entries below the key `greenlight`, `peerlist`: the last part of their key and their string. -/
abbrev PeerStore := AList fun _ : String => String

inductive PeerEvent where
  /-- The hook on a new connection, and whether the datastore takes the entry. -/
  | peerConnected (call : PeerConnectedCall) (stored : Bool)
  /-- A call of `disconnect`, and whether the datastore deletes the entry. -/
  | disconnect (id : Bytes) (deleted : Bool)
  deriving DecidableEq, Repr

/-- `on_peer_connected`: the entry is created or replaced. -/
def onPeerConnected (json : PeerJson) (call : PeerConnectedCall) (stored : Bool) (store : PeerStore) : PeerStore :=
  if stored then store.insert call.id (json.toString call) else store

/-- `disconnect`, as far as the entry goes. -/
def disconnect (id : Bytes) (deleted : Bool) (store : PeerStore) : PeerStore :=
  if deleted then store.erase (hexEncode id) else store

namespace PeerStore

def step (json : PeerJson) (store : PeerStore) : PeerEvent → Option PeerStore
  | .peerConnected call stored => some (onPeerConnected json call stored store)
  | .disconnect id deleted => some (disconnect id deleted store)

def list (json : PeerJson) (store : PeerStore) : List DatastoreEntry :=
  store.entries.map fun e => ⟨some (json.returned e.2)⟩

end PeerStore

/-- `reconnect_peers`: the requests that it makes.  `none` is a panic, of `get_reconnect_peers`. -/
def reconnectPeers (json : PeerJson) (signerCount : ℕ) (listpeers : Except RpcError (List ListpeersPeer))
    (listdatastore : Except RpcError (List DatastoreEntry)) : Option (List ConnectRequest) :=
  if signerCount < 1 then some []
  else (getReconnectPeers json.fromStr listpeers listdatastore).map fun res => res.toOption.getD []

/-! ### What the list holds -/

/-- What an event makes of the entry for an id, if it makes something of it. -/
def PeerEvent.sets (id : String) : PeerEvent → Option (Option PeerConnectedCall)
  | .peerConnected call true => if call.id = id then some (some call) else none
  | .disconnect id' true => if hexEncode id' = id then some none else none
  | .peerConnected _ false | .disconnect _ false => none

/-- The call that was written last for an id, if it has not been deleted since. -/
def lastCall (id : String) (es : List PeerEvent) : Option PeerConnectedCall :=
  es.foldl (fun last e => (e.sets id).getD last) none

theorem lastCall_concat (id : String) (es : List PeerEvent) (e : PeerEvent) :
    lastCall id (es ++ [e]) = (e.sets id).getD (lastCall id es) := by
  rw [lastCall, List.foldl_concat]
  rfl

variable {json : PeerJson} {store store' : PeerStore} {e : PeerEvent} {es : List PeerEvent} {id : String}
  {call : PeerConnectedCall}

theorem PeerEvent.sets_eq_some (h : e.sets id = some (some call)) : e = .peerConnected call true ∧ call.id = id := by
  unfold PeerEvent.sets at h
  split at h
  · split_ifs at h with hid
    obtain rfl := Option.some.inj (Option.some.inj h)
    exact ⟨rfl, hid⟩
  · split_ifs at h
    cases Option.some.inj h
  · cases h
  · cases h

theorem mem_of_lastCall (h : lastCall id es = some call) : .peerConnected call true ∈ es ∧ call.id = id := by
  induction es using List.reverseRecOn with
  | nil => cases h
  | append_singleton es e ih =>
    rw [lastCall_concat] at h
    cases hsets : e.sets id with
    | some last =>
      rw [hsets, Option.getD_some] at h
      obtain ⟨rfl, hid⟩ := PeerEvent.sets_eq_some (hsets.trans (congrArg some h))
      exact ⟨List.mem_append_right _ (List.mem_singleton_self _), hid⟩
    | none =>
      rw [hsets, Option.getD_none] at h
      exact ⟨List.mem_append_left _ (ih h).1, (ih h).2⟩

namespace PeerStore

theorem lookup_step (hstep : step json store e = some store') (id : String) :
    store'.lookup id = ((e.sets id).map (·.map json.toString)).getD (store.lookup id) := by
  cases e with
  | peerConnected call stored =>
    obtain rfl := Option.some.inj hstep
    cases stored with
    | true =>
      show (store.insert call.id (json.toString call)).lookup id = _
      by_cases hid : call.id = id
      · subst hid
        rw [AList.lookup_insert, PeerEvent.sets, if_pos rfl]
        rfl
      · rw [AList.lookup_insert_ne (Ne.symm hid), PeerEvent.sets, if_neg hid]
        rfl
    | false => rfl
  | disconnect id' deleted =>
    obtain rfl := Option.some.inj hstep
    cases deleted with
    | true =>
      -- the id is deleted in the hex form that it was stored in
      show (store.erase (hexEncode id')).lookup id = _
      by_cases hid : hexEncode id' = id
      · subst hid
        rw [AList.lookup_erase, PeerEvent.sets, if_pos rfl]
        rfl
      · rw [AList.lookup_erase_ne (Ne.symm hid), PeerEvent.sets, if_neg hid]
        rfl
    | false => rfl

/-- The entry of an id is what was written last. -/
theorem lookup_of_run (hr : Run (step json) ∅ es store) (id : String) :
    store.lookup id = (lastCall id es).map json.toString := by
  refine Run.induction (motive := fun es store => store.lookup id = (lastCall id es).map json.toString) hr rfl
    fun es store e store' _ ih hstep => ?_
  rw [lookup_step hstep, ih, lastCall_concat]
  cases e.sets id with
  | none => rfl
  | some last => rfl

theorem mem_list_iff (hr : Run (step json) ∅ es store) (x : DatastoreEntry) : x ∈ list json store ↔
    ∃ call, lastCall call.id es = some call ∧ x = ⟨some (json.returned (json.toString call))⟩ := by
  have hentry : ∀ id s, ⟨id, s⟩ ∈ store.entries ↔ ∃ call, lastCall id es = some call ∧ json.toString call = s := by
    intro id s
    rw [← AList.mem_lookup_iff, lookup_of_run hr id, Option.mem_def, Option.map_eq_some_iff]
  simp only [list, List.mem_map]
  constructor
  · rintro ⟨⟨id, s⟩, hmem, rfl⟩
    obtain ⟨call, hlast, rfl⟩ := (hentry id s).1 hmem
    obtain ⟨-, rfl⟩ := mem_of_lastCall hlast
    exact ⟨call, hlast, rfl⟩
  · rintro ⟨call, hlast, rfl⟩
    exact ⟨⟨call.id, json.toString call⟩, (hentry _ _).2 ⟨call, hlast, rfl⟩, rfl⟩

variable (hr : Run (step json) ∅ es store) (hread : ∀ call, .peerConnected call true ∈ es → json.ReadsBack call)

include hr hread

theorem peer_of_mem_list {x : DatastoreEntry} (hx : x ∈ list json store) :
    ∃ call, lastCall call.id es = some call ∧ x.peer json.fromStr = some ⟨call.id, call.addr⟩ := by
  obtain ⟨call, hlast, rfl⟩ := (mem_list_iff hr x).1 hx
  exact ⟨call, hlast, hread call (mem_of_lastCall hlast).1⟩

/-- So the peers of the list are the calls that were written last. -/
theorem mem_peers_iff (p : Messages.Peer) :
    p ∈ (list json store).filterMap (DatastoreEntry.peer json.fromStr) ↔
      ∃ call, lastCall p.id es = some call ∧ p.addr = call.addr := by
  rw [List.mem_filterMap]
  constructor
  · rintro ⟨x, hx, hp⟩
    obtain ⟨call, hlast, hpeer⟩ := peer_of_mem_list hr hread hx
    obtain rfl := Option.some.inj (hpeer.symm.trans hp)
    exact ⟨call, hlast, rfl⟩
  · rintro ⟨call, hlast, haddr⟩
    obtain ⟨hmem, hid⟩ := mem_of_lastCall hlast
    refine ⟨_, (mem_list_iff hr _).2 ⟨call, hid ▸ hlast, rfl⟩, (hread call hmem).trans ?_⟩
    rw [hid, ← haddr]

end PeerStore

theorem getReconnectPeers_of_mapM {fromStr : String → Option Messages.Peer} {peers : List ListpeersPeer}
    {datastore : List DatastoreEntry} {dspeers : List Messages.Peer}
    (hds : datastore.mapM (DatastoreEntry.peer fromStr) = some dspeers) :
    getReconnectPeers fromStr (.ok peers) (.ok datastore) =
      some (.ok (dedupByKey ConnectRequest.id (sortByKey ConnectRequest.id
        (mergedRequests ((peers.filter (·.connected)).map fun p => hexEncode p.id) dspeers)))) := by
  simp only [getReconnectPeers, hds, Option.bind_eq_bind, Option.bind_some, Option.pure_def, mergedRequests,
    List.map_map]
  rfl

/-- **Reconnection**: after any run, a signer that attaches makes the plugin ask for the peers that are connected and
for those that were written and not deleted since, each once and in the order of the ids; the former without an
address, the latter with the last one. -/
theorem reconnect_of_run (hr : Run (PeerStore.step json) ∅ es store)
    (hread : ∀ call, .peerConnected call true ∈ es → json.ReadsBack call) {signerCount : ℕ}
    (hsigner : 1 ≤ signerCount) (peers : List ListpeersPeer) :
    ∃ requests, reconnectPeers json signerCount (.ok peers) (.ok (store.list json)) = some requests ∧
      requests.Pairwise (fun a b => a.id < b.id) ∧
      ∀ id host, (∃ r ∈ requests, r.id = id ∧ r.host = host) ↔
        ((∃ p ∈ peers, p.connected ∧ hexEncode p.id = id) ∧ host = none) ∨
          (¬ (∃ p ∈ peers, p.connected ∧ hexEncode p.id = id) ∧
            ∃ call, lastCall id es = some call ∧ host = some call.addr) := by
  obtain ⟨dspeers, hds⟩ := Option.isSome_iff_exists.1 (isSome_mapM_iff.2 fun x hx => by
    obtain ⟨call, -, hpeer⟩ := PeerStore.peer_of_mem_list hr hread hx
    exact Option.isSome_of_mem hpeer)
  have hstored := PeerStore.mem_peers_iff hr hread
  rw [filterMap_of_mapM hds] at hstored
  have hlist := reconnectList_merged ((peers.filter (·.connected)).map fun p => hexEncode p.id) dspeers
  have hconnected : ∀ id, id ∈ (peers.filter (·.connected)).map (fun p => hexEncode p.id) ↔
      ∃ p ∈ peers, p.connected ∧ hexEncode p.id = id := fun id => by simp [and_assoc]
  -- the stored peers are the calls that were written last, one for each id
  have hfirst : ∀ id p, dspeers.find? (fun q => decide (q.id = id)) = some p →
      ∃ call, lastCall id es = some call ∧ p.addr = call.addr := by
    intro id p hp
    have hid : p.id = id := by simpa using List.find?_some hp
    exact hid ▸ (hstored p).1 (List.mem_of_find?_eq_some hp)
  refine ⟨_, ?_, hlist.sorted, fun id host => ?_⟩
  · rw [reconnectPeers, if_neg (Nat.not_lt.2 hsigner), getReconnectPeers_of_mapM hds]
    rfl
  · simp only [← hconnected]
    constructor
    · rintro ⟨r, hr, rfl, rfl⟩
      -- a peer that is connected wins over its entry
      by_cases hmem : r.id ∈ (peers.filter (·.connected)).map fun p => hexEncode p.id
      · exact .inl ⟨hmem, hlist.host_connected r hr hmem⟩
      · obtain ⟨p, hp, hrhost⟩ := hlist.host_stored r hr hmem
        obtain ⟨call, hlast, haddr⟩ := hfirst r.id p hp
        exact .inr ⟨hmem, call, hlast, by rw [hrhost, haddr]⟩
    · rintro (⟨hmem, rfl⟩ | ⟨hmem, call, hlast, rfl⟩)
      · obtain ⟨r, hr, rfl⟩ := (hlist.ids id).2 (.inl hmem)
        exact ⟨r, hr, rfl, hlist.host_connected r hr hmem⟩
      · have hthere : ∃ p ∈ dspeers, p.id = id := ⟨⟨id, call.addr⟩, (hstored _).2 ⟨call, hlast, rfl⟩, rfl⟩
        obtain ⟨r, hr, rfl⟩ := (hlist.ids id).2 (.inr hthere)
        obtain ⟨p, hp, hrhost⟩ := hlist.host_stored r hr hmem
        obtain ⟨call', hlast', haddr⟩ := hfirst r.id p hp
        obtain rfl := Option.some.inj (hlast.symm.trans hlast')
        exact ⟨r, hr, rfl, by rw [hrhost, haddr]⟩

/-- The JSON form of the peers that were connected to; the datastore escapes the quotes. -/
def PeerJson.plain : PeerJson where
  toString call := "\x7b\"id\":\"" ++ call.id ++ "\",\"direction\":\"out\",\"addr\":\"" ++ call.addr ++
    "\",\"features\":\"" ++ call.features ++ "\"\x7d"
  fromStr := readPeer
  returned s := String.ofList (s.toList.flatMap fun c => if c = '"' then ['\\', c] else [c])

/-- A peer is connected to a second time, at another address, and another one is disconnected. -/
def movedRun : List PeerEvent :=
  [.peerConnected ⟨"ab", .outgoing, "1.1.1.1:9735", ""⟩ true,
    .peerConnected ⟨"cd", .outgoing, "2.2.2.2:9735", ""⟩ true,
    .peerConnected ⟨"ab", .outgoing, "3.3.3.3:9735", ""⟩ true, .disconnect [0xcd] true]

theorem reconnect_of_run_moved : ∃ store requests, Run (PeerStore.step .plain) ∅ movedRun store ∧
    reconnectPeers .plain 1 (.ok []) (.ok (store.list .plain)) = some requests ∧
    (∃ r ∈ requests, r.id = "ab" ∧ r.host = some "3.3.3.3:9735") ∧ ∀ r ∈ requests, r.id ≠ "cd" := by
  obtain ⟨store, hr⟩ : ∃ store, Run (PeerStore.step .plain) ∅ movedRun store := ⟨_, rfl⟩
  have hread : ∀ call, .peerConnected call true ∈ movedRun → PeerJson.plain.ReadsBack call := by
    intro call hmem
    simp only [movedRun, List.mem_cons, PeerEvent.peerConnected.injEq, reduceCtorEq, List.not_mem_nil, or_false,
      and_true] at hmem
    rcases hmem with rfl | rfl | rfl <;> unfold PeerJson.ReadsBack <;> decide +kernel
  obtain ⟨requests, hrequests, -, hiff⟩ := reconnect_of_run hr hread le_rfl []
  refine ⟨store, requests, hr, hrequests, (hiff _ _).2 (.inr ⟨by simp, _, rfl, rfl⟩), fun r hmem hcd => ?_⟩
  have hdeleted : lastCall "cd" movedRun = none := by decide +kernel
  rcases (hiff _ _).1 ⟨r, hmem, hcd, rfl⟩ with ⟨⟨p, hp, -⟩, -⟩ | ⟨-, call, hlast, -⟩
  · cases hp
  · cases hdeleted.symm.trans hlast

end Greenlight.Plugin
