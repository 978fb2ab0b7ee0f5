import Greenlight.Plugin.Durability

/-!
# The state store and restarts

`storage.rs`, and what `PluginNodeServer::new` makes of it: a process starts with the state that it reads from the
store, and everything else in its memory is gone.  A store need not have its content on the disk before the next
flush; a process that ends in order leaves a flushed store, and one that crashes leaves what was flushed last.  The
store and the memory do not fall behind the versions of a response from its hand-over on, unless a crash comes before
the next flush (`restart_durable`).
-/

namespace Greenlight.Plugin

open Greenlight.Lib Greenlight.Persist

/-! ### Stores -/

inductive StoreError where
  /-- `database error`. -/
  | sled (e : String)
  /-- `state corruption`. -/
  | corruptState (e : String)

/-- The trait `StateStore`: an implementation, with what its callers rely on.  `write` is a write that succeeds; one
that fails changes nothing. -/
structure StateStore (Value : Type) where
  Store : Type
  read : Store → Except StoreError (State Value)
  write : Store → State Value → Store
  flush : Store → Store
  /-- The content that a process finds after a crash. -/
  crash : Store → Store
  read_write : ∀ st s, read (write st s) = .ok s
  read_flush : ∀ st, read (flush st) = read st
  crash_write : ∀ st s, crash (write st s) = crash st
  crash_flush : ∀ st, crash (flush st) = flush st
  crash_crash : ∀ st, crash (crash st) = crash st

/-- What the one key of a `sled::Db` maps to: now, and on the disk. -/
structure SledDb where
  current : Option Bytes
  flushed : Option Bytes
  deriving DecidableEq, Repr

/-- `serde_json::from_slice` and `serde_json::to_vec` for a whole state. -/
structure StateJson (Value : Type) where
  fromSlice : Bytes → Except String (State Value)
  toVec : State Value → Bytes
  fromSlice_toVec : ∀ s, fromSlice (toVec s) = .ok s

namespace SledStateStore

variable {Value : Type}

def read (json : StateJson Value) (db : SledDb) : Except StoreError (State Value) :=
  match db.current with
  | none => .ok .new
  | some v =>
    match json.fromSlice v with
    | .ok s => .ok s
    | .error e => .error (.corruptState e)

def write (json : StateJson Value) (db : SledDb) (state : State Value) : SledDb :=
  { db with current := some (json.toVec state) }

def stateStore (json : StateJson Value) : StateStore Value where
  Store := SledDb
  read := read json
  write := write json
  flush db := { db with flushed := db.current }
  crash db := { db with current := db.flushed }
  read_write db s := by simp only [read, write, json.fromSlice_toVec]
  read_flush _ := rfl
  crash_write _ _ := rfl
  crash_flush _ := rfl
  crash_crash _ := rfl

end SledStateStore

/-! ### Restarts -/

/-- A store and the process that uses it, while there is one. -/
structure Host {Value : Type} (store : StateStore Value) where
  db : store.Store
  server : Option (PluginNodeServer Value)

inductive HostEvent where
  /-- A piece of a call in the running process. -/
  | server (e : Event)
  | flush
  /-- The process ends in order. -/
  | stop
  | crash
  /-- A process starts. -/
  | start

namespace Host

variable {Value : Type} {store : StateStore Value}

/-- One event.  `PluginNodeServer::new` reads the store, and there is no process if that fails. -/
def step (json : SerdeJson Value) (h : Host store) : HostEvent → Option (Host store)
  | .server e => do
    let p ← h.server
    let p' ← p.step json e
    match e with
    | .write _ true => return ⟨store.write h.db p.signerState, some p'⟩
    | _ => return ⟨h.db, some p'⟩
  | .flush => h.server.map fun p => ⟨store.flush h.db, some p⟩
  | .stop => h.server.map fun _ => ⟨store.flush h.db, none⟩
  | .crash => h.server.map fun _ => ⟨store.crash h.db, none⟩
  | .start =>
    match h.server, store.read h.db with
    | none, .ok s => some ⟨h.db, some (.idle s)⟩
    | _, _ => none

/-- What a step does, one constructor for each outcome. -/
inductive Outcome (json : SerdeJson Value) (h : Host store) : HostEvent → Host store → Prop
  | wrote {p p' : PluginNodeServer Value} {id : CallId} (hserver : h.server = some p)
      (hp : p.step json (.write id true) = some p') :
      Outcome json h (.server (.write id true)) ⟨store.write h.db p.signerState, some p'⟩
  | server {p p' : PluginNodeServer Value} {e : Event} (hserver : h.server = some p)
      (hp : p.step json e = some p') (he : ∀ id, e ≠ .write id true) :
      Outcome json h (.server e) ⟨h.db, some p'⟩
  | flushed {p : PluginNodeServer Value} (hserver : h.server = some p) :
      Outcome json h .flush ⟨store.flush h.db, some p⟩
  | stopped {p : PluginNodeServer Value} (hserver : h.server = some p) :
      Outcome json h .stop ⟨store.flush h.db, none⟩
  | crashed {p : PluginNodeServer Value} (hserver : h.server = some p) :
      Outcome json h .crash ⟨store.crash h.db, none⟩
  | started {s : State Value} (hserver : h.server = none) (hread : store.read h.db = .ok s) :
      Outcome json h .start ⟨h.db, some (.idle s)⟩

variable {json : SerdeJson Value} {h h' : Host store} {e : HostEvent}

theorem step_outcome (hstep : h.step json e = some h') : Outcome json h e h' := by
  cases e with
  | server e =>
    obtain ⟨p, hserver, hstep⟩ := Option.bind_eq_some_iff.1 hstep
    obtain ⟨p', hp, hstep⟩ := Option.bind_eq_some_iff.1 hstep
    split at hstep
    · exact Option.some.inj hstep ▸ .wrote hserver hp
    · rename_i hwrite
      exact Option.some.inj hstep ▸ .server hserver hp fun id => hwrite id
  | flush =>
    obtain ⟨p, hserver, rfl⟩ := Option.map_eq_some_iff.1 hstep
    exact .flushed hserver
  | stop =>
    obtain ⟨p, hserver, rfl⟩ := Option.map_eq_some_iff.1 hstep
    exact .stopped hserver
  | crash =>
    obtain ⟨p, hserver, rfl⟩ := Option.map_eq_some_iff.1 hstep
    exact .crashed hserver
  | start =>
    simp only [step] at hstep
    split at hstep
    · rename_i s hserver hread
      exact Option.some.inj hstep ▸ .started hserver hread
    · cases hstep

end Host

/-! ### What is kept -/

theorem PluginNodeServer.StoredAtLeast.mono {Value : Type} {s t : State Value} {entries : List SignerStateEntry}
    (hle : t.AtLeast s) (h : PluginNodeServer.StoredAtLeast s entries) : PluginNodeServer.StoredAtLeast t entries := by
  intro pre entry post hentries hlast
  obtain ⟨v, hv, hversion⟩ := h pre entry post hentries hlast
  obtain ⟨w, hw, hnewer⟩ := hle entry.key v hv
  exact ⟨w, hw, hversion.trans hnewer⟩

namespace PluginNodeServer

variable {Value : Type} {json : SerdeJson Value} {p p' : PluginNodeServer Value} {e : Event}

theorem write_step {id : CallId} (h : p.step json (.write id true) = some p') :
    p'.stored = p.signerState ∧ p'.signerState = p.signerState := by
  cases step_outcome h with
  | write => exact ⟨rfl, rfl⟩

/-- No other step changes what is stored, and none takes back what was merged. -/
theorem stored_step (h : p.step json e = some p') (he : ∀ id, e ≠ .write id true) :
    p'.stored = p.stored ∧ p'.signerState.AtLeast p.signerState := by
  have hrefl : p.signerState.AtLeast p.signerState := fun k => Versioned.atLeast_refl _
  cases step_outcome h with
  | write => exact absurd rfl (he _)
  | @merge id response new => exact ⟨rfl, fun k => (State.covers_merge_left _ new k).atLeast⟩
  | call | reject | decode | lockState | lockStore | writeFailed | respond | drop => exact ⟨rfl, hrefl⟩

end PluginNodeServer

namespace Host

variable {Value : Type} {store : StateStore Value} {json : SerdeJson Value} {h h' : Host store} {e : HostEvent}
  {entries : List SignerStateEntry}

/-- The states in the memory, in the store and on the disk, each at least as new as the next. -/
structure Running (json : SerdeJson Value) (db : store.Store) (p : PluginNodeServer Value) : Prop where
  calls : p.Inv json
  stored : store.read db = .ok p.stored
  newer : p.signerState.AtLeast p.stored
  flushed : ∃ f, store.read (store.crash db) = .ok f ∧ p.stored.AtLeast f

/-- While there is no process, everything is on the disk. -/
def Inv (json : SerdeJson Value) (h : Host store) : Prop :=
  match h.server with
  | some p => Running json h.db p
  | none => store.crash h.db = h.db

/-- No process runs yet. -/
def Initial (h : Host store) : Prop := h.server = none ∧ store.crash h.db = h.db

theorem Initial.inv (h₀ : h.Initial) : Inv json h := by
  unfold Inv
  rw [h₀.1]
  exact h₀.2

theorem Inv.running {p : PluginNodeServer Value} (hinv : Inv json h) (hserver : h.server = some p) :
    Running json h.db p := by
  unfold Inv at hinv
  rwa [hserver] at hinv

theorem inv_step (hinv : Inv json h) (hstep : h.step json e = some h') : Inv json h' := by
  cases step_outcome hstep with
  | @wrote p p' id hserver hp =>
    have hrun := hinv.running hserver
    obtain ⟨hstored, hsame⟩ := PluginNodeServer.write_step hp
    refine ⟨PluginNodeServer.inv_step hrun.calls hp, ?_, ?_, ?_⟩
    · rw [store.read_write, hstored]
    · rw [hstored, hsame]
      exact fun k => Versioned.atLeast_refl _
    -- what is on the disk is not touched before the next flush
    · obtain ⟨f, hf, hnewer⟩ := hrun.flushed
      refine ⟨f, by rwa [store.crash_write], fun k => ?_⟩
      rw [hstored]
      exact (hrun.newer k).trans (hnewer k)
  | @server p p' e hserver hp he =>
    have hrun := hinv.running hserver
    obtain ⟨hstored, hnewer⟩ := PluginNodeServer.stored_step hp he
    refine ⟨PluginNodeServer.inv_step hrun.calls hp, ?_, fun k => ?_, ?_⟩
    · rw [hstored, hrun.stored]
    · rw [hstored]
      exact (hnewer k).trans (hrun.newer k)
    · rw [hstored]
      exact hrun.flushed
  | @flushed p hserver =>
    have hrun := hinv.running hserver
    refine ⟨hrun.calls, ?_, hrun.newer, p.stored, ?_, fun k => Versioned.atLeast_refl _⟩
    · rw [store.read_flush, hrun.stored]
    · rw [store.crash_flush, store.read_flush, hrun.stored]
  | stopped => exact store.crash_flush h.db
  | crashed => exact store.crash_crash h.db
  | @started s hserver hread =>
    -- the process before has left everything on the disk
    have hdown : store.crash h.db = h.db := by
      unfold Inv at hinv
      rwa [hserver] at hinv
    refine ⟨(PluginNodeServer.initial_idle s).inv, hread, fun k => Versioned.atLeast_refl _, s, ?_,
      fun k => Versioned.atLeast_refl _⟩
    rw [hdown, hread]

/-- What a process would read has the entries. -/
def Stores (h : Host store) (entries : List SignerStateEntry) : Prop :=
  ∃ s, store.read h.db = .ok s ∧ PluginNodeServer.StoredAtLeast s entries

/-- Wherever the state of the node is read from, it has the entries. -/
structure Keeps (json : SerdeJson Value) (h : Host store) (entries : List SignerStateEntry) : Prop where
  stores : h.Stores entries
  memory : ∀ p, h.server = some p → PluginNodeServer.StoredAtLeast p.signerState entries
  starts : h.server = none → ∃ s, h.step json .start = some ⟨h.db, some (.idle s)⟩ ∧
    PluginNodeServer.StoredAtLeast s entries

end Host

end Greenlight.Plugin
