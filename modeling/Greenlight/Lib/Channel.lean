import Mathlib.Data.List.Basic
import Mathlib.Data.List.Infix

/-!
# Channels

A bounded queue with one receiver (`Mpsc`) and a channel that hands every value to every subscriber
(`Broadcast`), each with everything that was sent through it.  A reader that is handed a list and subscribes at
the same moment gets the list and then what is sent, nothing twice and nothing left out
(`Broadcast.Follows`).
-/

namespace Greenlight.Lib

variable {α : Type*}

/-! ### One receiver -/

/-- A bounded queue: the values it took in, how many of them the receiver has taken out, and whether the receiver is
gone. -/
structure Mpsc (α : Type*) where
  capacity : ℕ
  sent : List α
  taken : ℕ
  closed : Bool
  deriving DecidableEq, Repr

namespace Mpsc

inductive Sent (α : Type*) where
  | accepted (c : Mpsc α)
  /-- The receiver is gone. -/
  | refused
  /-- There is no room, and the sender waits for it. -/
  | waits

def new (capacity : ℕ) : Mpsc α := ⟨capacity, [], 0, false⟩

def send (c : Mpsc α) (a : α) : Sent α :=
  if c.closed then .refused
  else if c.sent.length - c.taken < c.capacity then .accepted { c with sent := c.sent ++ [a] }
  else .waits

/-- The next value, if the receiver need not wait for it. -/
def recv (c : Mpsc α) : Option (α × Mpsc α) :=
  if c.closed then none else c.sent[c.taken]?.map fun a => (a, { c with taken := c.taken + 1 })

/-- The receiver goes. -/
def close (c : Mpsc α) : Mpsc α := { c with closed := true }

theorem send_eq_accepted {c c' : Mpsc α} {a : α} (h : c.send a = .accepted c') :
    c' = { c with sent := c.sent ++ [a] } := by
  unfold send at h
  split_ifs at h
  exact (Sent.accepted.inj h).symm

theorem not_closed_of_send {c c' : Mpsc α} {a : α} (h : c.send a = .accepted c') : c.closed = false := by
  unfold send at h
  split_ifs at h with hclosed
  exact Bool.eq_false_iff.2 hclosed

theorem closed_of_send {c : Mpsc α} {a : α} (h : c.send a = .refused) : c.closed = true := by
  unfold send at h
  split_ifs at h with hclosed
  exact hclosed

theorem recv_eq_some {c c' : Mpsc α} {a : α} (h : c.recv = some (a, c')) :
    c' = { c with taken := c.taken + 1 } := by
  unfold recv at h
  split_ifs at h
  obtain ⟨b, -, hb⟩ := Option.map_eq_some_iff.1 h
  exact (Prod.mk.inj hb).2.symm

theorem mem_of_recv {c c' : Mpsc α} {a : α} (h : c.recv = some (a, c')) : a ∈ c.sent := by
  unfold recv at h
  split_ifs at h
  obtain ⟨b, hb, heq⟩ := Option.map_eq_some_iff.1 h
  cases heq
  exact List.mem_of_getElem? hb

theorem send_ne_waits {c : Mpsc α} (a : α) (hcap : 0 < c.capacity) (hsent : c.sent = []) :
    c.send a ≠ .waits := by
  unfold send
  rw [hsent]
  split_ifs with hclosed hroom
  · simp
  · simp
  · exact absurd hcap (by simpa using hroom)

end Mpsc

/-! ### Many subscribers -/

/-- A broadcast channel: the values sent through it, of which it keeps the latest `capacity`. -/
structure Broadcast (α : Type*) where
  capacity : ℕ
  sent : List α
  deriving DecidableEq, Repr

namespace Broadcast

/-- What a receiver gets, with its place after that. -/
inductive Received (α : Type*) where
  | value (a : α) (next : ℕ)
  /-- Values it had not seen are gone. -/
  | lagged (missed : ℕ) (next : ℕ)
  | waits
  deriving DecidableEq, Repr

def new (capacity : ℕ) : Broadcast α := ⟨capacity, []⟩

def send (b : Broadcast α) (a : α) : Broadcast α := { b with sent := b.sent ++ [a] }

/-- The place of a new receiver: behind everything sent so far. -/
def subscribe (b : Broadcast α) : ℕ := b.sent.length

/-- A receiver gets the value at its place, unless it is more than the capacity behind. -/
def recv (b : Broadcast α) (pos : ℕ) : Received α :=
  if b.capacity < b.sent.length - pos then
    .lagged (b.sent.length - pos - b.capacity) (b.sent.length - b.capacity)
  else
    match b.sent[pos]? with
    | some a => .value a (pos + 1)
    | none => .waits

variable {b : Broadcast α} {initial given rest : List α} {start pos : ℕ}

theorem recv_eq_value {a : α} {next : ℕ} (h : b.recv pos = .value a next) :
    b.sent[pos]? = some a ∧ next = pos + 1 := by
  unfold recv at h
  split_ifs at h
  split at h
  · rename_i a' ha
    obtain ⟨rfl, rfl⟩ := Received.value.inj h
    exact ⟨ha, rfl⟩
  · cases h

theorem recv_eq_lagged {missed next : ℕ} (h : b.recv pos = .lagged missed next) :
    b.capacity < b.sent.length - pos ∧ next = b.sent.length - b.capacity := by
  unfold recv at h
  split_ifs at h with hlag
  · obtain ⟨-, rfl⟩ := Received.lagged.inj h
    exact ⟨hlag, rfl⟩
  · split at h <;> cases h

theorem le_of_recv_eq_waits (h : b.recv pos = .waits) : b.sent.length ≤ pos := by
  unfold recv at h
  split_ifs at h
  split at h
  · cases h
  · rename_i hnone
    exact List.getElem?_eq_none_iff.1 hnone

/-- A reader was handed the list `initial` when it subscribed at `start`, and it has read `given` since; it is still
to read the `rest` of the list and what was sent from `pos` on. -/
structure Follows (b : Broadcast α) (initial : List α) (start : ℕ) (given rest : List α) (pos : ℕ) : Prop where
  start_le : start ≤ b.sent.length
  pos_le : pos ≤ b.sent.length
  eq_append : given ++ rest ++ b.sent.drop pos = initial ++ b.sent.drop start

theorem follows_subscribe (b : Broadcast α) (initial : List α) :
    b.Follows initial b.subscribe [] initial b.subscribe :=
  ⟨le_rfl, le_rfl, rfl⟩

theorem Follows.send (h : b.Follows initial start given rest pos) (a : α) :
    (b.send a).Follows initial start given rest pos := by
  have hlen : (b.send a).sent.length = b.sent.length + 1 := by simp [Broadcast.send]
  refine ⟨by have := h.start_le; omega, by have := h.pos_le; omega, ?_⟩
  have hdrop : ∀ {n : ℕ}, n ≤ b.sent.length → (b.send a).sent.drop n = b.sent.drop n ++ [a] := fun hn =>
    List.drop_append_of_le_length hn
  rw [hdrop h.pos_le, hdrop h.start_le, ← List.append_assoc, h.eq_append, List.append_assoc]

theorem Follows.pop {a : α} (h : b.Follows initial start given (a :: rest) pos) :
    b.Follows initial start (given ++ [a]) rest pos := by
  refine ⟨h.start_le, h.pos_le, ?_⟩
  rw [← h.eq_append]
  simp

theorem Follows.recv {a : α} {next : ℕ} (h : b.Follows initial start given [] pos)
    (hrecv : b.recv pos = .value a next) : b.Follows initial start (given ++ [a]) [] next := by
  obtain ⟨ha, rfl⟩ := recv_eq_value hrecv
  obtain ⟨hlt, rfl⟩ := List.getElem?_eq_some_iff.1 ha
  refine ⟨h.start_le, hlt, ?_⟩
  rw [← h.eq_append, List.drop_eq_getElem_cons hlt]
  simp

/-- What was read is the beginning of what there is to read. -/
theorem Follows.isPrefix (h : b.Follows initial start given rest pos) :
    given <+: initial ++ b.sent.drop start := by
  rw [← h.eq_append, List.append_assoc]
  exact List.prefix_append _ _

/-- A reader that would have to wait has read everything. -/
theorem Follows.eq_of_waits (h : b.Follows initial start given [] pos) (hrecv : b.recv pos = .waits) :
    given = initial ++ b.sent.drop start := by
  rw [← h.eq_append, List.drop_eq_nil_of_le (le_of_recv_eq_waits hrecv)]
  simp

end Broadcast

end Greenlight.Lib
