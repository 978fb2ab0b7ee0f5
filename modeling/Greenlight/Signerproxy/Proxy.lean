import Greenlight.Lib.Loop
import Greenlight.Signerproxy.Wire

/-!
# The request loop of the HSM proxy

`process_requests` of `hsmproxy.rs` reads messages from lightningd, makes a new client connection, answers, or forwards
them to the node, until something fails.  It trusts the frames that it gets: a body without a type, or one of
`hsmd_client_hsmfd` that is too short for its context, is a panic and not an error, and so is a response of the node
without a type (`processRequests_iff`).
-/

namespace Greenlight.Signerproxy

open Greenlight.Lib DaemonConnection

structure HsmRequestContext where
  dbid : UInt64
  nodeId : Bytes
  capabilities : UInt64
  deriving DecidableEq, Repr

/-- What is forwarded of a message; the other fields of the request are empty. -/
structure HsmRequest where
  requestId : UInt32
  context : Option HsmRequestContext
  raw : Bytes
  deriving DecidableEq, Repr

/-- `&b[start..stop]`; it panics if the slice is not within the bytes. -/
def slice (b : Bytes) (start stop : ℕ) : Option Bytes :=
  if start ≤ stop ∧ stop ≤ b.length then some ((b.drop start).take (stop - start)) else none

variable {Fd : Type}

/-- `from_client_hsmfd_msg`; `none` is a panic. -/
def HsmRequestContext.fromClientHsmfdMsg (msg : Message Fd) : Option (Except String HsmRequestContext) :=
  if msg.typ ≠ 9 then some (.error "message is not an init")
  else do
    let nodeId ← slice msg.body 2 35
    let dbid ← getU64 (← slice msg.body 35 43)
    let caps ← getU64 (← slice msg.body 43 51)
    return .ok ⟨dbid, nodeId, caps⟩

/-- The world of a proxy: the node, by the number of the round in which it is asked, the counter that is shared with
the other connections, and the operating system. -/
structure Backend (Fd : Type) where
  ping : Except String Unit
  requestId : ℕ → UInt32
  request : ℕ → HsmRequest → Except String Bytes
  pair : ℕ → Except String Fd
  write : ℕ → Message Fd → Except String Unit

inductive Exit where
  | ok
  | err (message : String)
  | panic
  deriving DecidableEq, Repr

section

variable (backend : Backend Fd) (context : Option HsmRequestContext)

/-- The messages of the loop by their type; `none` is a panic.  A handler for the new connection runs in a thread of
its own. -/
def handleMessage (round : ℕ) (msg : Message Fd) : Option (Except String Unit) :=
  if msg.typ = 9 then do
    match ← HsmRequestContext.fromClientHsmfdMsg msg with
    | .error e => return .error e
    | .ok _ =>
      match backend.pair round with
      | .error e => return .error e
      | .ok remote =>
        let msg ← Message.newWithFds [0, 109] [remote]
        return backend.write round msg
  else if msg.typ = 28 then do
    let msg ← Message.new [0, 128, 1]
    return backend.write round msg
  else
    match backend.request round ⟨backend.requestId round, context, msg.body⟩ with
    | .error e => return .error e
    | .ok raw => do
      let msg ← Message.new raw
      return backend.write round msg

/-- One round of the loop: it goes on with what is left on the socket, or ends. -/
def processRound : ℕ × Socket Fd → (ℕ × Socket Fd) ⊕ Exit
  | (round, sock) =>
    match read sock with
    | .error .panic => .inr .panic
    | .error _ => .inr (.err "Connection lost")
    | .ok (msg, sock) =>
      match handleMessage backend context round msg with
      | none => .inr .panic
      | some (.error e) => .inr (.err e)
      | some (.ok ()) => .inl (round + 1, sock)

end

/-! ### Frames -/

/-- The body of the frame in front of the socket, and what follows it. -/
def frame? (sock : Socket Fd) : Option (Bytes × Socket Fd) :=
  let msglen := beNat ((sock.take 4).map Prod.fst)
  if sock.length < 4 + msglen then none
  else some (((sock.drop 4).take msglen).map Prod.fst, sock.drop (4 + msglen))

theorem isSome_readU16_iff (b : Bytes) : (readU16 b).isSome ↔ 2 ≤ b.length := by
  match b with
  | [] => simp [readU16]
  | [_] => simp [readU16]
  | _ :: _ :: _ => simp [readU16]

theorem Message.isSome_newWithFds_iff (raw : Bytes) (fds : List Fd) :
    (Message.newWithFds raw fds).isSome ↔ 2 ≤ raw.length := by
  rw [← isSome_readU16_iff]
  unfold Message.newWithFds
  split
  · rename_i h
    simp [h]
  · rename_i typ h
    simp [h]

/-- The descriptor of a type that comes with one is next on the socket. -/
def FdsFollow (typ : UInt16) (sock : Socket Fd) : Prop := typ = 109 → ∃ b fd rest, sock = (b, some fd) :: rest

theorem read_eq (sock : Socket Fd) : read sock =
    match frame? sock with
    | none => .error (.unexpectedEof "failed to fill whole buffer")
    | some (buf, rest) =>
      match readU16 buf with
      | none => .error .panic
      | some typ => do
        let (fds, rest) ← readN recvFd (countFds typ) rest
        match if fds.length = 0 then Message.new buf else Message.newWithFds buf fds with
        | none => throw .panic
        | some msg => return (msg, rest) := by
  unfold DaemonConnection.read readExact frame?
  by_cases h4 : sock.length < 4
  · have hshort : sock.length < 4 + beNat ((sock.take 4).map Prod.fst) := by omega
    rw [if_pos h4, if_pos hshort]
    rfl
  · rw [if_neg h4]
    dsimp only [bind, Except.bind]
    -- the length is there, so what is missing can only be missing behind it
    by_cases hlen : sock.length < 4 + beNat ((sock.take 4).map Prod.fst)
    · have hrest : (sock.drop 4).length < beNat ((sock.take 4).map Prod.fst) := by
        rw [List.length_drop]
        omega
      rw [if_pos hrest, if_pos hlen]
    · have hrest : ¬ (sock.drop 4).length < beNat ((sock.take 4).map Prod.fst) := by
        rw [List.length_drop]
        omega
      have hfull : ¬ (((sock.drop 4).take (beNat ((sock.take 4).map Prod.fst))).map Prod.fst).length <
          beNat ((sock.take 4).map Prod.fst) := by
        rw [List.length_map, List.length_take]
        omega
      rw [if_neg hrest, if_neg hlen]
      dsimp only
      rw [if_neg hfull, List.drop_drop]
      rfl

/-- The descriptors of a message are read if they follow its body. -/
theorem readN_recvFd (typ : UInt16) (sock : Socket Fd) :
    (FdsFollow typ sock ∧ ∃ fds rest, readN recvFd (countFds typ) sock = .ok (fds, rest) ∧
      rest.length ≤ sock.length) ∨
    (¬ FdsFollow typ sock ∧ ∃ e, readN recvFd (countFds typ) sock = .error e ∧ e ≠ .panic) := by
  by_cases htyp : typ = 109
  · have hcount : countFds typ = 1 := if_pos htyp
    rw [hcount]
    unfold FdsFollow
    match sock with
    | [] => exact Or.inr ⟨by simp [htyp], _, rfl, by simp⟩
    | (b, none) :: rest => exact Or.inr ⟨by simp [htyp], _, rfl, by simp⟩
    | (b, some fd) :: rest => exact Or.inl ⟨fun _ => ⟨b, fd, rest, rfl⟩, _, _, rfl, by simp⟩
  · have hcount : countFds typ = 0 := if_neg htyp
    rw [hcount]
    exact Or.inl ⟨fun h => absurd h htyp, [], sock, rfl, le_rfl⟩

/-- What `read` makes of the frame in front of the socket. -/
inductive ReadOutcome (sock : Socket Fd) : Except ReadError (Message Fd × Socket Fd) → Prop
  | eof {e : ReadError} (hframe : frame? sock = none) (he : e ≠ .panic) : ReadOutcome sock (.error e)
  | untyped {buf : Bytes} {rest : Socket Fd} (hframe : frame? sock = some (buf, rest)) (hlen : buf.length < 2) :
      ReadOutcome sock (.error .panic)
  | noFd {buf : Bytes} {rest : Socket Fd} {typ : UInt16} {e : ReadError} (hframe : frame? sock = some (buf, rest))
      (htyp : readU16 buf = some typ) (hfds : ¬ FdsFollow typ rest) (he : e ≠ .panic) : ReadOutcome sock (.error e)
  | message {msg : Message Fd} {rest left : Socket Fd} (hframe : frame? sock = some (msg.body, rest))
      (hfds : FdsFollow msg.typ rest) (hleft : left.length ≤ rest.length) : ReadOutcome sock (.ok (msg, left))

theorem read_outcome (sock : Socket Fd) : ReadOutcome sock (read sock) := by
  rw [read_eq]
  cases hframe : frame? sock with
  | none => exact .eof hframe (by simp)
  | some frame =>
    obtain ⟨buf, rest⟩ := frame
    dsimp only
    cases htyp : readU16 buf with
    | none =>
      have hlen : ¬ 2 ≤ buf.length := by simp [← isSome_readU16_iff, htyp]
      exact .untyped hframe (not_le.1 hlen)
    | some typ =>
      dsimp only
      rcases readN_recvFd typ rest with ⟨hfds, fds, left, hread, hleft⟩ | ⟨hfds, e, hread, he⟩
      · rw [hread]
        have hmsg : (if fds.length = 0 then Message.new buf else Message.newWithFds buf fds) =
            some ⟨typ, buf, fds, htyp⟩ := by
          have hnew : Message.newWithFds buf fds = some ⟨typ, buf, fds, htyp⟩ :=
            Message.newWithFds_eq ⟨typ, buf, fds, htyp⟩
          split_ifs with h0
          · rw [List.length_eq_zero_iff.1 h0] at hnew ⊢
            exact hnew
          · exact hnew
        dsimp only [bind, Except.bind]
        rw [hmsg]
        exact .message hframe hfds hleft
      · rw [hread]
        exact .noFd hframe htyp hfds he

theorem length_lt_of_read {sock left : Socket Fd} {msg : Message Fd} (h : read sock = .ok (msg, left)) :
    left.length < sock.length := by
  have hout := read_outcome sock
  rw [h] at hout
  cases hout with
  | message hframe _ hleft =>
    unfold frame? at hframe
    dsimp only at hframe
    split_ifs at hframe with hlen
    obtain ⟨-, rfl⟩ := Prod.mk.inj (Option.some.inj hframe)
    rw [List.length_drop] at hleft
    omega

/-! ### One round -/

theorem isSome_slice_iff (b : Bytes) {start stop : ℕ} (h : start ≤ stop) :
    (slice b start stop).isSome ↔ stop ≤ b.length := by
  unfold slice
  by_cases hstop : stop ≤ b.length <;> simp [h, hstop]

theorem length_slice {b c : Bytes} {start stop : ℕ} (h : slice b start stop = some c) : c.length = stop - start := by
  unfold slice at h
  split_ifs at h with hbounds
  obtain ⟨hle, hstop⟩ := hbounds
  rw [← Option.some.inj h, List.length_take, List.length_drop]
  omega

theorem isSome_slice_getU64_iff (b : Bytes) (start : ℕ) :
    (slice b start (start + 8) >>= getU64).isSome ↔ start + 8 ≤ b.length := by
  have hslice := isSome_slice_iff b (Nat.le_add_right start 8)
  cases h : slice b start (start + 8) with
  | none =>
    rw [h] at hslice
    exact hslice
  | some c =>
    have hc : 8 ≤ c.length := by rw [length_slice h]; omega
    rw [h] at hslice
    exact iff_of_true ((isSome_getU64_iff c).2 hc) (hslice.1 rfl)

theorem isSome_fromClientHsmfdMsg_iff (msg : Message Fd) :
    (HsmRequestContext.fromClientHsmfdMsg msg).isSome ↔ (msg.typ = 9 → 51 ≤ msg.body.length) := by
  by_cases htyp : msg.typ = 9
  · have hparse : HsmRequestContext.fromClientHsmfdMsg msg = do
        let nodeId ← slice msg.body 2 35
        let dbid ← slice msg.body 35 (35 + 8) >>= getU64
        let caps ← slice msg.body 43 (43 + 8) >>= getU64
        return .ok ⟨dbid, nodeId, caps⟩ := by
      unfold HsmRequestContext.fromClientHsmfdMsg
      rw [if_neg (not_not.2 htyp)]
      simp only [Option.bind_eq_bind, Option.bind_assoc]
    have hid := isSome_slice_iff msg.body (by decide : 2 ≤ 35)
    have hdbid := isSome_slice_getU64_iff msg.body 35
    have hcaps := isSome_slice_getU64_iff msg.body 43
    rw [hparse]
    simp only [htyp, true_imp_iff]
    -- the last slice reaches farthest
    generalize slice msg.body 2 35 = nodeId at hid
    generalize (slice msg.body 35 (35 + 8) >>= getU64) = dbid at hdbid
    generalize (slice msg.body 43 (43 + 8) >>= getU64) = caps at hcaps
    cases caps with
    | none =>
      have hlen : ¬ 51 ≤ msg.body.length := by simpa using hcaps
      exact iff_of_false (by cases nodeId <;> cases dbid <;> simp) hlen
    | some caps =>
      have hlen : 51 ≤ msg.body.length := by simpa using hcaps
      obtain ⟨id, rfl⟩ := Option.isSome_iff_exists.1 (hid.2 (by omega))
      obtain ⟨db, rfl⟩ := Option.isSome_iff_exists.1 (hdbid.2 (by omega))
      exact iff_of_true rfl hlen
  · have herr : HsmRequestContext.fromClientHsmfdMsg msg = some (.error "message is not an init") := if_pos htyp
    rw [herr]
    exact iff_of_true rfl fun h => absurd h htyp

section

variable {backend : Backend Fd} {context : Option HsmRequestContext} {round : ℕ} {sock : Socket Fd}

/-- A frame that a round handles, and a response that it can pass on. -/
structure FrameOk (backend : Backend Fd) (context : Option HsmRequestContext) (round : ℕ) (sock : Socket Fd) :
    Prop where
  typed : ∀ buf rest, frame? sock = some (buf, rest) → 2 ≤ buf.length
  clientHsmfd : ∀ buf rest, frame? sock = some (buf, rest) → readU16 buf = some 9 → 51 ≤ buf.length
  response : ∀ buf rest typ raw, frame? sock = some (buf, rest) → readU16 buf = some typ → typ ≠ 9 → typ ≠ 28 →
    FdsFollow typ rest → backend.request round ⟨backend.requestId round, context, buf⟩ = .ok raw → 2 ≤ raw.length

theorem isSome_handleMessage_iff (msg : Message Fd) : (handleMessage backend context round msg).isSome ↔
    (msg.typ = 9 → 51 ≤ msg.body.length) ∧ (msg.typ ≠ 9 → msg.typ ≠ 28 →
      ∀ raw, backend.request round ⟨backend.requestId round, context, msg.body⟩ = .ok raw → 2 ≤ raw.length) := by
  unfold handleMessage
  by_cases h9 : msg.typ = 9
  · have hctx := isSome_fromClientHsmfdMsg_iff msg
    simp only [h9, if_true, ne_eq, not_true, false_imp_iff, and_true, true_imp_iff] at hctx ⊢
    rw [← hctx]
    cases HsmRequestContext.fromClientHsmfdMsg msg with
    | none => simp
    | some ctx =>
      cases ctx with
      | error e => simp
      | ok ctx =>
        cases backend.pair round with
        | error e => simp
        | ok remote =>
          -- the message that hands over the connection has a type
          obtain ⟨msg', hmsg'⟩ := Option.isSome_iff_exists.1
            ((Message.isSome_newWithFds_iff [0, 109] [remote]).2 le_rfl)
          simp [hmsg']
  · by_cases h28 : msg.typ = 28
    · obtain ⟨msg', hmsg'⟩ := Option.isSome_iff_exists.1
        ((Message.isSome_newWithFds_iff [0, 128, 1] ([] : List Fd)).2 (by decide))
      have hnew : Message.new [0, 128, 1] = some msg' := hmsg'
      simp [h28, hnew]
    · rw [if_neg h9, if_neg h28]
      cases backend.request round ⟨backend.requestId round, context, msg.body⟩ with
      | error e => simp [h9]
      | ok raw =>
        have hraw := Message.isSome_newWithFds_iff raw ([] : List Fd)
        have hnew : Message.new raw = Message.newWithFds raw ([] : List Fd) := rfl
        simp only [hnew, h9, h28, ne_eq, not_false_eq_true, true_imp_iff, false_imp_iff, true_and,
          Except.ok.injEq, forall_eq']
        rw [← hraw]
        cases Message.newWithFds raw ([] : List Fd) <;> simp

theorem processRound_of_error {e : ReadError} (h : read sock = .error e) (he : e ≠ .panic) :
    processRound backend context (round, sock) = .inr (.err "Connection lost") := by
  simp only [processRound, h]

theorem processRound_of_ok {msg : Message Fd} {left : Socket Fd} (h : read sock = .ok (msg, left)) :
    processRound backend context (round, sock) ≠ .inr .panic ↔ (handleMessage backend context round msg).isSome := by
  simp only [processRound, h]
  cases handleMessage backend context round msg with
  | none => simp
  | some r => cases r <;> simp

theorem processRound_ne_panic_iff :
    processRound backend context (round, sock) ≠ .inr .panic ↔ FrameOk backend context round sock := by
  have hout := read_outcome sock
  generalize hread : read sock = result at hout
  cases hout with
  | eof hframe he =>
    rw [processRound_of_error hread he]
    refine iff_of_true (by simp) ⟨?_, ?_, ?_⟩ <;> simp [hframe]
  | @untyped buf rest hframe hlen =>
    refine iff_of_false (not_not.2 ?_) fun h => (h.typed buf rest hframe).not_gt hlen
    simp only [processRound, hread]
  | @noFd buf rest typ e hframe htyp hfds he =>
    rw [processRound_of_error hread he]
    have hlen : 2 ≤ buf.length := (isSome_readU16_iff buf).1 (by rw [htyp]; rfl)
    refine iff_of_true (by simp) ⟨?_, ?_, ?_⟩ <;> simp only [hframe, Option.some.injEq, Prod.mk.injEq]
    · rintro _ _ ⟨rfl, rfl⟩
      exact hlen
    · rintro _ _ ⟨rfl, rfl⟩ h9
      -- a message of this type has no descriptor that could be missing
      cases htyp.symm.trans h9
      exact absurd (fun h => absurd h (by decide)) hfds
    · rintro _ _ typ' raw ⟨rfl, rfl⟩ htyp' _ _ hfds' _
      cases htyp.symm.trans htyp'
      exact absurd hfds' hfds
  | @message msg rest left hframe hfds hleft =>
    rw [processRound_of_ok hread, isSome_handleMessage_iff]
    constructor
    · rintro ⟨h9, hresponse⟩
      refine ⟨?_, ?_, ?_⟩ <;> simp only [hframe, Option.some.injEq, Prod.mk.injEq]
      · rintro _ _ ⟨rfl, rfl⟩
        exact (isSome_readU16_iff _).1 (by rw [msg.typ_eq]; rfl)
      · rintro _ _ ⟨rfl, rfl⟩ htyp
        exact h9 (Option.some.inj (msg.typ_eq.symm.trans htyp))
      · rintro _ _ typ raw ⟨rfl, rfl⟩ htyp hne9 hne28 _ hraw
        cases msg.typ_eq.symm.trans htyp
        exact hresponse hne9 hne28 raw hraw
    · intro h
      refine ⟨fun htyp => ?_, fun hne9 hne28 raw hraw => ?_⟩
      · exact h.clientHsmfd _ _ hframe (htyp ▸ msg.typ_eq)
      · exact h.response _ _ _ raw hframe msg.typ_eq hne9 hne28 hfds hraw

theorem processRound_ne_ok (state : ℕ × Socket Fd) : processRound backend context state ≠ .inr .ok := by
  obtain ⟨round, sock⟩ := state
  unfold processRound
  dsimp only
  split
  · simp
  · simp
  · split <;> simp

end

/-! ### The loop -/

/-- The loop of `process_requests`: every round takes a message off the socket. -/
def requestLoop (backend : Backend Fd) (context : Option HsmRequestContext) : Loop (ℕ × Socket Fd) Exit where
  body := processRound backend context
  measure state := state.2.length
  decreases := by
    rintro ⟨round, sock⟩ ⟨round', left⟩ h
    unfold processRound at h
    dsimp only at h
    split at h
    · cases h
    · cases h
    · rename_i msg rest hread
      split at h
      · cases h
      · cases h
      · obtain ⟨-, rfl⟩ := Prod.mk.inj (Sum.inl.inj h)
        exact length_lt_of_read hread

def processRequests (backend : Backend Fd) (context : Option HsmRequestContext) (sock : Socket Fd) : Exit :=
  match backend.ping with
  | .error e => .err e
  | .ok () => (requestLoop backend context).run (0, sock)

/-- The loop gets to the round, with this left on the socket. -/
def GetsTo (backend : Backend Fd) (context : Option HsmRequestContext) (sock : Socket Fd) (round : ℕ)
    (left : Socket Fd) : Prop :=
  backend.ping = .ok () ∧ (requestLoop backend context).Reaches (0, sock) (round, left)

/-- **Frames that crash the proxy.**  No round panics and the proxy ends with an error if and only if every frame
that it gets to has a type, the ones that ask for a connection have room for a context, and every response to a
forwarded one has a type. -/
theorem processRequests_iff (backend : Backend Fd) (context : Option HsmRequestContext) (sock : Socket Fd) :
    ((∀ round left, GetsTo backend context sock round left → read left ≠ .error .panic ∧
        ∀ msg rest, read left = .ok (msg, rest) → HsmRequestContext.fromClientHsmfdMsg msg ≠ none) ∧
      ∃ e, processRequests backend context sock = .err e) ↔
      ∀ round left, GetsTo backend context sock round left → FrameOk backend context round left := by
  constructor
  · rintro ⟨-, e, he⟩ round left ⟨hping, hreach⟩
    rw [← processRound_ne_panic_iff]
    intro hpanic
    -- past the ping the requests are the run of the loop
    have hrun : processRequests backend context sock = (requestLoop backend context).run (0, sock) := by
      simp only [processRequests, hping]
    rw [hrun, hreach.run_eq, Loop.run_inr hpanic] at he
    cases he
  · intro hok
    refine ⟨fun round left hgets => ?_, ?_⟩
    · have hround := processRound_ne_panic_iff.2 (hok round left hgets)
      refine ⟨fun hread => hround (by simp only [processRound, hread]), fun msg rest hread hctx => ?_⟩
      have hhandled := (isSome_handleMessage_iff msg).1 ((processRound_of_ok hread).1 hround)
      have hsome := (isSome_fromClientHsmfdMsg_iff msg).2 hhandled.1
      rw [hctx] at hsome
      cases hsome
    · cases hping : backend.ping with
      | error e => exact ⟨e, by simp only [processRequests, hping]⟩
      | ok u =>
        have hrun : processRequests backend context sock = (requestLoop backend context).run (0, sock) := by
          simp only [processRequests, hping]
        rw [hrun]
        -- the loop ends with an error or a panic, and no round that is reached panics
        refine (Loop.run_iff (P := fun r : Exit => ∃ e, r = .err e)).2 ?_
        rintro ⟨round, left⟩ r hreach hr
        cases r with
        | err e => exact ⟨e, rfl⟩
        | ok =>
          have hround : processRound backend context (round, left) = .inr .ok := hr
          exact absurd hround (processRound_ne_ok _)
        | panic =>
          have hround : processRound backend context (round, left) = .inr .panic := hr
          exact absurd hround (processRound_ne_panic_iff.2 (hok round left ⟨hping, hreach⟩))

def plainBackend : Backend ℕ where
  ping := .ok ()
  requestId round := .ofNat (1000 + round)
  request _ _ := .ok [0, 1]
  pair _ := .ok 7
  write _ _ := .ok ()

/-- A frame of length zero. -/
theorem processRequests_emptyFrame : ¬ ∀ (backend : Backend ℕ) (context : Option HsmRequestContext)
    (sock : Socket ℕ), (∀ round left, GetsTo backend context sock round left → read left ≠ .error .panic ∧
        ∀ msg rest, read left = .ok (msg, rest) → HsmRequestContext.fromClientHsmfdMsg msg ≠ none) ∧
      ∃ e, processRequests backend context sock = .err e := by
  intro h
  have hread := ((h plainBackend none (sendBytes [0, 0, 0, 0])).1 0 _ ⟨rfl, .refl⟩).1
  exact hread (by rfl)

end Greenlight.Signerproxy
