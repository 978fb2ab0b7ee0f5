import Greenlight.Lib.BigEndian
import Greenlight.Lib.Codec

/-!
# The protocol between the daemons

`wire.rs` and `passfd.rs`: a message goes over a Unix socket as its length, its body, and its descriptors.  The
socket is a stream of bytes; a descriptor is sent along with one byte of its own (`SCM_RIGHTS`), and a read of
plain bytes that comes upon it loses it.  How many descriptors belong to a message is not on the stream, the reader
takes it from the type of the message.  `readN_write` says that no message shifts the next one.
-/

namespace Greenlight.Signerproxy

open Greenlight.Lib

/-- `BigEndian::read_u16`; it panics if there are less than two bytes. -/
def readU16 : Bytes → Option UInt16
  | h :: l :: _ => some (h.toUInt16 <<< 8 ||| l.toUInt16)
  | _ => none

/-- A message.  Its type is private and every constructor reads it from the body, so it is the one the body begins
with.  `Fd` is what a descriptor refers to; its number differs between the two ends of a socket. -/
structure Message (Fd : Type) where
  typ : UInt16
  body : Bytes
  fds : List Fd
  typ_eq : readU16 body = some typ

variable {Fd : Type}

namespace Message

def newWithFds (raw : Bytes) (fds : List Fd) : Option (Message Fd) :=
  match h : readU16 raw with
  | none => none
  | some typ => some ⟨typ, raw, fds, h⟩

def new (raw : Bytes) : Option (Message Fd) := newWithFds raw []

theorem newWithFds_eq (m : Message Fd) : newWithFds m.body m.fds = some m := by
  unfold newWithFds
  split
  · rename_i h
    cases h.symm.trans m.typ_eq
  · rename_i typ h
    cases h.symm.trans m.typ_eq
    rfl

end Message

/-- A socket: the bytes that are under way, each with the descriptor that was sent with it. -/
abbrev Socket (Fd : Type) := List (UInt8 × Option Fd)

inductive ReadError where
  | unexpectedEof (message : String)
  | invalidData (message : String)
  | other (message : String)
  | panic
  deriving DecidableEq, Repr

/-- `write_all`. -/
def sendBytes (b : Bytes) : Socket Fd := b.map (·, none)

/-- `read_exact`: a descriptor that came with one of the bytes is lost. -/
def readExact (n : ℕ) (sock : Socket Fd) : Except ReadError (Bytes × Socket Fd) :=
  if sock.length < n then .error (.unexpectedEof "failed to fill whole buffer")
  else .ok ((sock.take n).map Prod.fst, sock.drop n)

/-- `send_fd`: the descriptor goes with a zero byte. -/
def sendFd (fd : Fd) : Socket Fd := [(0, some fd)]

def recvFd : Socket Fd → Except ReadError (Fd × Socket Fd)
  | [] => .error (.unexpectedEof "0 bytes read")
  | (_, none) :: _ => .error (.invalidData "bad control msg (header)")
  | (_, some fd) :: sock => .ok (fd, sock)

namespace DaemonConnection

/-- `count_fds`: how many descriptors come with a message of the type. -/
def countFds (typ : UInt16) : ℕ := if typ = 109 then 1 else 0

/-- `read`: the message, and what is left on the socket. -/
def read (sock : Socket Fd) : Except ReadError (Message Fd × Socket Fd) := do
  let (lenBuf, sock) ← readExact 4 sock
  let msglen := beNat lenBuf
  let (buf, sock) ← readExact msglen sock
  if buf.length < msglen then throw (.other "Short read from client")
  else
    match readU16 buf with
    | none => throw .panic
    | some typ =>
      let (fds, sock) ← readN recvFd (countFds typ) sock
      match if fds.length = 0 then Message.new buf else Message.newWithFds buf fds with
      | none => throw .panic
      | some msg => return (msg, sock)

/-- `write`: what is put on the socket.  The length goes out as a `u32`. -/
def write (msg : Message Fd) : Socket Fd :=
  sendBytes (toBe 4 msg.body.length) ++ sendBytes msg.body ++ writeAll sendFd msg.fds

/-- A message the protocol has room for: the length fits the prefix, and it has the descriptors of its type. -/
structure Sendable (msg : Message Fd) : Prop where
  length_lt : msg.body.length < 2 ^ 32
  fds_length : msg.fds.length = countFds msg.typ

/-! ### Round trips -/

theorem readExact_sendBytes (b : Bytes) (rest : Socket Fd) :
    readExact b.length (sendBytes b ++ rest) = .ok (b, rest) := by
  have hlen : (sendBytes b : Socket Fd).length = b.length := by simp [sendBytes]
  have hbytes : (sendBytes b : Socket Fd).map Prod.fst = b := by simp [sendBytes, Function.comp_def]
  unfold readExact
  rw [if_neg (by simp [hlen]), ← hlen, List.take_left, List.drop_left, hbytes]

theorem reads_recvFd (fd : Fd) : Reads recvFd sendFd fd := fun _ => rfl

/-- One message is read back, whatever follows it. -/
theorem reads_write {msg : Message Fd} (h : Sendable msg) : Reads read write msg := by
  intro rest
  have hlen : readExact 4 (sendBytes (toBe 4 msg.body.length) ++
      (sendBytes msg.body ++ (writeAll sendFd msg.fds ++ rest))) =
      .ok (toBe 4 msg.body.length, sendBytes msg.body ++ (writeAll sendFd msg.fds ++ rest)) := by
    have := readExact_sendBytes (toBe 4 msg.body.length) (sendBytes msg.body ++ (writeAll sendFd msg.fds ++ rest))
    rwa [length_toBe] at this
  have hvalue : beNat (toBe 4 msg.body.length) = msg.body.length := by
    apply beNat_toBe
    have hlt := h.length_lt
    omega
  have hfds : readN recvFd (countFds msg.typ) (writeAll sendFd msg.fds ++ rest) = .ok (msg.fds, rest) := by
    rw [← h.fds_length]
    exact readN_writeAll (fun fd _ => reads_recvFd fd) rest
  have hmsg : (if msg.fds.length = 0 then Message.new msg.body else Message.newWithFds msg.body msg.fds) =
      some msg := by
    split_ifs with h0
    · have := msg.newWithFds_eq
      rwa [List.length_eq_zero_iff.1 h0] at this
    · exact msg.newWithFds_eq
  unfold read write
  rw [List.append_assoc, List.append_assoc]
  refine bind_eq_ok.2 ⟨_, hlen, ?_⟩
  dsimp only
  rw [hvalue]
  refine bind_eq_ok.2 ⟨_, readExact_sendBytes msg.body _, ?_⟩
  dsimp only
  rw [if_neg (lt_irrefl _), msg.typ_eq]
  refine bind_eq_ok.2 ⟨_, hfds, ?_⟩
  dsimp only
  rw [hmsg]
  rfl

/-- **The round trip of the daemons.**  What is written of a list of messages is read back as this list, and nothing
of it is left on the socket. -/
theorem readN_write {msgs : List (Message Fd)} (h : ∀ msg ∈ msgs, Sendable msg) :
    readN read msgs.length (writeAll write msgs) = .ok (msgs, []) := by
  have hread := readN_writeAll (fun msg hmsg => reads_write (h msg hmsg)) []
  rwa [List.append_nil] at hread

/-- A message that hands over the descriptor 7, and one of another type. -/
def clientHsmfd : List (Message ℕ) :=
  [⟨109, [0, 109, 1, 2], [7], rfl⟩, ⟨9, [0, 9], [], rfl⟩]

theorem readN_write_clientHsmfd :
    readN read clientHsmfd.length (writeAll write clientHsmfd) = .ok (clientHsmfd, []) := by
  refine readN_write fun msg hmsg => ?_
  rcases List.mem_cons.1 hmsg with rfl | hmsg
  · exact ⟨by decide, rfl⟩
  · obtain rfl := List.mem_singleton.1 hmsg
    exact ⟨by decide, rfl⟩

end DaemonConnection

end Greenlight.Signerproxy
