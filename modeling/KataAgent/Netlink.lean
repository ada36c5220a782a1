import KataAgent.Message
import KataAgent.RecordWalk

namespace KataAgent
open Fallible Records
set_option autoImplicit true

/-- `struct nlmsghdr`: length, type, flags, sequence number and port of a message. -/
def nlmsghdr : Format where
  header := 16
  width := 4
  width_le := by decide
  width_le_four := by decide
  header_pos := by decide

def nlmsgType (b : Bytes) : Nat := field b 4 2

def nlmsgSeq (b : Bytes) : Nat := field b 8 4

def nlmsgPid (b : Bytes) : Nat := field b 12 4

/-- The place of `error` in the message behind the header. -/
def nlmsgerrError (b : Bytes) : Nat := field b 16 4

def NLMSG_ERROR : Nat := 2

def NLMSG_DONE : Nat := 3

/-- `NLMSG_LENGTH` of `struct nlmsgerr`. -/
def nlmsgerrLength : Nat := 36

/-- A C `int`. -/
def toInt32 (n : Nat) : Int := if n < 2 ^ 31 then n else n - 2 ^ 32

/-- `Errno::from_i32` on Linux, where 41 and 58 are not in use. -/
def Errno.fromI32 (code : Int) : Errno :=
  if code = 2 then .ENOENT
  else if code = 4 then .EINTR
  else if code = 5 then Errno.EIO
  else if code = 16 then .EBUSY
  else if code = 22 then .EINVAL
  else if code = 32 then .EPIPE
  else if code = 62 then .ETIME
  else if code = 110 then .ETIMEDOUT
  else if 1 ≤ code ∧ code ≤ 133 ∧ code ≠ 41 ∧ code ≠ 58 then .other code.toNat
  else .UnknownErrno

def EBADMSG : Errno := .other 74

/-- The parts of a handle that the message loops read: its port and two sequence numbers. -/
structure RtnlHandle where
  pid : Nat
  seq : Nat
  dump : Nat
  deriving DecidableEq, Repr

/-- What a socket delivers at once. `answers` is the number of the request that the kernel answers
with it; the code does not see it. -/
structure Datagram where
  sender : Nat
  bytes : Bytes
  answers : Nat
  fits : bytes.length < 2 ^ 32
  deriving DecidableEq

/-- What the next `recvmsg` meets. -/
inductive Arrival where
  | datagram (d : Datagram)
  | failed (errno : Errno)
  deriving DecidableEq

def recvMessage : Arrival → Outcome ErrorKind Datagram
  | .failed errno => .err (.nix errno)
  | .datagram d => if d.sender ≠ 0 then .err (.nix EBADMSG) else .ok d

/-- How a function ends that reads from the socket, and what it leaves unread there. `source` is the
datagram with the message that decided the outcome, when a message did. -/
inductive Reception (α : Type) where
  | ended (o : Outcome ErrorKind α) (source : Option Datagram) (unread : List Arrival)
  /-- Nothing is left to read, so `recvmsg` blocks. -/
  | waiting
  /-- The loop over a datagram has left it, or does not end. -/
  | astray
  deriving DecidableEq

/-- A message in the buffer that it was received in. -/
structure Message where
  datagram : Datagram
  bytes : Bytes
  deriving DecidableEq

/-- The error of an `NLMSG_ERROR` message that is an error. -/
def errorOf (error : Nat) : ErrorKind := .nix (.fromI32 (-toInt32 error))

def truncatedMessage : ErrorKind := .errorCode "truncated message"

/-- The body of the inner loop of `recv_dump_message`. -/
def dumpVisit (h : RtnlHandle) (d : Datagram) (b : Bytes) (lv : List Message) :
    Option (Verdict (List Message) (Outcome ErrorKind (List Message))) := do
  let pid ← load b 12 4
  let seq ← load b 8 4
  if pid ≠ h.pid ∨ seq ≠ h.dump then return .past lv
  let type ← load b 4 2
  let len ← load b 0 4
  if type = NLMSG_ERROR then
    if len < nlmsgerrLength then return .out (.err truncatedMessage)
    let error ← load b 16 4
    return .out (.err (errorOf error))
  let lv := lv ++ [⟨d, b.take len⟩]
  if type = NLMSG_DONE then return .out (.ok lv)
  return .past lv

/-- The body of the inner loop of `rtnl_talk`. -/
def talkVisit (h : RtnlHandle) (answer : Bool) (b : Bytes) (s : Unit) :
    Option (Verdict Unit (Outcome ErrorKind Bytes)) := do
  let pid ← load b 12 4
  if pid ≠ h.pid then return .past s
  let type ← load b 4 2
  let len ← load b 0 4
  if type = NLMSG_ERROR then
    if len < nlmsgerrLength then return .out (.err truncatedMessage)
    let error ← load b 16 4
    if error = 0 then return .out (.ok [])
    return .out (.err (errorOf error))
  if answer then
    if len ≤ b.length then return .out (.ok (b.take len)) else none
  else return .out (.ok [])

/-- The message is for the dump that is going on. -/
def ofDump (h : RtnlHandle) (r : Bytes) : Bool := nlmsgPid r = h.pid && nlmsgSeq r = h.dump

/-- A dump does not go on after such a message. -/
def endsDump (r : Bytes) : Bool := nlmsgType r = NLMSG_ERROR || nlmsgType r = NLMSG_DONE

/-- The message is addressed to the handle. -/
def addressed (h : RtnlHandle) (r : Bytes) : Bool := nlmsgPid r = h.pid

/-- What an `NLMSG_ERROR` message reports, other than success. -/
def reported (r : Bytes) : ErrorKind :=
  if r.length < nlmsgerrLength then truncatedMessage else errorOf (nlmsgerrError r)

/-- The reply that an addressed message is taken for. -/
def talkReply (answer : Bool) (r : Bytes) : Outcome ErrorKind Bytes :=
  if nlmsgType r = NLMSG_ERROR then
    if nlmsgerrLength ≤ r.length ∧ nlmsgerrError r = 0 then .ok [] else .err (reported r)
  else .ok (if answer then r else [])

theorem nlmsghdr_loads (hf : nlmsghdr.Fits b) :
    load b 0 4 = some (nlmsghdr.first b).length ∧ load b 4 2 = some (nlmsgType (nlmsghdr.first b)) ∧
      load b 8 4 = some (nlmsgSeq (nlmsghdr.first b)) ∧
        load b 12 4 = some (nlmsgPid (nlmsghdr.first b)) := by
  have hs : 16 ≤ nlmsghdr.size b := hf.2.1
  refine ⟨?_, hf.load_first (by omega), hf.load_first (by omega), hf.load_first (by omega)⟩
  rw [hf.load_first (by omega), hf.length_first]
  exact congrArg some hf.size_first

theorem nlmsgerr_load (hf : nlmsghdr.Fits b) (hl : ¬ (nlmsghdr.first b).length < nlmsgerrLength) :
    load b 16 4 = some (nlmsgerrError (nlmsghdr.first b)) := by
  rw [hf.length_first] at hl
  change ¬ _ < 36 at hl
  exact hf.load_first (by omega)

def dumpBody (h : RtnlHandle) (d : Datagram) :
    Body nlmsghdr (List Message) (Outcome ErrorKind (List Message)) where
  visit := dumpVisit h d
  past r := !(ofDump h r && endsDump r)
  add lv r := if ofDump h r then lv ++ [⟨d, r⟩] else lv
  out lv r := if nlmsgType r = NLMSG_ERROR then .err (reported r) else .ok (lv ++ [⟨d, r⟩])
  visit_eq := by
    intro b lv hf
    obtain ⟨h0, h4, h8, h12⟩ := nlmsghdr_loads hf
    have hfirst : b.take (nlmsghdr.first b).length = nlmsghdr.first b := by
      rw [hf.length_first]
      rfl
    simp only [dumpVisit, h0, h4, h8, h12, Option.bind_eq_bind, Option.bind_some, hfirst]
    by_cases hd : nlmsgPid (nlmsghdr.first b) = h.pid ∧ nlmsgSeq (nlmsghdr.first b) = h.dump
    · rw [if_neg (by tauto)]
      by_cases he : nlmsgType (nlmsghdr.first b) = NLMSG_ERROR
      · rw [if_pos he]
        by_cases hl : (nlmsghdr.first b).length < nlmsgerrLength
        · simp [hl, ofDump, hd, he, endsDump, reported]
        · rw [nlmsgerr_load hf hl]
          simp [hl, ofDump, hd, he, endsDump, reported]
      · by_cases hn : nlmsgType (nlmsghdr.first b) = NLMSG_DONE
        · have hne : NLMSG_DONE ≠ NLMSG_ERROR := by decide
          simp [ofDump, hd, hn, hne, endsDump]
        · simp [ofDump, hd, he, hn, endsDump]
    · rw [if_pos (by tauto)]
      simp [ofDump, hd]

def talkBody (h : RtnlHandle) (answer : Bool) : Body nlmsghdr Unit (Outcome ErrorKind Bytes) where
  visit := talkVisit h answer
  past r := !addressed h r
  add s _ := s
  out _ r := talkReply answer r
  visit_eq := by
    intro b s hf
    obtain ⟨h0, h4, -, h12⟩ := nlmsghdr_loads hf
    have hfirst : b.take (nlmsghdr.first b).length = nlmsghdr.first b := by
      rw [hf.length_first]
      rfl
    have hle : (nlmsghdr.first b).length ≤ b.length := List.length_take_le' _ _
    simp only [talkVisit, h0, h4, h12, Option.bind_eq_bind, Option.bind_some, hfirst]
    by_cases hd : nlmsgPid (nlmsghdr.first b) = h.pid
    · rw [if_neg (not_not.2 hd)]
      by_cases he : nlmsgType (nlmsghdr.first b) = NLMSG_ERROR
      · by_cases hl : (nlmsghdr.first b).length < nlmsgerrLength
        · simp [hl, addressed, hd, he, reported, talkReply, Nat.not_le_of_lt hl]
        · rw [nlmsgerr_load hf hl]
          by_cases h0 : nlmsgerrError (nlmsghdr.first b) = 0
          · simp [hl, addressed, hd, he, h0, talkReply, Nat.le_of_not_lt hl]
          · simp [hl, addressed, hd, he, h0, reported, talkReply, Nat.le_of_not_lt hl]
      · cases answer with
        | false => simp [addressed, hd, he, talkReply]
        | true => simp [addressed, hd, he, talkReply, hle]
    · rw [if_pos hd]
      simp [addressed, hd]

/-- `recv_dump_message`, with the messages that it has received so far. -/
def recvDumpMessage (h : RtnlHandle) (lv : List Message) : List Arrival → Reception (List Message)
  | [] => .waiting
  | a :: queue =>
    match recvMessage a with
    | .err e => .ended (.err e) none queue
    | .panic => .ended .panic none queue
    | .ok d =>
      match (dumpBody h d).run d.bytes (d.bytes.length + 1) (.start d.bytes) lv with
      | .fell c lv =>
        if c.left ≠ 0 then .ended (.err (.nix .EINVAL)) none queue else recvDumpMessage h lv queue
      | .out o => .ended o (some d) queue
      | _ => .astray

/-- `rtnl_talk` once the request is sent. -/
def talkReplies (h : RtnlHandle) (answer : Bool) : List Arrival → Reception Bytes
  | [] => .waiting
  | a :: queue =>
    match recvMessage a with
    | .err e => .ended (.err e) none queue
    | .panic => .ended .panic none queue
    | .ok d =>
      match (talkBody h answer).run d.bytes (d.bytes.length + 1) (.start d.bytes) () with
      | .fell c _ =>
        match nlmsghdr.ok d.bytes c with
        | some false => .ended (.err (.nix .EINVAL)) none queue
        | some true => talkReplies h answer queue
        | none => .astray
      | .out o => .ended o (some d) queue
      | _ => .astray

end KataAgent
