import KataAgent.Netlink

namespace KataAgent
open Fallible Records
set_option autoImplicit true

/-- Both walks are sound exactly where each message that they step over is followed, in the
datagram, by the padding that the step counts in. -/
theorem walks_sound_iff (h : RtnlHandle) (d : Datagram) (lv : List Message) (answer : Bool)
    (buf : Bytes) :
    ((dumpBody h d).Sound buf (.start buf) lv ↔
      nlmsghdr.Padded (fun r => !(ofDump h r && endsDump r)) (walked buf)) ∧
    ((talkBody h answer).Sound buf (.start buf) () ↔
      nlmsghdr.Padded (fun r => !addressed h r) (walked buf)) := by
  constructor
  · exact Body.sound_iff (B := dumpBody h d) (Cursor.start_in buf)
  · exact Body.sound_iff (B := talkBody h answer) (Cursor.start_in buf)

/-- A message of 17 bytes from port 7. -/
def unpaddedMessage : Bytes := leBytes 4 17 ++ leBytes 8 0 ++ leBytes 4 7 ++ [0]

/-- The last message of the datagram is for another port, and its padding is not there. -/
theorem walks_not_sound :
    ¬ ∀ (h : RtnlHandle) (d : Datagram) (lv : List Message) (answer : Bool) (buf : Bytes),
      (dumpBody h d).Sound buf (.start buf) lv ∧ (talkBody h answer).Sound buf (.start buf) () := by
  intro h
  obtain ⟨hd, -⟩ := h ⟨8, 0, 0⟩ ⟨0, unpaddedMessage, 0, by decide⟩ [] true unpaddedMessage
  have hle := hd.exact 0 _ _ _ _ rfl rfl
  exact absurd hle (by decide)

/-- A datagram from the kernel that is cut between messages. -/
structure Packet where
  datagram : Datagram
  messages : List nlmsghdr.Record
  sender_eq : datagram.sender = 0
  bytes_eq : datagram.bytes = Format.chain messages

def Packet.arrival (p : Packet) : Arrival := .datagram p.datagram

def Packet.texts (p : Packet) : List Bytes := p.messages.map Format.Record.bytes

theorem Packet.recvMessage (p : Packet) : KataAgent.recvMessage p.arrival = .ok p.datagram :=
  if_neg (not_not.2 p.sender_eq)

theorem Packet.run {B : Body nlmsghdr σ ρ} (p : Packet) (s : σ) :
    B.run p.datagram.bytes (p.datagram.bytes.length + 1) (.start p.datagram.bytes) s =
      match p.texts.dropWhile B.past with
      | [] => .fell ⟨p.datagram.bytes.length, 0⟩ (p.texts.foldl B.add s)
      | r :: _ => .out (B.out ((p.texts.takeWhile B.past).foldl B.add s) r) := by
  have hlt := p.datagram.fits
  rw [p.bytes_eq] at hlt ⊢
  exact Body.run_chain p.messages hlt

/-- What the dump comes to with these messages, after those that it has got: every message that is
for it, up to the first that ends it. -/
def dumpResult (h : RtnlHandle) (got stream : List Bytes) :
    Option (Outcome ErrorKind (List Bytes)) :=
  let mine := stream.filter (ofDump h)
  match mine.dropWhile (fun r => !endsDump r) with
  | [] => none
  | r :: _ =>
    if nlmsgType r = NLMSG_ERROR then some (.err (reported r))
    else some (.ok (got ++ mine.takeWhile (fun r => !endsDump r) ++ [r]))

/-- The messages of a dump that has ended. -/
def Reception.collected : Reception (List Message) → Option (Outcome ErrorKind (List Bytes))
  | .ended (.ok lv) _ _ => some (.ok (lv.map Message.bytes))
  | .ended (.err e) _ _ => some (.err e)
  | .ended .panic _ _ => some .panic
  | _ => none

section
variable {h : RtnlHandle} {r : Bytes} {got stream : List Bytes}

theorem dumpResult_skip (ho : ofDump h r = false) :
    dumpResult h got (r :: stream) = dumpResult h got stream := by
  unfold dumpResult
  rw [List.filter_cons_of_neg (by simp [ho])]

theorem dumpResult_keep (ho : ofDump h r = true) (he : endsDump r = false) :
    dumpResult h got (r :: stream) = dumpResult h (got ++ [r]) stream := by
  unfold dumpResult
  rw [List.filter_cons_of_pos ho]
  dsimp only
  rw [List.dropWhile_cons_of_pos (by simp [he]), List.takeWhile_cons_of_pos (by simp [he]),
    List.append_cons got]

theorem dumpResult_end (ho : ofDump h r = true) (he : endsDump r = true) :
    dumpResult h got (r :: stream) =
      if nlmsgType r = NLMSG_ERROR then some (.err (reported r)) else some (.ok (got ++ [r])) := by
  unfold dumpResult
  rw [List.filter_cons_of_pos ho]
  dsimp only
  rw [List.dropWhile_cons_of_neg (by simp [he]), List.takeWhile_cons_of_neg (by simp [he]),
    List.append_nil]

end

/-- What the walk over one datagram leaves for the others. -/
theorem dumpResult_walk (h : RtnlHandle) (d : Datagram) (lv : List Message)
    (rs stream : List Bytes) (source : Option Datagram) (unread : List Arrival) :
    match rs.dropWhile (dumpBody h d).past with
    | [] => dumpResult h (lv.map Message.bytes) (rs ++ stream) =
        dumpResult h ((rs.foldl (dumpBody h d).add lv).map Message.bytes) stream
    | r :: _ => (Reception.ended ((dumpBody h d).out
        ((rs.takeWhile (dumpBody h d).past).foldl (dumpBody h d).add lv) r) source
        unread).collected =
        dumpResult h (lv.map Message.bytes) (rs ++ stream) := by
  induction rs generalizing lv with
  | nil => rfl
  | cons r rs ih =>
    cases ho : ofDump h r with
    | false =>
      have hover : (dumpBody h d).past r = true := by simp [dumpBody, ho]
      have hadd : (dumpBody h d).add lv r = lv := by simp [dumpBody, ho]
      rw [List.dropWhile_cons_of_pos hover, List.takeWhile_cons_of_pos hover, List.cons_append,
        dumpResult_skip ho, List.foldl_cons, List.foldl_cons, hadd]
      exact ih lv
    | true =>
      cases he : endsDump r with
      | false =>
        have hover : (dumpBody h d).past r = true := by simp [dumpBody, he]
        have hadd : (dumpBody h d).add lv r = lv ++ [⟨d, r⟩] := by simp [dumpBody, ho]
        rw [List.dropWhile_cons_of_pos hover, List.takeWhile_cons_of_pos hover, List.cons_append,
          dumpResult_keep ho he, List.foldl_cons, List.foldl_cons, hadd]
        have hm : (lv ++ [Message.mk d r]).map Message.bytes = lv.map Message.bytes ++ [r] :=
          List.map_append
        rw [← hm]
        exact ih _
      | true =>
        have hover : ¬ (dumpBody h d).past r = true := by simp [dumpBody, ho, he]
        rw [List.dropWhile_cons_of_neg hover, List.takeWhile_cons_of_neg hover, List.cons_append,
          dumpResult_end ho he]
        by_cases ht : nlmsgType r = NLMSG_ERROR
        · simp [dumpBody, ht, Reception.collected]
        · simp [dumpBody, ht, Reception.collected]

/-- However the messages are cut into datagrams, the dump ends with those that are for it, up to the
first that ends it. Without such a message it goes on waiting. -/
theorem recvDumpMessage_of_packets (h : RtnlHandle) (lv : List Message) (ps : List Packet) :
    (recvDumpMessage h lv (ps.map Packet.arrival)).collected =
        dumpResult h (lv.map Message.bytes) (ps.flatMap Packet.texts) ∧
      recvDumpMessage h lv (ps.map Packet.arrival) ≠ .astray := by
  induction ps generalizing lv with
  | nil => exact ⟨rfl, nofun⟩
  | cons p ps ih =>
    have hw := dumpResult_walk h p.datagram lv p.texts (ps.flatMap Packet.texts)
      (some p.datagram) (ps.map Packet.arrival)
    rw [List.map_cons, List.flatMap_cons, recvDumpMessage, p.recvMessage]
    dsimp only
    rw [p.run]
    cases hd : p.texts.dropWhile (dumpBody h p.datagram).past with
    | nil =>
      rw [hd] at hw
      dsimp only at hw ⊢
      rw [if_neg (by decide), hw]
      exact ih _
    | cons r rest =>
      rw [hd] at hw
      exact ⟨hw, nofun⟩

/-- The reply is the first message that is addressed to the handle. -/
def talkResult (h : RtnlHandle) (answer : Bool) : List Packet → Reception Bytes
  | [] => .waiting
  | p :: ps =>
    match p.texts.find? (addressed h) with
    | none => talkResult h answer ps
    | some r => .ended (talkReply answer r) (some p.datagram) (ps.map Packet.arrival)

theorem talkReplies_cons (h : RtnlHandle) (answer : Bool) (p : Packet) (queue : List Arrival) :
    talkReplies h answer (p.arrival :: queue) =
      match p.texts.find? (addressed h) with
      | none => .ended (.err (.nix .EINVAL)) none queue
      | some r => .ended (talkReply answer r) (some p.datagram) queue := by
  rw [talkReplies, p.recvMessage]
  dsimp only
  rw [p.run]
  have hf : p.texts.find? (addressed h) =
      (p.texts.dropWhile (talkBody h answer).past).head? := List.find?_eq_head?_dropWhile_not _ _
  rw [hf]
  cases hd : p.texts.dropWhile (talkBody h answer).past with
  | nil => rfl
  | cons r rest => rfl

theorem talkResult_unread (ha : talkResult h answer ps = .ended o source unread) :
    unread.length < ps.length := by
  induction ps with
  | nil => cases ha
  | cons p ps ih =>
    rw [talkResult] at ha
    cases hf : p.texts.find? (addressed h) with
    | none =>
      rw [hf] at ha
      exact (ih ha).trans (Nat.lt_succ_self _)
    | some r =>
      rw [hf] at ha
      cases ha
      simp

/-- The call is answered by the first message that is addressed to it exactly where no datagram
without such a message comes first. -/
theorem talkReplies_eq_iff (h : RtnlHandle) (answer : Bool) (ps : List Packet) :
    talkReplies h answer (ps.map Packet.arrival) = talkResult h answer ps ↔
      ∀ p ∈ ps.head?, ∃ r ∈ p.texts, addressed h r = true := by
  cases ps with
  | nil => exact iff_of_true rfl nofun
  | cons p ps =>
    rw [List.map_cons, talkReplies_cons, talkResult]
    have hm : (∀ q ∈ (p :: ps).head?, ∃ r ∈ q.texts, addressed h r = true) ↔
        ∃ r ∈ p.texts, addressed h r = true := by simp
    rw [hm, ← List.find?_isSome]
    cases hf : p.texts.find? (addressed h) with
    | some r => exact iff_of_true rfl rfl
    | none =>
      refine iff_of_false (fun he => ?_) nofun
      have hlt := talkResult_unread he.symm
      rw [List.length_map] at hlt
      exact absurd hlt (Nat.lt_irrefl _)

/-- A message without a payload. -/
def plainMessage (type seq pid : Nat) : nlmsghdr.Record where
  bytes := leBytes 4 16 ++ leBytes 4 type ++ leBytes 4 seq ++ leBytes 4 pid
  pad := []
  header_le := by simp [nlmsghdr]
  size_eq := by simp [Format.size, nlmsghdr, le_leBytes]
  pad_length := by simp [align]

/-- A datagram with one message, which carries the number of the request. -/
def plainPacket (type answers pid : Nat) : Packet where
  datagram := ⟨0, Format.chain [plainMessage type answers pid], answers, by
    simp [plainMessage, Format.Record.length_padded, align]⟩
  messages := [plainMessage type answers pid]
  sender_eq := rfl
  bytes_eq := rfl

def RTM_NEWLINK : Nat := 16

/-- The first datagram is for another port only; the call ends with `EINVAL` and leaves its reply
unread. -/
theorem talkReplies_ne :
    talkReplies ⟨8, 0, 0⟩ true
        ([plainPacket RTM_NEWLINK 1 7, plainPacket RTM_NEWLINK 1 8].map Packet.arrival) ≠
      talkResult ⟨8, 0, 0⟩ true [plainPacket RTM_NEWLINK 1 7, plainPacket RTM_NEWLINK 1 8] := by
  decide

end KataAgent
