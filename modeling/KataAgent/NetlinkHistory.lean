import KataAgent.NetlinkWalks
import KataAgent.Transition

namespace KataAgent
open Fallible Records Transition
set_option autoImplicit true

/-- What a request to the kernel took its reply from. -/
structure Exchange where
  request : Nat
  sources : List Datagram
  deriving DecidableEq

/-- A handle between two operations, and what its socket holds. Requests are numbered from one. -/
structure Dialogue where
  handle : RtnlHandle
  unread : List Arrival
  requests : Nat
  history : List Exchange
  deriving DecidableEq

/-- A dump, or a request with one reply; some of these set `dump` too. The kernel answers with
`replies` when the request could be sent. -/
inductive Operation where
  | dump (fault : Option Errno) (replies : List Arrival)
  | talk (answer marks : Bool) (fault : Option Errno) (replies : List Arrival)

/-- What the socket may deliver when the kernel answers the request `n`: datagrams with padded
messages that carry its sequence number, beside failures and what other processes send. -/
def Arrival.Answers (n seq : Nat) : Arrival → Prop
  | .failed _ => True
  | .datagram d => d.sender = 0 → d.answers = n ∧ nlmsghdr.Padded (fun _ => true) d.bytes ∧
      ∀ r ∈ nlmsghdr.records d.bytes, nlmsgSeq r = seq

instance (n seq : Nat) : (a : Arrival) → Decidable (a.Answers n seq)
  | .failed _ => inferInstanceAs (Decidable True)
  | .datagram d => inferInstanceAs (Decidable (d.sender = 0 → d.answers = n ∧
      nlmsghdr.Padded (fun _ => true) d.bytes ∧ ∀ r ∈ nlmsghdr.records d.bytes, nlmsgSeq r = seq))

def RtnlHandle.advance (h : RtnlHandle) (marks : Bool) : RtnlHandle where
  pid := h.pid
  seq := (h.seq + 1) % 2 ^ 32
  dump := if marks then (h.seq + 1) % 2 ^ 32 else h.dump

/-- `send_message`, and then what reads the reply. -/
def exchange (fault : Option Errno) (unread : List Arrival) (reply : Reception α) : Reception α :=
  match fault with
  | some errno => .ended (.err (.nix errno)) none unread
  | none => reply

/-- The datagrams that a result was taken from. -/
def sources (datagrams : α → List Datagram) (o : Outcome ErrorKind α) (source : Option Datagram) :
    List Datagram :=
  match o with
  | .ok a => datagrams a ++ source.toList
  | _ => source.toList

/-- The state after an operation that has returned. -/
def Dialogue.conclude (s : Dialogue) (marks : Bool) (datagrams : α → List Datagram) :
    Reception α → Option Dialogue
  | .ended o source unread => some ⟨s.handle.advance marks, unread, s.requests + 1,
      s.history ++ [⟨s.requests + 1, sources datagrams o source⟩]⟩
  | _ => none

def Dialogue.step (s : Dialogue) : Operation → Option Dialogue
  | .dump fault replies =>
    let h := s.handle.advance true
    if ∀ a ∈ replies, a.Answers (s.requests + 1) h.seq then
      s.conclude true (fun lv => lv.map Message.datagram)
        (exchange fault s.unread (recvDumpMessage h [] (s.unread ++ replies)))
    else none
  | .talk answer marks fault replies =>
    let h := s.handle.advance marks
    if ∀ a ∈ replies, a.Answers (s.requests + 1) h.seq then
      s.conclude marks (fun _ => [])
        (exchange fault s.unread (talkReplies h answer (s.unread ++ replies)))
    else none

def rtnl : System Dialogue Operation where
  init s := s.unread = [] ∧ s.requests = 0 ∧ s.history = []
  step := Dialogue.step

/-- Nothing that an earlier operation has left can be taken for the reply: the datagram that
`rtnl_talk` reads first holds no message for the handle, and what a dump finds for the handle does
not carry its sequence number, which comes again after 2^32 requests. -/
def Fresh (s : Dialogue) : Operation → Prop
  | .dump fault _ => fault = none → ∀ d, .datagram d ∈ s.unread → d.sender = 0 →
      (∃ r ∈ nlmsghdr.records d.bytes, addressed s.handle r = true) →
        (s.requests + 1 - d.answers) % 2 ^ 32 ≠ 0
  | .talk _ _ fault _ => fault = none → ∀ d, s.unread.head? = some (.datagram d) → d.sender = 0 →
      ∀ r ∈ nlmsghdr.records d.bytes, addressed s.handle r = false

/-- The datagrams from the kernel that can be read have whole messages. -/
def Readable (queue : List Arrival) : Prop :=
  ∀ d, .datagram d ∈ queue → d.sender = 0 → nlmsghdr.Padded (fun _ => true) d.bytes

theorem Readable.tail (h : Readable (a :: queue)) : Readable queue :=
  fun d hd => h d (List.mem_cons_of_mem _ hd)

theorem recvMessage_ok (h : recvMessage a = .ok d) : a = .datagram d ∧ d.sender = 0 := by
  cases a with
  | failed errno => cases h
  | datagram d' =>
    by_cases hs : d'.sender = 0
    · rw [recvMessage, if_neg (not_not.2 hs)] at h
      cases h
      exact ⟨rfl, hs⟩
    · rw [recvMessage, if_pos hs] at h
      cases h

/-- The walk over a datagram with whole messages. -/
theorem Datagram.run {B : Body nlmsghdr σ ρ} (d : Datagram)
    (hp : nlmsghdr.Padded (fun _ => true) d.bytes) (s : σ) :
    B.run d.bytes (d.bytes.length + 1) (.start d.bytes) s =
      B.result (.start d.bytes) d.bytes s := by
  have hw := walked_eq d.fits
  have hleft : (Cursor.start d.bytes).left = d.bytes.length := Nat.mod_eq_of_lt d.fits
  rw [Body.run_eq (Cursor.start_in _) (by rw [Cursor.rest_start, hw]; exact hp.of_all)
    (by rw [hleft]; exact Nat.lt_succ_self _), Cursor.rest_start, hw]

/-- The reply that `rtnl_talk` takes is in the datagram that it reads first. -/
theorem talkReplies_ended (hq : Readable queue)
    (ht : talkReplies h answer queue = .ended o source unread) :
    ∃ a, queue = a :: unread ∧ ∀ d ∈ source, a = .datagram d ∧ d.sender = 0 ∧
      ∃ r ∈ nlmsghdr.records d.bytes, addressed h r = true := by
  cases queue with
  | nil => cases ht
  | cons a queue =>
    rw [talkReplies] at ht
    cases ha : recvMessage a with
    | err e =>
      rw [ha] at ht
      cases ht
      refine ⟨a, rfl, ?_⟩
      intro d hd
      cases hd
    | panic =>
      rw [ha] at ht
      cases ht
      refine ⟨a, rfl, ?_⟩
      intro d hd
      cases hd
    | ok d =>
      obtain ⟨rfl, hs⟩ := recvMessage_ok ha
      have hrun := d.run (B := talkBody h answer) (hq d List.mem_cons_self hs) ()
      rw [ha] at ht
      dsimp only at ht
      rw [hrun] at ht
      cases hr : (talkBody h answer).result (.start d.bytes) d.bytes () with
      | on c s => exact absurd hr Body.result_not_on
      | outside => exact absurd hr Body.result_inside
      | fell c s =>
        -- the guard fails once more, so the call does not read on
        rw [hr] at ht
        dsimp only at ht
        rw [Body.run_fell (hrun.trans hr)] at ht
        cases ht
        refine ⟨_, rfl, ?_⟩
        intro d hd
        cases hd
      | out o' =>
        rw [hr] at ht
        cases ht
        obtain ⟨r, hm, ho, -⟩ := Body.result_eq_out hr
        refine ⟨_, rfl, fun d' hd => ?_⟩
        cases hd
        exact ⟨rfl, hs, r, hm, by simpa [talkBody] using ho⟩

/-- The datagram was read, and holds a message for the dump. -/
structure Heard (h : RtnlHandle) (queue : List Arrival) (d : Datagram) : Prop where
  arrived : .datagram d ∈ queue
  sender_eq : d.sender = 0
  holds : ∃ r ∈ nlmsghdr.records d.bytes, ofDump h r = true

theorem Heard.cons (hd : Heard h queue d) : Heard h (a :: queue) d where
  arrived := List.mem_cons_of_mem _ hd.arrived
  sender_eq := hd.sender_eq
  holds := hd.holds

theorem heard_foldl_add {d : Datagram} {lv : List Message} {rs : List Bytes}
    (ha : .datagram d ∈ queue) (hs : d.sender = 0) (hr : rs ⊆ nlmsghdr.records d.bytes)
    (hm : m ∈ rs.foldl (dumpBody h d).add lv) :
    (∃ m' ∈ lv, m'.datagram = m.datagram) ∨ Heard h queue m.datagram := by
  induction rs generalizing lv with
  | nil => exact .inl ⟨m, hm, rfl⟩
  | cons r rs ih =>
    rcases ih (fun r' hr' => hr (List.mem_cons_of_mem _ hr')) hm with ⟨m', hm', hd⟩ | hh
    · by_cases ho : ofDump h r = true
      · simp only [dumpBody, ho, if_true, List.mem_append, List.mem_singleton] at hm'
        rcases hm' with hl | rfl
        · exact .inl ⟨m', hl, hd⟩
        · rw [← hd]
          exact .inr ⟨ha, hs, r, hr List.mem_cons_self, ho⟩
      · simp only [dumpBody, ho] at hm'
        exact .inl ⟨m', hm', hd⟩
    · exact .inr hh

/-- The result of a dump comes from the messages that it has, and the datagram that ends it. -/
theorem sources_dumpOut {got : List Message} (hd : e ∈ sources (fun lv => lv.map Message.datagram)
    ((dumpBody h d).out got r) (some d)) : e = d ∨ ∃ m ∈ got, m.datagram = e := by
  by_cases he : nlmsgType r = NLMSG_ERROR
  · simp only [dumpBody, he, if_true, sources, Option.toList_some, List.mem_singleton] at hd
    exact .inl hd
  · simp only [dumpBody, he, if_false, sources, List.map_append, List.map_cons, List.map_nil,
      Option.toList_some, List.mem_append, List.mem_singleton, List.mem_map, or_assoc,
      or_self] at hd
    exact hd.symm

/-- Every message that a dump returns, and the one that ends it, was heard. -/
theorem recvDumpMessage_ended (hq : Readable queue)
    (ht : recvDumpMessage h lv queue = .ended o source unread) :
    unread <:+ queue ∧ ∀ d ∈ sources (fun lv => lv.map Message.datagram) o source,
      (∃ m ∈ lv, m.datagram = d) ∨ Heard h queue d := by
  induction queue generalizing lv with
  | nil => cases ht
  | cons a queue ih =>
    rw [recvDumpMessage] at ht
    cases ha : recvMessage a with
    | err e =>
      rw [ha] at ht
      cases ht
      refine ⟨List.suffix_cons _ _, ?_⟩
      intro d hd
      cases hd
    | panic =>
      rw [ha] at ht
      cases ht
      refine ⟨List.suffix_cons _ _, ?_⟩
      intro d hd
      cases hd
    | ok d =>
      obtain ⟨rfl, hs⟩ := recvMessage_ok ha
      rw [ha] at ht
      dsimp only at ht
      rw [d.run (hq d List.mem_cons_self hs)] at ht
      cases hr : (dumpBody h d).result (.start d.bytes) d.bytes lv with
      | on c s => exact absurd hr Body.result_not_on
      | outside => exact absurd hr Body.result_inside
      | fell c lv' =>
        rw [hr] at ht
        dsimp only at ht
        by_cases hl : c.left = 0
        · rw [if_neg (not_not.2 hl)] at ht
          obtain ⟨hu, hd⟩ := ih hq.tail ht
          refine ⟨hu.trans (List.suffix_cons _ _), fun d' hd' => ?_⟩
          rcases hd d' hd' with ⟨m, hm, rfl⟩ | hh
          · rw [Body.result_eq_fell hr] at hm
            exact heard_foldl_add List.mem_cons_self hs (fun r => id) hm
          · exact .inr hh.cons
        · rw [if_pos hl] at ht
          cases ht
          refine ⟨List.suffix_cons _ _, ?_⟩
          intro d hd
          cases hd
      | out o' =>
        rw [hr] at ht
        cases ht
        obtain ⟨r, hm, ho, rfl⟩ := Body.result_eq_out hr
        have hh : Heard h (.datagram d :: unread) d :=
          ⟨List.mem_cons_self, hs, r, hm, by simp [dumpBody] at ho; exact ho.1⟩
        refine ⟨List.suffix_cons _ _, fun d' hd' => ?_⟩
        rcases sources_dumpOut hd' with rfl | ⟨m, hm, rfl⟩
        · exact .inr hh
        · exact heard_foldl_add List.mem_cons_self hs (List.takeWhile_subset _) hm

/-- What is unread answers requests that were sent, in whole messages which carry the sequence
numbers of these. -/
structure Backlog (s : Dialogue) (d : Datagram) : Prop where
  sent : d.answers ≤ s.requests
  whole : nlmsghdr.Padded (fun _ => true) d.bytes
  seq_eq : ∀ r ∈ nlmsghdr.records d.bytes,
    (nlmsgSeq r + (s.requests - d.answers)) % 2 ^ 32 = s.handle.seq

structure Dialogue.InOrder (s : Dialogue) : Prop where
  backlog : ∀ d, .datagram d ∈ s.unread → d.sender = 0 → Backlog s d
  matched : ∀ e ∈ s.history, ∀ d ∈ e.sources, d.answers = e.request

section
variable {s t : Dialogue} {replies rest : List Arrival} {d : Datagram} {ds : List Datagram}

theorem Dialogue.InOrder.readable (hi : s.InOrder) (ha : ∀ a ∈ replies, a.Answers n seq) :
    Readable (s.unread ++ replies) := by
  intro d hd hs
  rcases List.mem_append.1 hd with hu | hr
  · exact (hi.backlog d hu hs).whole
  · exact (ha _ hr hs).2.1

/-- An operation that leaves what was there or has come, and has taken only what answers it. -/
theorem Dialogue.InOrder.conclude (hi : s.InOrder)
    (ha : ∀ a ∈ replies, a.Answers (s.requests + 1) ((s.handle.seq + 1) % 2 ^ 32))
    (hu : ∀ a ∈ rest, a ∈ s.unread ++ replies) (hd : ∀ d ∈ ds, d.answers = s.requests + 1) :
    Dialogue.InOrder ⟨s.handle.advance marks, rest, s.requests + 1,
      s.history ++ [⟨s.requests + 1, ds⟩]⟩ where
  backlog d hm hs := by
    rcases List.mem_append.1 (hu _ hm) with hold | hnew
    · have hb := hi.backlog d hold hs
      refine ⟨Nat.le_succ_of_le hb.sent, hb.whole, fun r hr => ?_⟩
      have hsent := hb.sent
      have hseq := hb.seq_eq r hr
      dsimp only [RtnlHandle.advance]
      omega
    · obtain ⟨hans, hp, hseq⟩ := ha _ hnew hs
      refine ⟨hans.le, hp, fun r hr => ?_⟩
      dsimp only [RtnlHandle.advance]
      rw [hseq r hr, hans, Nat.sub_self, Nat.add_zero, Nat.mod_mod]
  matched e he := by
    rcases List.mem_append.1 he with hold | hnew
    · exact hi.matched e hold
    · cases List.mem_singleton.1 hnew
      exact hd

theorem conclude_eq_some {datagrams : α → List Datagram} {x : Reception α}
    (h : s.conclude marks datagrams x = some t) : ∃ o source unread, x = .ended o source unread ∧
      t = ⟨s.handle.advance marks, unread, s.requests + 1,
        s.history ++ [⟨s.requests + 1, sources datagrams o source⟩]⟩ := by
  cases x with
  | ended o source unread =>
    cases h
    exact ⟨o, source, unread, rfl, rfl⟩
  | waiting => cases h
  | astray => cases h

theorem exchange_ended {datagrams : α → List Datagram}
    (h : exchange fault queue reply = .ended o source unread) :
    fault = none ∧ reply = .ended o source unread ∨
      sources datagrams o source = [] ∧ unread = queue := by
  cases fault with
  | none => exact .inl ⟨rfl, h⟩
  | some errno =>
    cases h
    exact .inr ⟨rfl, rfl⟩

/-- A dump takes nothing that is left of an earlier request. -/
theorem Dialogue.InOrder.dump (hi : s.InOrder) (hf : Fresh s (.dump none replies))
    (ha : ∀ a ∈ replies, a.Answers (s.requests + 1) ((s.handle.seq + 1) % 2 ^ 32))
    (hh : Heard (s.handle.advance true) (s.unread ++ replies) d) : d.answers = s.requests + 1 := by
  obtain ⟨hm, hs, r, hr, ho⟩ := hh
  rcases List.mem_append.1 hm with hold | hnew
  · obtain ⟨hpid, hseq⟩ : nlmsgPid r = s.handle.pid ∧ nlmsgSeq r = (s.handle.seq + 1) % 2 ^ 32 := by
      simpa [ofDump, RtnlHandle.advance] using ho
    have hb := hi.backlog d hold hs
    have hsent := hb.sent
    have hold' := hb.seq_eq r hr
    have hne := hf rfl d hold hs ⟨r, hr, by simpa [addressed] using hpid⟩
    omega
  · exact (ha _ hnew hs).1

/-- `rtnl_talk` takes nothing that is left of an earlier request. -/
theorem Dialogue.InOrder.talk (hi : s.InOrder) (hf : Fresh s (.talk answer marks none replies))
    (ha : ∀ a ∈ replies, a.Answers (s.requests + 1) ((s.handle.seq + 1) % 2 ^ 32))
    (ht : talkReplies (s.handle.advance marks) answer (s.unread ++ replies) =
      .ended o (some d) rest) : d.answers = s.requests + 1 := by
  obtain ⟨a, hq, hsource⟩ := talkReplies_ended (hi.readable ha) ht
  obtain ⟨rfl, hs, r, hr, ho⟩ := hsource d rfl
  cases hu : s.unread with
  | nil =>
    rw [hu, List.nil_append] at hq
    exact (ha (.datagram d) (by rw [hq]; exact List.mem_cons_self) hs).1
  | cons b older =>
    rw [hu, List.cons_append] at hq
    have hb : s.unread.head? = some (.datagram d) := by
      rw [hu, List.head?_cons, (List.cons.inj hq).1]
    exact absurd (hf rfl d hb hs r hr) (by rw [Bool.not_eq_false]; exact ho)

theorem Dialogue.InOrder.step (hi : s.InOrder) (hf : Fresh s op) (h : s.step op = some t) :
    t.InOrder := by
  cases op with
  | dump fault replies =>
    obtain ⟨ha, hc⟩ := Option.ite_none_right_eq_some.1 h
    obtain ⟨o, source, rest, hx, rfl⟩ := conclude_eq_some hc
    rcases exchange_ended hx with ⟨rfl, hr⟩ | ⟨hnil, rfl⟩
    · obtain ⟨hu, hd⟩ := recvDumpMessage_ended (hi.readable ha) hr
      refine hi.conclude ha (fun a hm => hu.subset hm) fun d hm => ?_
      rcases hd d hm with ⟨m, hm, -⟩ | hh
      · cases hm
      · exact hi.dump hf ha hh
    · rw [hnil]
      exact hi.conclude ha (fun a hm => List.mem_append_left _ hm) nofun
  | talk answer marks fault replies =>
    obtain ⟨ha, hc⟩ := Option.ite_none_right_eq_some.1 h
    obtain ⟨o, source, rest, hx, rfl⟩ := conclude_eq_some hc
    rcases exchange_ended hx with ⟨rfl, hr⟩ | ⟨hnil, rfl⟩
    · obtain ⟨a, hq, -⟩ := talkReplies_ended (hi.readable ha) hr
      refine hi.conclude ha (fun a hm => by rw [hq]; exact List.mem_cons_of_mem _ hm)
        fun d hm => ?_
      have hd : source = some d := by
        cases o with
        | ok b => simpa [sources] using hm
        | err e => simpa [sources] using hm
        | panic => simpa [sources] using hm
      rw [hd] at hr
      exact hi.talk hf ha hr
    · rw [hnil]
      exact hi.conclude ha (fun a hm => List.mem_append_left _ hm) nofun

/-- In every run whose operations find nothing stale, each reply answers the request that was sent
for it. -/
theorem rtnl_reach_matched (h : rtnl.Reach Fresh s) :
    ∀ e ∈ s.history, ∀ d ∈ e.sources, d.answers = e.request := by
  have hi : s.InOrder := by
    refine h.invariant (fun s hs => ?_) fun s op t hi hf hst => hi.step hf hst
    obtain ⟨hu, -, hh⟩ := hs
    constructor
    · rw [hu]
      exact nofun
    · rw [hh]
      exact nofun
  exact hi.matched

end

def openedDialogue : Dialogue := ⟨⟨8, 0, 0⟩, [], 0, []⟩

/-- A dump that is interrupted while its answer is there. -/
def interruptedDump (answer : Packet) : Operation := .dump none [.failed .EINTR, answer.arrival]

def secondDump : List Operation :=
  [interruptedDump (plainPacket RTM_NEWLINK 1 8),
    .dump none [(plainPacket NLMSG_DONE 2 8).arrival]]

def dumpedTwice : Dialogue :=
  ⟨⟨8, 2, 2⟩, [], 2, [⟨1, []⟩, ⟨2, [(plainPacket NLMSG_DONE 2 8).datagram,
    (plainPacket NLMSG_DONE 2 8).datagram]⟩]⟩

/-- The second dump reads over what the first has left. -/
theorem rtnl_second_dump : rtnl.run openedDialogue secondDump = some dumpedTwice ∧
    ∀ e ∈ dumpedTwice.history, ∀ d ∈ e.sources, d.answers = e.request := by
  have hr : rtnl.run openedDialogue secondDump = some dumpedTwice := rfl
  refine ⟨hr, rtnl_reach_matched (.extend (.init ⟨rfl, rfl, rfl⟩) ?_ hr)⟩
  refine ⟨fun _ => nofun, fun t ht => ⟨fun _ d hd _ _ => ?_, fun _ _ => trivial⟩⟩
  cases ht
  cases List.mem_singleton.1 hd
  decide

/-- The link that the interrupted dump has left is taken for the acknowledgement of the next
request. -/
theorem rtnl_mismatch : ¬ ∀ s, rtnl.Reachable s →
    ∀ e ∈ s.history, ∀ d ∈ e.sources, d.answers = e.request := by
  intro h
  have hr : rtnl.run openedDialogue [interruptedDump (plainPacket RTM_NEWLINK 1 8),
      .talk false false none [(plainPacket NLMSG_ERROR 2 8).arrival]] =
      some ⟨⟨8, 2, 1⟩, [(plainPacket NLMSG_ERROR 2 8).arrival], 2,
        [⟨1, []⟩, ⟨2, [(plainPacket RTM_NEWLINK 1 8).datagram]⟩]⟩ := rfl
  have he := h _ (System.reachable_of_run ⟨rfl, rfl, rfl⟩ hr)
    ⟨2, [(plainPacket RTM_NEWLINK 1 8).datagram]⟩ (by simp) _ List.mem_cons_self
  cases he

end KataAgent
