import IocpChat.ClientDisplay
import IocpChat.ChatOrder
import IocpChat.RoomNotices

namespace IocpChat.Conversation

open IocpChat.Protocol
open IocpChat.PacketBuffer
open IocpChat.LanServer
open IocpChat.ContentHandlers
open IocpChat.ChatRuns
open IocpChat.PacketLifetimes
open IocpChat.RoomNotices
open IocpChat.SendResults
open IocpChat.ChatOrder
open IocpChat.ClientRequests
open IocpChat.ClientAgreement
open IocpChat.FrameDelivery
open IocpChat.ClientDisplay
open IocpChat.LabelledRun
open IocpChat.SlotInvariant
open IocpChat.SlotLifecycle

/-- The nickname and the text of a chat message. -/
abbrev Line := List UInt8 × List UInt8

/-- The line of the conversation that a packet carries, if it is a chat message. -/
def lineOf : List (List UInt8) → Option Line
  | [type, nickname, _, text] =>
      if type = wordBytes PacketType.scChatRes.code then some (nickname, text) else none
  | _ => none

/-- The line that a client shows, if it is a chat message. -/
def shownLine : DummyClient.Shown → Option Line
  | .chatRes nickname chat => some (nickname, chat)
  | _ => none

/-- The chat lines among what a client has printed. -/
def chatLines (printed : List DummyClient.Shown) : List Line := printed.filterMap shownLine

/-- The chat lines that are accepted for a session. -/
def linesTo (sid : SessionID) (log : List SendCall) : List Line :=
  (messagesTo sid log).filterMap lineOf

/-- What is said in a room. -/
def spoken (C : Crypto) (toAcp : List UInt16 → List UInt8) (r : Fin maxRoomCount) (w : World)
    (events : List ChatEvent) : List Line :=
  (processed C toAcp r w events).filterMap fun chat => lineOf chat.fields

theorem lineOf_of_answer {fields : List (List UInt8)} {shown : DummyClient.Shown}
    (h : Answer fields shown) : lineOf fields = shownLine shown := by
  cases h <;> rfl

theorem isChat_of_lineOf {fields : List (List UInt8)} {line : Line}
    (h : lineOf fields = some line) : IsChat fields := by
  simp only [lineOf] at h
  split at h
  · split at h
    · rename_i htype
      exact congrArg some htype
    · cases h
  · cases h

theorem chatLines_of_answers {messages : List (List (List UInt8))}
    {said : List DummyClient.Shown} (h : List.Forall₂ Answer messages said) :
    chatLines said = messages.filterMap lineOf := by
  induction h with
  | nil => rfl
  | cons hanswer _ ih =>
      rw [chatLines, List.filterMap_cons, List.filterMap_cons, lineOf_of_answer hanswer, ← ih]
      rfl

section Steps

variable {C : Crypto} {toAcp : List UInt16 → List UInt8} {w w' : World} {r : Fin maxRoomCount}
  {sid : SessionID}

theorem linesTo_append (log more : List SendCall) :
    linesTo sid (log ++ more) = linesTo sid log ++ linesTo sid more := by
  rw [linesTo, messagesTo_append, List.filterMap_append]
  rfl

theorem linesTo_eq_nil {log : List SendCall}
    (h : ∀ x, x ∈ log → x.sid = sid → lineOf x.fields = none) : linesTo sid log = [] := by
  refine List.filterMap_eq_nil_iff.mpr ?_
  intro fields hfields
  obtain ⟨x, hx, rfl⟩ := List.mem_map.mp hfields
  obtain ⟨hmem, hto⟩ := List.mem_filter.mp hx
  simp only [Bool.and_eq_true, beq_iff_eq] at hto
  exact h x hmem hto.2

theorem linesTo_step (hroom : OnlyIn w.content r sid) (e : ChatEvent) (k : Nat) :
    linesTo sid (stepLog C toAcp w e) =
      (stepAccepted C toAcp r sid k w e).filterMap fun chat => lineOf chat.fields := by
  rcases hchat : chatOf w e with _ | ⟨i, fields⟩
  · have hnone : linesTo sid (stepLog C toAcp w e) = [] := by
      apply linesTo_eq_nil
      intro x hx _
      rcases hline : lineOf x.fields with _ | line
      · rfl
      · obtain ⟨i, hsome⟩ := chatOf_of_stepLog C toAcp hx (isChat_of_lineOf hline)
        rw [hchat] at hsome
        cases hsome
    rw [hnone, stepAccepted, hchat]
    rfl
  · rcases eq_or_ne i r with rfl | hne
    · simp only [stepAccepted, hchat, if_true, linesTo, messagesTo, toSid, List.filterMap_map]
      congr 1
      apply List.filter_congr
      intro x _
      rw [Bool.and_comm]
      rfl
    · have hnone : linesTo sid (stepLog C toAcp w e) = [] := by
        apply linesTo_eq_nil
        rintro x hx rfl
        have hmem := (stepLog_of_chat C toAcp hchat).2.mem_iff.mp (List.mem_map_of_mem hx)
        exact absurd (hroom i hmem) hne
      simp only [hnone, stepAccepted, hchat, if_neg hne, List.filterMap_nil]

theorem linesTo_run {events : List ChatEvent}
    (hroom : Always (chatStep C toAcp) (fun u => OnlyIn u.content r sid) w events)
    (hrun : run (chatStep C toAcp) w events = some w') (k : Nat) :
    linesTo sid (runLog C toAcp w events) =
      (collect C toAcp (stepAccepted C toAcp r sid) k w events).filterMap
        fun chat => lineOf chat.fields := by
  induction events generalizing w k with
  | nil => rfl
  | cons e events ih =>
      simp only [run] at hrun
      rcases hstep : chatStep C toAcp w e with _ | next
      · simp [hstep] at hrun
      · simp only [hstep] at hrun
        have hhere : OnlyIn w.content r sid := hroom [] List.nil_prefix w rfl
        have hlater : Always (chatStep C toAcp) (fun u => OnlyIn u.content r sid) next events := by
          intro done hdone u hu
          refine hroom (e :: done) (List.cons_prefix_cons.mpr ⟨rfl, hdone⟩) u ?_
          rwa [run_cons_of_step _ hstep]
        simp only [runLog, collect, hstep, linesTo_append, List.filterMap_append]
        rw [linesTo_step hhere e k, ih hlater hrun (k + 1)]

theorem runLog_append {before segment : List ChatEvent}
    (hbefore : run (chatStep C toAcp) w before = some w') :
    runLog C toAcp w (before ++ segment) =
      runLog C toAcp w before ++ runLog C toAcp w' segment := by
  induction before generalizing w with
  | nil =>
      obtain rfl : w = w' := by simpa using hbefore
      rfl
  | cons e before ih =>
      simp only [run] at hbefore
      rcases hstep : chatStep C toAcp w e with _ | next
      · simp [hstep] at hbefore
      · simp only [hstep] at hbefore
        simp only [List.cons_append, runLog, hstep, ih hbefore, List.append_assoc]

end Steps

/-- What the receive thread of a client has made of the bytes that have come through to it. -/
structure Reads (L : DummyClient.OpenSsl) (frames : List (List UInt8)) (t : RecvThread) where
  fresh : List UInt8 → Nat → UInt8
  turns : List Received
  runs : run (recvTurn (DummyClient.clientCrypto L) fresh) RecvThread.start turns = some t
  stream : (turns.map Received.data).flatten <+: frames.flatten

/-- All bytes have come through. -/
def Reads.Complete {L : DummyClient.OpenSsl} {frames : List (List UInt8)} {t : RecvThread}
    (reads : Reads L frames t) : Prop :=
  (reads.turns.map Received.data).flatten = frames.flatten

/-- The session is a user of the room and of no other. -/
def StaysIn (r : Fin maxRoomCount) (sid : SessionID) (w : World) : Prop :=
  sid ∈ (w.content.rooms r).users ∧ OnlyIn w.content r sid

section Screens

variable {L : DummyClient.OpenSsl} {toAcp : List UInt16 → List UInt8} {max : Nat}
  {before segment : List ChatEvent} {w₁ w₂ : World} {r : Fin maxRoomCount} {sid : SessionID}
  {t : RecvThread}

theorem chatLines_prefix {w : World} {events : List ChatEvent}
    (hnonces : ∀ e, e ∈ events → NoncesOk e)
    (reads : Reads L (sentFrames (serverCrypto L) toAcp sid w events) t) :
    chatLines t.printed <+: linesTo sid (runLog (serverCrypto L) toAcp w events) ∧
      (reads.Complete →
        chatLines t.printed = linesTo sid (runLog (serverCrypto L) toAcp w events)) := by
  have hframed : List.Forall₂ (Framed (serverCrypto L))
      (sentFrames (serverCrypto L) toAcp sid w events)
      (messagesTo sid (runLog (serverCrypto L) toAcp w events)) := sentFrames_framed hnonces
  obtain ⟨said, hanswers, hcarried⟩ := carried_of_framed hframed
  obtain ⟨fresh, turns, hrun, hstream⟩ := reads
  rw [clientCrypto_eq] at hrun
  obtain ⟨hshows, -⟩ := run_shows hcarried (start_shows hcarried) hstream hrun
  rw [List.nil_append] at hshows
  rw [linesTo, ← chatLines_of_answers hanswers]
  constructor
  · obtain ⟨n, -, -, -, hprinted⟩ := hshows
    rw [hprinted]
    exact (List.take_prefix n said).filterMap shownLine
  · intro hall
    rw [Reads.Complete] at hall
    rw [hall] at hshows
    rw [(hshows.all hcarried).1]

theorem read_of_member (hmax : max ≤ 2 ^ 16)
    (hbefore : run (chatStep (serverCrypto L) toAcp) (World.start max) before = some w₁)
    (hsegment : run (chatStep (serverCrypto L) toAcp) w₁ segment = some w₂)
    (hfresh : Fresh w₂.server) (hnonces : ∀ e, e ∈ before ++ segment → NoncesOk e)
    (hstays : Always (chatStep (serverCrypto L) toAcp) (StaysIn r sid) w₁ segment)
    (reads : Reads L (sentFrames (serverCrypto L) toAcp sid (World.start max)
      (before ++ segment)) t) :
    let past := linesTo sid (runLog (serverCrypto L) toAcp (World.start max) before)
    (chatLines t.printed).drop past.length <+: spoken (serverCrypto L) toAcp r w₁ segment ∧
      (reads.Complete → ¬ Left w₂.server sid →
        (chatLines t.printed).drop past.length =
          spoken (serverCrypto L) toAcp r w₁ segment) := by
  intro past
  obtain ⟨lost, hok, -⟩ := run_worldOk (serverCrypto L) toAcp hmax (start_worldOk max) hbefore
  have hcases := (accepted_cases hmax hok hsegment hfresh
    (fun done hdone u hu => (hstays done hdone u hu).1) 0).2
  have hlines : linesTo sid (runLog (serverCrypto L) toAcp (World.start max)
      (before ++ segment)) = past ++
        (accepted (serverCrypto L) toAcp r sid w₁ segment).filterMap fun chat =>
          lineOf chat.fields := by
    rw [runLog_append hbefore, linesTo_append,
      linesTo_run (fun done hdone u hu => (hstays done hdone u hu).2) hsegment 0]
    rfl
  have hspoken : (accepted (serverCrypto L) toAcp r sid w₁ segment).filterMap
      (fun chat => lineOf chat.fields) <+: spoken (serverCrypto L) toAcp r w₁ segment := by
    rcases hcases with heq | ⟨hfirst, -⟩
    · rw [show accepted (serverCrypto L) toAcp r sid w₁ segment = _ from heq]
      exact List.prefix_refl _
    · exact hfirst.filterMap _
  obtain ⟨hread, hcomplete⟩ := chatLines_prefix hnonces reads
  rw [hlines] at hread hcomplete
  constructor
  · have hdrop := hread.drop past.length
    rw [List.drop_left] at hdrop
    exact hdrop.trans hspoken
  · intro hall hopen
    rw [hcomplete hall, List.drop_left]
    rcases hcases with heq | ⟨-, hleft⟩
    · exact congrArg _ heq
    · exact absurd hleft hopen

end Screens

/-- Of two clients that stay in a room, and in no other, each reads on its screen the chat lines
that are handled there in the meantime, in their order and from the first one on; so the
screens never contradict each other, and where all bytes have come through to the client of
an open session nothing is missing. -/
theorem screens_agree (L : DummyClient.OpenSsl) (toAcp : List UInt16 → List UInt8)
    {maxSession : Nat} (hmax : maxSession ≤ 2 ^ 16) {before segment : List ChatEvent}
    {w₁ w₂ : World}
    (hbefore : run (chatStep (serverCrypto L) toAcp) (World.start maxSession) before = some w₁)
    (hsegment : run (chatStep (serverCrypto L) toAcp) w₁ segment = some w₂)
    (hfresh : Fresh w₂.server) (hnonces : ∀ e, e ∈ before ++ segment → NoncesOk e)
    {r : Fin maxRoomCount} {a b : SessionID}
    (ha : Always (chatStep (serverCrypto L) toAcp) (StaysIn r a) w₁ segment)
    (hb : Always (chatStep (serverCrypto L) toAcp) (StaysIn r b) w₁ segment)
    {tA tB : RecvThread}
    (readsA : Reads L (sentFrames (serverCrypto L) toAcp a (World.start maxSession)
      (before ++ segment)) tA)
    (readsB : Reads L (sentFrames (serverCrypto L) toAcp b (World.start maxSession)
      (before ++ segment)) tB) :
    let past (sid : SessionID) :=
      linesTo sid (runLog (serverCrypto L) toAcp (World.start maxSession) before)
    let conversation := spoken (serverCrypto L) toAcp r w₁ segment
    let readA := (chatLines tA.printed).drop (past a).length
    let readB := (chatLines tB.printed).drop (past b).length
    readA <+: conversation ∧ readB <+: conversation ∧ (readA <+: readB ∨ readB <+: readA) ∧
      (readsA.Complete → ¬ Left w₂.server a → readA = conversation) := by
  intro past conversation readA readB
  obtain ⟨hreadA, hall⟩ := read_of_member hmax hbefore hsegment hfresh hnonces ha readsA
  obtain ⟨hreadB, -⟩ := read_of_member hmax hbefore hsegment hfresh hnonces hb readsB
  exact ⟨hreadA, hreadB, List.prefix_or_prefix_of_prefix hreadA hreadB, hall⟩

theorem recvTurn_of_fits (C : Crypto) (fresh : List UInt8 → Nat → UInt8) {bs : List UInt8}
    (hsome : 0 < bs.length) (hfits : bs.length ≤ recvBufferSize) :
    ∃ t, recvTurn C fresh RecvThread.start (.bytes bs) = some t := by
  simp only [recvTurn]
  rw [if_pos ⟨rfl, hsome, hfits⟩]
  split
  · exact ⟨_, rfl⟩
  · exact ⟨_, rfl⟩

/-- The bytes for the writer of the first words come through at once, those for the other client
not at all. -/
theorem screens_agree_firstWords :
    ∃ (w₁ w₂ : World) (t : RecvThread),
      run (chatStep (serverCrypto plainSsl) fun _ => []) (World.start 2) firstWords = some w₁ ∧
      run (chatStep (serverCrypto plainSsl) fun _ => []) w₁ [.update zeroEnv zeroIo] = some w₂ ∧
      (chatLines t.printed).drop (linesTo (sidOf 0 1) (runLog (serverCrypto plainSsl)
          (fun _ => []) (World.start 2) firstWords)).length =
        spoken (serverCrypto plainSsl) (fun _ => []) room1 w₁ [.update zeroEnv zeroIo] ∧
      spoken (serverCrypto plainSsl) (fun _ => []) room1 w₁ [.update zeroEnv zeroIo] ≠ [] := by
  have hfacts : ((run (chatStep (serverCrypto plainSsl) fun _ => []) (World.start 2)
      firstWords).bind fun w₁ =>
        (run (chatStep (serverCrypto plainSsl) fun _ => []) w₁ [.update zeroEnv zeroIo]).map
        fun w₂ => decide ((∀ w, w ∈ [w₁, w₂] →
            (sidOf 0 1 ∈ (w.content.rooms room1).users ∧
              ∀ r, sidOf 0 1 ∈ (w.content.rooms r).users → r = room1) ∧
            sidOf 1 1 ∈ (w.content.rooms room1).users ∧
              ∀ r, sidOf 1 1 ∈ (w.content.rooms r).users → r = room1) ∧
          w₂.server.calls.length < 2 ^ 31 ∧ (∀ call, call ∈ w₂.server.calls →
            call ∈ [.initSession 0 (sidOf 0 1), .onClientJoin 0 (sidOf 0 1),
              .initSession 1 (sidOf 1 1), .onClientJoin 1 (sidOf 1 1)]) ∧
          0 < (sentFrames (serverCrypto plainSsl) (fun _ => []) (sidOf 0 1) (World.start 2)
            (firstWords ++ [.update zeroEnv zeroIo])).flatten.length ∧
          (sentFrames (serverCrypto plainSsl) (fun _ => []) (sidOf 0 1) (World.start 2)
            (firstWords ++ [.update zeroEnv zeroIo])).flatten.length ≤ recvBufferSize ∧
          spoken (serverCrypto plainSsl) (fun _ => []) room1 w₁ [.update zeroEnv zeroIo] ≠ [])) =
      some true := by
    decide +kernel
  obtain ⟨w₁, hbefore, hrest⟩ := Option.bind_eq_some_iff.mp hfacts
  obtain ⟨w₂, hsegment, hw⟩ := Option.map_eq_some_iff.mp hrest
  obtain ⟨hstays, hcalls, hopen, hbytes, hfits, hspoken⟩ := of_decide_eq_true hw
  have hboth : Always (chatStep (serverCrypto plainSsl) fun _ => [])
      (fun w => StaysIn room1 (sidOf 0 1) w ∧ StaysIn room1 (sidOf 1 1) w) w₁
      [.update zeroEnv zeroIo] := by
    intro done hdone u hu
    rcases List.prefix_cons_iff.mp hdone with rfl | ⟨rest, rfl, hnil⟩
    · have hsame : w₁ = u := by simpa using hu
      exact hstays u (by simp [hsame])
    · have hnil : rest = [] := by simpa using hnil
      rw [hnil] at hu
      have hsame : w₂ = u := Option.some.inj (hsegment.symm.trans hu)
      exact hstays u (by simp [hsame])
  have hnotLeft : ¬ Left w₂.server (sidOf 0 1) := by
    rintro ⟨idx, hleft⟩
    simpa using hopen _ hleft
  have hnonces : ∀ e, e ∈ firstWords ++ [.update zeroEnv zeroIo] → NoncesOk e := by
    simp [firstWords, NoncesOk, zeroIo, pktNonceSize]
  obtain ⟨t, ht⟩ := recvTurn_of_fits (DummyClient.clientCrypto plainSsl) (fun _ _ => 0) hbytes hfits
  have hturns : run (recvTurn (DummyClient.clientCrypto plainSsl) fun _ _ => 0) RecvThread.start
      [.bytes (sentFrames (serverCrypto plainSsl) (fun _ => []) (sidOf 0 1) (World.start 2)
        (firstWords ++ [.update zeroEnv zeroIo])).flatten] = some t := by
    rw [run_cons_of_step _ ht, run_nil]
  have hagree := screens_agree plainSsl (fun _ => []) (by decide) hbefore hsegment
    (fun idx => lt_of_le_of_lt (timesUsed_le w₂.server idx) hcalls) hnonces
    (fun done hdone u hu => (hboth done hdone u hu).1)
    (fun done hdone u hu => (hboth done hdone u hu).2)
    ⟨_, _, hturns, by simp [Received.data]⟩ ⟨fun _ _ => 0, [], rfl, List.nil_prefix⟩
  refine ⟨w₁, w₂, t, hbefore, hsegment, ?_, hspoken⟩
  exact hagree.2.2.2 (by simp [Reads.Complete, Received.data]) hnotLeft

end IocpChat.Conversation
