import IocpChat.ClientAgreement
import IocpChat.FrameDelivery

namespace IocpChat.ClientDisplay

open IocpChat.Protocol
open IocpChat.RingWindow
open IocpChat.PacketBuffer
open IocpChat.LanServer
open IocpChat.FrameCodec
open IocpChat.ContentHandlers
open IocpChat.ChatRuns
open IocpChat.ClientRequests
open IocpChat.ClientAgreement
open IocpChat.SendResults
open IocpChat.SlotInvariant
open IocpChat.LabelledRun
open IocpChat.RequestDelivery
open IocpChat.FrameDelivery

/-- A frame in which the fields of an answer were sealed. -/
def Framed (C : Crypto) (frame : List UInt8) (fields : List (List UInt8)) : Prop :=
  (∃ shown, Answer fields shown) ∧
    ∃ nonce, nonce.length = pktNonceSize ∧ frame = sealed C nonce fields.flatten

/-- The nonces of a step are as long as `RAND_bytes` makes them. -/
def NoncesOk : ChatEvent → Prop
  | .net _ => True
  | .update _ io => ∀ k, (io k).nonce.length = pktNonceSize
  | .dbResult _ _ _ io => ∀ k, (io k).nonce.length = pktNonceSize

/-- What is accepted for a session, by the fields of each packet. -/
def messagesTo (sid : SessionID) (log : List SendCall) : List (List (List UInt8)) :=
  (toSid sid log).map SendCall.fields

/-- Every packet that is sent is one of the answers. -/
def Said (effects : List Effect) : Prop :=
  ∀ fields targets, Effect.send fields targets ∈ effects → ∃ shown, Answer fields shown

section Sent

variable {C : Crypto} {toAcp : List UInt16 → List UInt8} {sid : SessionID}

theorem messagesTo_append (xs ys : List SendCall) :
    messagesTo sid (xs ++ ys) = messagesTo sid xs ++ messagesTo sid ys := by
  simp [messagesTo, toSid]

theorem fields_of_sendAllLog {p : PacketRef} {fields : List (List UInt8)}
    {accepted : SessionID → Bool} {targets : List SessionID} {sv : Server} {x : SendCall}
    (hx : x ∈ sendAllLog p fields accepted targets sv) : x.fields = fields := by
  induction targets generalizing sv with
  | nil => cases hx
  | cons sid targets ih =>
      simp only [sendAllLog] at hx
      rcases List.mem_cons.mp hx with rfl | hx
      · rfl
      · exact ih hx

theorem frame_buildPacket {nonce : List UInt8} (hnonce : nonce.length = pktNonceSize)
    {fields : List (List UInt8)} {shown : DummyClient.Shown} (h : Answer fields shown)
    (sv : Server) :
    Framed C (frame ((buildPacket C nonce fields sv).2.packets (buildPacket C nonce fields sv).1))
      fields := by
  have hshort := answer_length h
  refine ⟨⟨shown, h⟩, nonce, hnonce, wireBytes_buildPacket C hnonce fields ?_ sv⟩
  simp only [pktHeaderSize, packetBufferSize]
  omega

theorem performFrames_framed {io : SendEnv} (hnonce : io.nonce.length = pktNonceSize) (sv : Server)
    {e : Effect} (he : Said [e]) :
    List.Forall₂ (Framed C) (performFrames C io sid sv e)
      (messagesTo sid (performLog C io sv e)) := by
  cases e with
  | pushJob job => exact .nil
  | send fields targets =>
      obtain ⟨shown, hshown⟩ := he fields targets List.mem_cons_self
      have hframe := frame_buildPacket (C := C) hnonce hshown sv
      simp only [performFrames, performLog, messagesTo, List.forall₂_map_left_iff,
        List.forall₂_map_right_iff, List.forall₂_same]
      intro x hx
      rw [fields_of_sendAllLog (List.mem_of_mem_filter hx)]
      exact hframe

theorem performAllFrames_framed {io : Nat → SendEnv}
    (hnonces : ∀ k, (io k).nonce.length = pktNonceSize) {es : List Effect} (hes : Said es)
    (sv : Server) (jobs : List DBJob) :
    List.Forall₂ (Framed C) (performAllFrames C sid io es sv jobs)
      (messagesTo sid (performAllLog C io es sv jobs)) := by
  induction es generalizing sv jobs io with
  | nil => exact .nil
  | cons e es ih =>
      have hhead : Said [e] := by
        intro fields targets hmem
        rw [List.mem_singleton] at hmem
        exact hes fields targets (hmem ▸ List.mem_cons_self)
      have hfirst : List.Forall₂ (Framed C) (performFrames C (io 0) sid sv e)
          (messagesTo sid (performLog C (io 0) sv e)) :=
        performFrames_framed (hnonces 0) sv hhead
      have hrest := ih (fun k => hnonces (k + 1))
        (fun fields targets hmem => hes fields targets (List.mem_cons_of_mem _ hmem))
        (perform C (io 0) sv jobs e).1 (perform C (io 0) sv jobs e).2
      simp only [performAllFrames, performAllLog, messagesTo_append]
      exact List.rel_append hfirst hrest

theorem said_of_startHandler {w : World} {e : ChatEvent} {hd : Handler}
    (hstart : startHandler toAcp w e = some hd) : Said hd.effects := by
  intro fields targets hmem
  cases e with
  | net e => simp [startHandler] at hstart
  | update env io =>
      simp only [startHandler] at hstart
      split at hstart
      · simp at hstart
      · obtain rfl := Option.some.inj hstart
        simp at hmem
      · obtain rfl := Option.some.inj hstart
        simp at hmem
      · obtain rfl := Option.some.inj hstart
        exact handleRecv_answer _ env _ _ hmem
  | dbResult result userNo nickname io =>
      simp only [startHandler] at hstart
      split at hstart
      · simp at hstart
      · obtain rfl := Option.some.inj hstart
        exact handleDbResult_answer _ toAcp _ hmem

theorem stepFrames_framed {w : World} {e : ChatEvent} (hnonces : NoncesOk e) :
    List.Forall₂ (Framed C) (stepFrames C toAcp w sid e)
      (messagesTo sid (stepLog C toAcp w e)) := by
  cases hstart : startHandler toAcp w e with
  | none => simp [stepFrames, stepLog, hstart, messagesTo, toSid]
  | some hd =>
      have hsaid := said_of_startHandler hstart
      cases e with
      | net e => simp [startHandler] at hstart
      | update env io =>
          simp only [stepFrames, stepLog, hstart]
          exact performAllFrames_framed hnonces hsaid hd.server hd.jobs
      | dbResult result userNo nickname io =>
          simp only [stepFrames, stepLog, hstart]
          exact performAllFrames_framed hnonces hsaid hd.server hd.jobs

theorem sentFrames_framed {w : World} {events : List ChatEvent}
    (hnonces : ∀ e, e ∈ events → NoncesOk e) :
    List.Forall₂ (Framed C) (sentFrames C toAcp sid w events)
      (messagesTo sid (runLog C toAcp w events)) := by
  induction events generalizing w with
  | nil => exact .nil
  | cons e events ih =>
      rw [List.forall_mem_cons] at hnonces
      simp only [sentFrames, runLog]
      cases chatStep C toAcp w e with
      | none => exact .nil
      | some next =>
          rw [messagesTo_append]
          exact List.rel_append (stepFrames_framed hnonces.1) (ih hnonces.2)

end Sent

/-- The client shows this for a frame. -/
def Carried (C : Crypto) (frame : List UInt8) (shown : DummyClient.Shown) : Prop :=
  ∃ fields nonce, Answer fields shown ∧ nonce.length = pktNonceSize ∧
    frame = sealed C nonce fields.flatten

section Streams

variable {C : Crypto} {frames : List (List UInt8)} {said : List DummyClient.Shown}

theorem carried_of_framed {messages : List (List (List UInt8))}
    (h : List.Forall₂ (Framed C) frames messages) :
    ∃ said, List.Forall₂ Answer messages said ∧ List.Forall₂ (Carried C) frames said := by
  induction h with
  | nil => exact ⟨[], .nil, .nil⟩
  | cons hframe _ ih =>
      obtain ⟨⟨shown, hshown⟩, nonce, hnonce, hsealed⟩ := hframe
      obtain ⟨said, hanswers, hcarried⟩ := ih
      exact ⟨shown :: said, .cons hshown hanswers,
        .cons ⟨_, nonce, hshown, hnonce, hsealed⟩ hcarried⟩

theorem carried_length {frame : List UInt8} {shown : DummyClient.Shown}
    (h : Carried C frame shown) : pktHeaderSize ≤ frame.length ∧ frame.length ≤ 322 := by
  obtain ⟨fields, nonce, hshown, hnonce, rfl⟩ := h
  have hshort := answer_length hshown
  rw [sealed_length C hnonce]
  simp only [pktHeaderSize]
  omega

/-- Bytes that do not make up the next frame. -/
def Short (rest : List UInt8) (frames : List (List UInt8)) : Prop :=
  ∀ frame, frames.head? = some frame → rest.length < frame.length

theorem recvLoop_prefix (fresh : List UInt8 → Nat → UInt8)
    (h : List.Forall₂ (Carried C) frames said) {stream : List UInt8}
    (hstream : stream <+: frames.flatten) :
    ∃ n rest, stream = (frames.take n).flatten ++ rest ∧ rest <+: (frames.drop n).flatten ∧
      Short rest (frames.drop n) ∧
      DummyClient.recvLoop C fresh stream = (said.take n, some rest) := by
  induction h generalizing stream with
  | nil =>
      obtain rfl : stream = [] := by simpa using hstream
      refine ⟨0, [], rfl, List.prefix_refl _, by simp [Short], ?_⟩
      rw [DummyClient.recvLoop, if_pos (by decide)]
      rfl
  | cons hframe htail ih =>
      rename_i frame shown frames said
      have hlong := hframe
      obtain ⟨fields, nonce, hshown, hnonce, rfl⟩ := hframe
      have hsmall : fields.flatten.length < 65536 := by
        have := answer_length hshown
        omega
      rw [List.flatten_cons] at hstream
      rcases Nat.lt_or_ge stream.length (sealed C nonce fields.flatten).length with hlt | hge
      · have htake : stream = (sealed C nonce fields.flatten).take stream.length := by
          obtain ⟨more, hmore⟩ := hstream
          rw [← List.take_append_of_le_length (le_of_lt hlt), ← hmore, List.take_left]
        refine ⟨0, stream, rfl, by simpa using hstream, ?_, ?_⟩
        · intro frame hhead
          obtain rfl := Option.some.inj hhead
          exact hlt
        · have hloop := recvLoop_partial C fresh hnonce hsmall hlt
          rw [← htake] at hloop
          exact hloop
      · obtain ⟨stream', rfl⟩ : sealed C nonce fields.flatten <+: stream :=
          List.prefix_of_prefix_length_le (List.prefix_append _ _) hstream hge
        obtain ⟨n, rest, hsplit, hrest, hshort, hloop⟩ :=
          ih ((List.prefix_append_right_inj _).mp hstream)
        obtain ⟨old, hfirst⟩ := recvLoop_sealed C fresh hnonce hsmall stream'
        refine ⟨n + 1, rest, ?_, hrest, hshort, ?_⟩
        · rw [hsplit, List.take_succ_cons, List.flatten_cons, List.append_assoc]
        · rw [hfirst, hloop, showMessage_of_answer hshown, List.take_succ_cons]

end Streams

/-- The size of `buf` in `RecvThread`. -/
def recvBufferSize : Nat := 8192

/-- `InteractiveRecvThread` between two calls of `recv`. -/
structure RecvThread where
  buf : List UInt8
  printed : List DummyClient.Shown
  intRunning : Bool

/-- Nothing has been received or shown. -/
def RecvThread.start : RecvThread := ⟨[], [], true⟩

/-- What `recv` returns: some bytes, or that the connection has ended. -/
inductive Received where
  | bytes (bs : List UInt8)
  | ended

/-- The bytes that the call to `recv` has brought. -/
def Received.data : Received → List UInt8
  | .bytes bs => bs
  | .ended => []

/-- One turn of the outer loop.  With a full buffer `recv` can only answer zero. -/
def recvTurn (C : Crypto) (fresh : List UInt8 → Nat → UInt8) (t : RecvThread) :
    Received → Option RecvThread
  | .bytes bs =>
      if t.intRunning = true ∧ 0 < bs.length ∧ bs.length ≤ recvBufferSize - t.buf.length then
        match DummyClient.recvLoop C fresh (t.buf ++ bs) with
        | (shown, some rest) => some { t with buf := rest, printed := t.printed ++ shown }
        | (shown, none) =>
            some { buf := t.buf ++ bs, printed := t.printed ++ shown, intRunning := false }
      else none
  | .ended => if t.intRunning = true then some { t with intRunning := false } else none

/-- The first `n` frames are complete and have been shown, and the buffer holds what there
is of the next one. -/
def Shows (frames : List (List UInt8)) (said : List DummyClient.Shown) (stream : List UInt8)
    (t : RecvThread) : Prop :=
  ∃ n, stream = (frames.take n).flatten ++ t.buf ∧ t.buf <+: (frames.drop n).flatten ∧
    Short t.buf (frames.drop n) ∧ t.printed = said.take n

section Turns

variable {C : Crypto} {frames : List (List UInt8)} {said : List DummyClient.Shown}
  {fresh : List UInt8 → Nat → UInt8}

theorem length_of_mem (h : List.Forall₂ (Carried C) frames said) {frame : List UInt8}
    (hmem : frame ∈ frames) : pktHeaderSize ≤ frame.length ∧ frame.length ≤ 322 := by
  induction h with
  | nil => cases hmem
  | cons hframe _ ih =>
      rcases List.mem_cons.mp hmem with rfl | hmem
      · exact carried_length hframe
      · exact ih hmem

theorem start_shows (h : List.Forall₂ (Carried C) frames said) :
    Shows frames said [] RecvThread.start := by
  refine ⟨0, rfl, List.nil_prefix, ?_, rfl⟩
  intro frame hhead
  have hlong := (length_of_mem h (List.mem_of_mem_head? hhead)).1
  simp only [pktHeaderSize] at hlong
  simp only [RecvThread.start, List.length_nil]
  omega

theorem Shows.room (h : List.Forall₂ (Carried C) frames said) {stream : List UInt8}
    {t : RecvThread} (hshows : Shows frames said stream t) : t.buf.length < 322 := by
  obtain ⟨n, -, hbuf, hshort, -⟩ := hshows
  cases hrest : frames.drop n with
  | nil =>
      rw [hrest] at hbuf
      have hempty : t.buf = [] := by simpa using hbuf
      rw [hempty]
      decide
  | cons frame rest =>
      have hmem : frame ∈ frames := List.mem_of_mem_drop (hrest ▸ List.mem_cons_self)
      have hlt := hshort frame (by rw [hrest]; rfl)
      exact lt_of_lt_of_le hlt (length_of_mem h hmem).2

theorem recvTurn_shows (h : List.Forall₂ (Carried C) frames said) {stream : List UInt8}
    {t t' : RecvThread} {r : Received} (hshows : Shows frames said stream t)
    (hstream : stream ++ r.data <+: frames.flatten) (hstep : recvTurn C fresh t r = some t') :
    Shows frames said (stream ++ r.data) t' ∧
      (t'.intRunning = false → t.intRunning = false ∨ r = .ended) := by
  cases r with
  | ended =>
      simp only [recvTurn, Option.ite_none_right_eq_some] at hstep
      obtain rfl := Option.some.inj hstep.2
      rw [Received.data, List.append_nil]
      exact ⟨hshows, fun _ => Or.inr rfl⟩
  | bytes bs =>
      obtain ⟨n, hsplit, hbuf, hshort, hprinted⟩ := hshows
      have hnext : t.buf ++ bs <+: (frames.drop n).flatten := by
        have hall : frames.flatten = (frames.take n).flatten ++ (frames.drop n).flatten := by
          rw [← List.flatten_append, List.take_append_drop]
        rw [hsplit, Received.data, List.append_assoc, hall] at hstream
        exact (List.prefix_append_right_inj _).mp hstream
      obtain ⟨m, rest, hsplit', hrest, hshort', hloop⟩ :=
        recvLoop_prefix fresh (List.forall₂_drop n h) hnext
      simp only [recvTurn, hloop, Option.ite_none_right_eq_some] at hstep
      obtain ⟨⟨hrunning, -⟩, ht⟩ := hstep
      obtain rfl := Option.some.inj ht
      refine ⟨⟨n + m, ?_, ?_, ?_, ?_⟩, fun hstopped => Or.inl hstopped⟩
      · rw [Received.data, hsplit, List.append_assoc, hsplit', ← List.append_assoc,
          ← List.flatten_append, List.take_add]
      · rwa [← List.drop_drop]
      · rwa [← List.drop_drop]
      · rw [hprinted, List.take_add]

/-- However the stream is cut into pieces, the thread shows the frames it has received in
full, and goes on until the connection ends. -/
theorem run_shows (h : List.Forall₂ (Carried C) frames said) {stream : List UInt8}
    {t t' : RecvThread} (hshows : Shows frames said stream t) {turns : List Received}
    (hstream : stream ++ (turns.map Received.data).flatten <+: frames.flatten)
    (hrun : run (recvTurn C fresh) t turns = some t') :
    Shows frames said (stream ++ (turns.map Received.data).flatten) t' ∧
      (t'.intRunning = false → t.intRunning = false ∨ Received.ended ∈ turns) := by
  induction turns generalizing stream t with
  | nil =>
      obtain rfl : t = t' := by simpa using hrun
      simp only [List.map_nil, List.flatten_nil, List.append_nil]
      exact ⟨hshows, Or.inl⟩
  | cons r turns ih =>
      simp only [run] at hrun
      rw [List.map_cons, List.flatten_cons, ← List.append_assoc] at hstream ⊢
      cases hstep : recvTurn C fresh t r with
      | none => simp [hstep] at hrun
      | some next =>
          simp only [hstep] at hrun
          obtain ⟨hnext, hrunning⟩ := recvTurn_shows h hshows
            ((List.prefix_append _ _).trans hstream) hstep
          obtain ⟨hlast, hrunning'⟩ := ih hnext hstream hrun
          refine ⟨hlast, ?_⟩
          intro hstopped
          rcases hrunning' hstopped with hstopped | hmem
          · rcases hrunning hstopped with hstopped | rfl
            · exact Or.inl hstopped
            · exact Or.inr List.mem_cons_self
          · exact Or.inr (List.mem_cons_of_mem _ hmem)

end Turns

theorem Shows.all {C : Crypto} {frames : List (List UInt8)} {said : List DummyClient.Shown}
    (h : List.Forall₂ (Carried C) frames said) {t : RecvThread}
    (hshows : Shows frames said frames.flatten t) : t.printed = said ∧ t.buf = [] := by
  obtain ⟨n, hsplit, -, hshort, hprinted⟩ := hshows
  have hall : frames.flatten = (frames.take n).flatten ++ (frames.drop n).flatten := by
    rw [← List.flatten_append, List.take_append_drop]
  have hbuf : (frames.drop n).flatten = t.buf := List.append_cancel_left (hall ▸ hsplit)
  have hnone : frames.drop n = [] := by
    cases hrest : frames.drop n with
    | nil => rfl
    | cons frame rest =>
        have hlt := hshort frame (by rw [hrest]; rfl)
        rw [← hbuf, hrest, List.flatten_cons, List.length_append] at hlt
        omega
  have hlength := h.length_eq
  have hend : said.length ≤ n := hlength ▸ List.drop_eq_nil_iff.mp hnone
  rw [hprinted, List.take_of_length_le hend, ← hbuf, hnone]
  exact ⟨rfl, rfl⟩

/-- What the server says to a session reaches the screen of its client: whatever part of
the accepted frames has come through, cut into whatever pieces, the client shows the
messages that are complete, in order and as the handlers wrote them.  It finds no wrong
MAC, its buffer never fills, and it goes on until the connection ends. -/
theorem client_shows_what_was_sent (L : DummyClient.OpenSsl) (toAcp : List UInt16 → List UInt8)
    {maxSession : Nat} {events : List ChatEvent} (hnonces : ∀ e, e ∈ events → NoncesOk e)
    (sid : SessionID) (fresh : List UInt8 → Nat → UInt8) {turns : List Received}
    {t : RecvThread}
    (hrun : run (recvTurn (DummyClient.clientCrypto L) fresh) RecvThread.start turns = some t)
    (hstream : (turns.map Received.data).flatten <+:
      (sentFrames (serverCrypto L) toAcp sid (World.start maxSession) events).flatten) :
    let frames := sentFrames (serverCrypto L) toAcp sid (World.start maxSession) events
    let log := runLog (serverCrypto L) toAcp (World.start maxSession) events
    ∃ said, List.Forall₂ Answer (messagesTo sid log) said ∧
      Shows frames said (turns.map Received.data).flatten t ∧
      ((turns.map Received.data).flatten = frames.flatten → t.printed = said ∧ t.buf = []) ∧
      t.buf.length < recvBufferSize ∧
      (t.intRunning = false → Received.ended ∈ turns) := by
  intro frames log
  have hframed : List.Forall₂ (Framed (serverCrypto L)) frames (messagesTo sid log) :=
    sentFrames_framed hnonces
  obtain ⟨said, hanswers, hcarried⟩ := carried_of_framed hframed
  rw [clientCrypto_eq] at hrun
  obtain ⟨hshows, hrunning⟩ := run_shows hcarried (start_shows hcarried) hstream hrun
  rw [List.nil_append] at hshows
  refine ⟨said, hanswers, hshows, ?_, ?_, ?_⟩
  · intro hall
    rw [hall] at hshows
    exact hshows.all hcarried
  · have hroom := hshows.room hcarried
    simp only [recvBufferSize]
    omega
  · intro hstopped
    rcases hrunning hstopped with hstarted | hmem
    · cases hstarted
    · exact hmem

/-- No encryption and an all-zero MAC, whatever the keys. -/
def plainSsl : DummyClient.OpenSsl where
  keystream := fun _ _ _ => 0
  hmac := fun _ _ => List.replicate pktMacFullSize 0
  hmac_length := fun _ _ => List.length_replicate

/-- The frame of the answer to a client that enters room 1. -/
def enteredFrame : List UInt8 := [5, 0] ++ List.replicate 28 0 ++ [102, 0, 0, 1, 0]

theorem recvLoop_entered :
    DummyClient.recvLoop (DummyClient.clientCrypto plainSsl) (fun _ _ => 0)
        ([] ++ enteredFrame.take 10) = ([], some (enteredFrame.take 10)) ∧
      DummyClient.recvLoop (DummyClient.clientCrypto plainSsl) (fun _ _ => 0)
        (enteredFrame.take 10 ++ enteredFrame.drop 10) = ([.roomEnterRes 0 1], some []) := by
  have hdecoded : DummyClient.decode (DummyClient.clientCrypto plainSsl)
      ((enteredFrame.take 10 ++ enteredFrame.drop 10).take 35) = some [102, 0, 0, 1, 0] := by
    decide
  have hlen : DummyClient.pktHeaderSize +
      DummyClient.payloadLen (enteredFrame.take 10 ++ enteredFrame.drop 10) = 35 := by
    decide
  refine ⟨?_, ?_⟩
  · rw [DummyClient.recvLoop, if_pos (by decide)]
    rfl
  · rw [DummyClient.recvLoop, if_neg (by decide), hlen, if_neg (by decide), hdecoded]
    rw [DummyClient.recvLoop, if_pos (by decide)]
    rfl

theorem sentFrames_entered :
    sentFrames (serverCrypto plainSsl) (fun _ => []) (sidOf 0 1) (World.start 1) twoRequests =
        [enteredFrame] ∧
      ∀ e, e ∈ twoRequests → NoncesOk e := by
  refine ⟨by decide +kernel, ?_⟩
  simp [twoRequests, NoncesOk, pktNonceSize]

/-- The answer comes through in two pieces, and is shown. -/
theorem client_shows_what_was_sent_twoRequests :
    ∃ t said, run (recvTurn (DummyClient.clientCrypto plainSsl) fun _ _ => 0) RecvThread.start
        [.bytes (enteredFrame.take 10), .bytes (enteredFrame.drop 10)] = some t ∧
      List.Forall₂ Answer (messagesTo (sidOf 0 1)
        (runLog (serverCrypto plainSsl) (fun _ => []) (World.start 1) twoRequests)) said ∧
      t.printed = said ∧ t.printed = [.roomEnterRes 0 1] := by
  obtain ⟨hfirst, hsecond⟩ := recvLoop_entered
  obtain ⟨hsent, hnonces⟩ := sentFrames_entered
  have hturn : recvTurn (DummyClient.clientCrypto plainSsl) (fun _ _ => 0) RecvThread.start
      (.bytes (enteredFrame.take 10)) = some ⟨enteredFrame.take 10, [], true⟩ := by
    simp only [recvTurn, RecvThread.start, hfirst]
    rw [if_pos (by decide)]
    rfl
  have hturn' : recvTurn (DummyClient.clientCrypto plainSsl) (fun _ _ => 0)
      ⟨enteredFrame.take 10, [], true⟩ (.bytes (enteredFrame.drop 10)) =
        some ⟨[], [.roomEnterRes 0 1], true⟩ := by
    simp only [recvTurn, hsecond]
    rw [if_pos (by decide)]
    rfl
  have hrun : run (recvTurn (DummyClient.clientCrypto plainSsl) fun _ _ => 0) RecvThread.start
      [.bytes (enteredFrame.take 10), .bytes (enteredFrame.drop 10)] =
        some ⟨[], [.roomEnterRes 0 1], true⟩ := by
    rw [run_cons_of_step _ hturn, run_cons_of_step _ hturn', run_nil]
  obtain ⟨said, hanswers, -, hall, -⟩ := client_shows_what_was_sent plainSsl (fun _ => [])
    hnonces (sidOf 0 1) (fun _ _ => 0) hrun (by rw [hsent]; decide)
  have hstream : ([.bytes (enteredFrame.take 10), .bytes (enteredFrame.drop 10)].map
      Received.data).flatten = [enteredFrame].flatten := by
    decide
  rw [hsent] at hall
  exact ⟨_, said, hrun, hanswers, (hall hstream).1, rfl⟩

end IocpChat.ClientDisplay
