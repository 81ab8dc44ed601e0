import IocpChat.ClientDisplay

namespace IocpChat.BotReceive

open IocpChat.Protocol
open IocpChat.RingWindow
open IocpChat.PacketBuffer
open IocpChat.LanServer
open IocpChat.ChatRuns
open IocpChat.ClientRequests
open IocpChat.ClientAgreement
open IocpChat.SlotInvariant
open IocpChat.SendResults
open IocpChat.LabelledRun
open IocpChat.DummyClient (Shown showMessage readWord payloadLen)
open IocpChat.RequestDelivery
open IocpChat.FrameDelivery
open IocpChat.ClientDisplay

/-- The global counters that `DrainRecv` raises. -/
structure Counters where
  loginSuccess : BitVec 32
  loginFail : BitVec 32
  recvChatTotal : BitVec 32
  recvAnyTotal : BitVec 32
  deriving DecidableEq, Repr

/-- What the observer prints of a message, apart from colours. -/
inductive Line where
  | chat (nick chat : List UInt8)
  | joined (nick : List UInt8)
  | left (nick : List UInt8)
  deriving DecidableEq, Repr

/-- What is done with a message in the local `plain`. -/
def drainMessage (verbose : Bool) (plain : Nat → UInt8) (c : Counters) :
    Counters × List Line :=
  let type := readWord plain 0
  let c :=
    if type = DummyClient.PacketType.scLoginRes.code then
      if plain 2 = 0 then { c with loginSuccess := c.loginSuccess + 1 }
      else { c with loginFail := c.loginFail + 1 }
    else c
  let c :=
    if type = DummyClient.PacketType.scChatRes.code then
      { c with recvChatTotal := c.recvChatTotal + 1 }
    else c
  let lines :=
    if type = DummyClient.PacketType.scChatRes.code ∧ verbose = true then
      let chatLen := (readWord plain (2 + DummyClient.maxNicknameLen)).toNat
      let copy := if chatLen < DummyClient.maxChatLen then chatLen else DummyClient.maxChatLen
      [Line.chat (slice plain 2 DummyClient.maxNicknameLen)
        (slice plain (2 + DummyClient.maxNicknameLen + 2) copy)]
    else []
  let lines :=
    if verbose = true ∧ type = DummyClient.PacketType.scUserJoin.code then
      lines ++ [.joined (slice plain 2 DummyClient.maxNicknameLen)]
    else lines
  let lines :=
    if verbose = true ∧ type = DummyClient.PacketType.scUserLeave.code then
      lines ++ [.left (slice plain 2 DummyClient.maxNicknameLen)]
    else lines
  ({ c with recvAnyTotal := c.recvAnyTotal + 1 }, lines)

/-- The loop over the bytes in `recvBuf`: whether all MACs were right, and what is left in
the buffer.  The frames before a wrong one have been moved out, the wrong one has not. -/
def drainLoop (C : Crypto) (fresh : List UInt8 → Nat → UInt8) (verbose : Bool)
    (buf : List UInt8) (c : Counters) : (Counters × List Line) × Bool × List UInt8 :=
  if buf.length < DummyClient.pktHeaderSize then ((c, []), true, buf)
  else if buf.length < DummyClient.pktHeaderSize + payloadLen buf then ((c, []), true, buf)
  else
    match DummyClient.decode C (buf.take (DummyClient.pktHeaderSize + payloadLen buf)) with
    | none => ((c, []), false, buf)
    | some plain =>
        let here := drainMessage verbose (blit (fresh buf) 0 plain) c
        let next := drainLoop C fresh verbose
          (buf.drop (DummyClient.pktHeaderSize + payloadLen buf)) here.1
        ((next.1.1, here.2 ++ next.1.2), next.2)
termination_by buf.length
decreasing_by
  rw [List.length_drop]
  simp only [DummyClient.pktHeaderSize] at *
  omega

/-- What the bots make of a message that the interactive client would show. -/
def tally (verbose : Bool) (shown : Shown) (c : Counters) : Counters × List Line :=
  let c := { c with recvAnyTotal := c.recvAnyTotal + 1 }
  match shown with
  | .loginRes result _ _ =>
      (if result = 0 then { c with loginSuccess := c.loginSuccess + 1 }
        else { c with loginFail := c.loginFail + 1 }, [])
  | .chatRes nick chat =>
      ({ c with recvChatTotal := c.recvChatTotal + 1 }, if verbose then [.chat nick chat] else [])
  | .userJoin nick => (c, if verbose then [.joined nick] else [])
  | .userLeave nick => (c, if verbose then [.left nick] else [])
  | .signupRes _ _ => (c, [])
  | .roomEnterRes _ _ => (c, [])
  | .unknown _ => (c, [])

/-- The messages of a list, one after the other. -/
def tallyAll (verbose : Bool) : List Shown → Counters → Counters × List Line
  | [], c => (c, [])
  | shown :: rest, c =>
      let here := tally verbose shown c
      let next := tallyAll verbose rest here.1
      (next.1, here.2 ++ next.2)

section Loops

variable (C : Crypto) (fresh : List UInt8 → Nat → UInt8) (verbose : Bool)

theorem slice_body (plain : Nat → UInt8) (pos len : Nat) :
    slice (fun i => plain (2 + i)) pos len = slice plain (2 + pos) len :=
  slice_shift plain 2 pos len

theorem drainMessage_eq (plain : Nat → UInt8) (c : Counters) :
    drainMessage verbose plain c = tally verbose (showMessage plain) c := by
  have hword : readWord (fun i => plain (2 + i)) DummyClient.maxNicknameLen =
      readWord plain (2 + DummyClient.maxNicknameLen) := rfl
  simp only [drainMessage, showMessage]
  generalize readWord plain 0 = type
  rcases eq_or_ne type DummyClient.PacketType.scLoginRes.code with rfl | hlogin
  · rcases eq_or_ne (plain 2) 0 with hzero | hzero
    · simp [tally, DummyClient.PacketType.code, hzero]
    · simp [tally, DummyClient.PacketType.code, hzero]
  rcases eq_or_ne type DummyClient.PacketType.scChatRes.code with rfl | hchat
  · simp [tally, DummyClient.PacketType.code, slice_body, hword, Nat.add_assoc]
  rcases eq_or_ne type DummyClient.PacketType.scUserJoin.code with rfl | hjoin
  · simp [tally, DummyClient.PacketType.code, slice_body]
  rcases eq_or_ne type DummyClient.PacketType.scUserLeave.code with rfl | hleave
  · simp [tally, DummyClient.PacketType.code, slice_body]
  -- The other messages are only counted.
  simp only [hlogin, hchat, hjoin, hleave, if_false, false_and, and_false]
  split
  · rfl
  · split
    · rfl
    · rfl

/-- `DrainRecv` keeps count of exactly what the interactive client would show, and stops
where that one stops. -/
theorem drainLoop_eq (buf : List UInt8) (c : Counters) :
    (drainLoop C fresh verbose buf c).1 =
        tallyAll verbose (DummyClient.recvLoop C fresh buf).1 c ∧
      (DummyClient.recvLoop C fresh buf).2 =
        if (drainLoop C fresh verbose buf c).2.1 = true then
          some (drainLoop C fresh verbose buf c).2.2 else none := by
  induction buf, c using drainLoop.induct C fresh verbose with
  | case1 buf c hshort =>
      rw [drainLoop, DummyClient.recvLoop, if_pos hshort, if_pos hshort]
      exact ⟨rfl, rfl⟩
  | case2 buf c hlong hshort =>
      rw [drainLoop, DummyClient.recvLoop, if_neg hlong, if_neg hlong, if_pos hshort,
        if_pos hshort]
      exact ⟨rfl, rfl⟩
  | case3 buf c hlong hwhole hbad =>
      rw [drainLoop, DummyClient.recvLoop, if_neg hlong, if_neg hlong, if_neg hwhole,
        if_neg hwhole, hbad]
      exact ⟨rfl, rfl⟩
  | case4 buf c hlong hwhole plain hplain here ih =>
      rw [drainLoop, DummyClient.recvLoop, if_neg hlong, if_neg hlong, if_neg hwhole,
        if_neg hwhole, hplain]
      have hhere : here = tally verbose (showMessage (blit (fresh buf) 0 plain)) c :=
        drainMessage_eq verbose _ c
      rw [hhere] at ih
      obtain ⟨hcounts, hrest⟩ := ih
      simp only [tallyAll, drainMessage_eq]
      rw [← hcounts]
      exact ⟨rfl, hrest⟩

theorem drainLoop_of_recvLoop {buf rest : List UInt8} {shown : List Shown}
    (h : DummyClient.recvLoop C fresh buf = (shown, some rest)) (c : Counters) :
    drainLoop C fresh verbose buf c = (tallyAll verbose shown c, true, rest) := by
  obtain ⟨hcounts, hrest⟩ := drainLoop_eq C fresh verbose buf c
  rw [h] at hcounts hrest
  obtain ⟨hok, hleft⟩ := Option.ite_none_right_eq_some.mp hrest.symm
  exact Prod.ext hcounts (Prod.ext hok (Option.some.inj hleft))

end Loops

/-- What `DrainRecv` finds: no data in time, an error or the end of the connection, or some
bytes. -/
inductive Polled where
  | timeout
  | failed
  | bytes (bs : List UInt8)

/-- The bytes that the call to `recv` has brought. -/
def Polled.data : Polled → List UInt8
  | .timeout => []
  | .failed => []
  | .bytes bs => bs

/-- A timeout of `select` is no failure. -/
def Polled.succeeds : Polled → Bool
  | .failed => false
  | _ => true

/-- What a bot has buffered, the counters, and what it has printed. -/
structure Bot where
  recvBuf : List UInt8
  counters : Counters
  printed : List Line

/-- `DrainRecv`, with its result. -/
def drainRecv (C : Crypto) (fresh : List UInt8 → Nat → UInt8) (verbose : Bool) (b : Bot) :
    Polled → Option (Bool × Bot)
  | .timeout => some (true, b)
  | .failed => some (false, b)
  | .bytes bs =>
      if 0 < bs.length ∧ bs.length ≤ recvBufferSize - b.recvBuf.length then
        let out := drainLoop C fresh verbose (b.recvBuf ++ bs) b.counters
        some (out.2.1, ⟨out.2.2, out.1.1, b.printed ++ out.1.2⟩)
      else none

/-- A call of `DrainRecv`, with what it finds. -/
structure DrainCall where
  verbose : Bool
  found : Polled

/-- The calls on one connection, with the results so far.  `BotThread` and `RunTamper` go on
with the same buffer after calls whose result they ignore. -/
def drainCall (C : Crypto) (fresh : List UInt8 → Nat → UInt8) (s : Bot × List Bool)
    (call : DrainCall) : Option (Bot × List Bool) :=
  (drainRecv C fresh call.verbose s.1 call.found).map fun out => (out.2, s.2 ++ [out.1])

/-- A login response that names the user. -/
def loginSucceeded : Shown → Bool
  | .loginRes result _ _ => result = 0
  | _ => false

/-- A login response that turns the user away. -/
def loginFailed : Shown → Bool
  | .loginRes result _ _ => result ≠ 0
  | _ => false

/-- A chat message. -/
def isChat : Shown → Bool
  | .chatRes _ _ => true
  | _ => false

/-- The counters after these messages. -/
def raised (said : List Shown) (c : Counters) : Counters where
  loginSuccess := c.loginSuccess + BitVec.ofNat 32 (said.countP loginSucceeded)
  loginFail := c.loginFail + BitVec.ofNat 32 (said.countP loginFailed)
  recvChatTotal := c.recvChatTotal + BitVec.ofNat 32 (said.countP isChat)
  recvAnyTotal := c.recvAnyTotal + BitVec.ofNat 32 said.length

section Counts

variable {verbose : Bool}

theorem tally_counters (shown : Shown) (c : Counters) :
    (tally verbose shown c).1 = raised [shown] c := by
  cases shown with
  | loginRes result userNo nick =>
      rcases eq_or_ne result 0 with hzero | hzero
      · simp [tally, raised, loginSucceeded, loginFailed, isChat, hzero]
      · simp [tally, raised, loginSucceeded, loginFailed, isChat, hzero]
  | _ => simp [tally, raised, loginSucceeded, loginFailed, isChat]

theorem raised_append (xs ys : List Shown) (c : Counters) :
    raised (xs ++ ys) c = raised ys (raised xs c) := by
  simp only [raised, List.countP_append, List.length_append, BitVec.ofNat_add, ← add_assoc]

theorem tallyAll_counters (said : List Shown) (c : Counters) :
    (tallyAll verbose said c).1 = raised said c := by
  induction said generalizing c with
  | nil => simp [tallyAll, raised]
  | cons shown said ih =>
      rw [tallyAll, ih, tally_counters, ← raised_append]
      rfl

end Counts

/-- A bot has in its buffer what the interactive client would have, and the counts of what
that one would have printed. -/
def Counts (frames : List (List UInt8)) (said : List Shown) (c : Counters)
    (stream : List UInt8) (b : Bot) : Prop :=
  ∃ printed, Shows frames said stream ⟨b.recvBuf, printed, true⟩ ∧ b.counters = raised printed c

section Calls

variable {C : Crypto} {frames : List (List UInt8)} {said : List Shown}
  {fresh : List UInt8 → Nat → UInt8} {c : Counters} {stream : List UInt8}

theorem drainRecv_counts (h : List.Forall₂ (Carried C) frames said) {verbose ok : Bool}
    {b b' : Bot} {p : Polled} (hcounts : Counts frames said c stream b)
    (hstream : stream ++ p.data <+: frames.flatten)
    (hcall : drainRecv C fresh verbose b p = some (ok, b')) :
    Counts frames said c (stream ++ p.data) b' ∧ ok = p.succeeds := by
  cases p with
  | timeout =>
      cases hcall
      rw [Polled.data, List.append_nil]
      exact ⟨hcounts, rfl⟩
  | failed =>
      cases hcall
      rw [Polled.data, List.append_nil]
      exact ⟨hcounts, rfl⟩
  | bytes bs =>
      obtain ⟨printed, hshows, hraised⟩ := hcounts
      simp only [drainRecv, Option.ite_none_right_eq_some] at hcall
      obtain ⟨hfits, hcall⟩ := hcall
      have hguard : True ∧ 0 < bs.length ∧ bs.length ≤ recvBufferSize - b.recvBuf.length :=
        ⟨trivial, hfits⟩
      have hpieces : stream ++ (Received.bytes bs).data <+: frames.flatten := hstream
      rcases hloop : DummyClient.recvLoop C fresh (b.recvBuf ++ bs) with ⟨shown, _ | rest⟩
      · -- a wrong MAC would stop the interactive client as well
        have hstep : recvTurn C fresh ⟨b.recvBuf, printed, true⟩ (.bytes bs) =
            some ⟨b.recvBuf ++ bs, printed ++ shown, false⟩ := by
          simp only [recvTurn, hloop, if_pos hguard]
        obtain ⟨-, hrunning⟩ := recvTurn_shows h hshows hpieces hstep
        rcases hrunning rfl with hstopped | hended
        · cases hstopped
        · cases hended
      · have hstep : recvTurn C fresh ⟨b.recvBuf, printed, true⟩ (.bytes bs) =
            some ⟨rest, printed ++ shown, true⟩ := by
          simp only [recvTurn, hloop, if_pos hguard]
        obtain ⟨hnext, -⟩ := recvTurn_shows h hshows hpieces hstep
        rw [drainLoop_of_recvLoop C fresh verbose hloop] at hcall
        obtain ⟨rfl, rfl⟩ := Prod.mk.inj (Option.some.inj hcall)
        refine ⟨⟨printed ++ shown, hnext, ?_⟩, rfl⟩
        rw [tallyAll_counters, raised_append, hraised]

theorem run_counts (h : List.Forall₂ (Carried C) frames said) {s s' : Bot × List Bool}
    (hcounts : Counts frames said c stream s.1) {calls : List DrainCall}
    (hstream : stream ++ (calls.map fun call => call.found.data).flatten <+: frames.flatten)
    (hrun : run (drainCall C fresh) s calls = some s') :
    Counts frames said c (stream ++ (calls.map fun call => call.found.data).flatten) s'.1 ∧
      s'.2 = s.2 ++ calls.map fun call => call.found.succeeds := by
  induction calls generalizing stream s with
  | nil =>
      obtain rfl : s = s' := by simpa using hrun
      simp only [List.map_nil, List.flatten_nil, List.append_nil]
      exact ⟨hcounts, trivial⟩
  | cons call calls ih =>
      simp only [run] at hrun
      rw [List.map_cons, List.flatten_cons, ← List.append_assoc] at hstream ⊢
      cases hstep : drainCall C fresh s call with
      | none => simp [hstep] at hrun
      | some next =>
          simp only [hstep] at hrun
          obtain ⟨⟨ok, b⟩, hcall, rfl⟩ := Option.map_eq_some_iff.mp hstep
          obtain ⟨hnext, hok⟩ := drainRecv_counts h hcounts
            ((List.prefix_append _ _).trans hstream) hcall
          obtain ⟨hlast, hresults⟩ := ih hnext hstream hrun
          refine ⟨hlast, ?_⟩
          rw [hresults, List.map_cons, List.append_assoc, hok]
          rfl

end Calls

/-- The counters of a bot are right: whatever part of the frames accepted for its session
has come through, in whatever pieces and with whatever timeouts between them, each message
that is complete has been counted once, as what it is.  A call fails exactly when the
connection does, and `recv` always has room in the buffer. -/
theorem bot_counts_what_was_sent (L : DummyClient.OpenSsl) (toAcp : List UInt16 → List UInt8)
    {maxSession : Nat} {events : List ChatEvent} (hnonces : ∀ e, e ∈ events → NoncesOk e)
    (sid : SessionID) (fresh : List UInt8 → Nat → UInt8) (c : Counters)
    {calls : List DrainCall} {b : Bot} {results : List Bool}
    (hrun : run (drainCall (DummyClient.clientCrypto L) fresh) (⟨[], c, []⟩, []) calls =
      some (b, results))
    (hstream : (calls.map fun call => call.found.data).flatten <+:
      (sentFrames (serverCrypto L) toAcp sid (World.start maxSession) events).flatten) :
    let frames := sentFrames (serverCrypto L) toAcp sid (World.start maxSession) events
    let log := runLog (serverCrypto L) toAcp (World.start maxSession) events
    ∃ said n, List.Forall₂ Answer (messagesTo sid log) said ∧
      (calls.map fun call => call.found.data).flatten =
        (frames.take n).flatten ++ b.recvBuf ∧
      Short b.recvBuf (frames.drop n) ∧ b.recvBuf.length < recvBufferSize ∧
      b.counters = raised (said.take n) c ∧
      results = calls.map fun call => call.found.succeeds := by
  intro frames log
  have hframed : List.Forall₂ (Framed (serverCrypto L)) frames (messagesTo sid log) :=
    sentFrames_framed hnonces
  obtain ⟨said, hanswers, hcarried⟩ := carried_of_framed hframed
  rw [clientCrypto_eq] at hrun
  have hstart : Counts frames said c [] ⟨[], c, []⟩ := by
    refine ⟨[], start_shows hcarried, ?_⟩
    simp [raised]
  obtain ⟨⟨printed, hshows, hraised⟩, hresults⟩ := run_counts hcarried hstart hstream hrun
  have hroom := hshows.room hcarried
  obtain ⟨n, hsplit, -, hshort, hprinted⟩ := hshows
  refine ⟨said, n, hanswers, hsplit, hshort, ?_, hprinted ▸ hraised, hresults⟩
  simp only [recvBufferSize]
  exact lt_trans hroom (by decide)

/-- A bot that enters a room counts the answer once its last byte has come through, also
where it has ignored a failed call in between. -/
theorem bot_counts_what_was_sent_twoRequests :
    ∃ b results said n, run (drainCall (DummyClient.clientCrypto plainSsl) fun _ _ => 0)
        (⟨[], ⟨0, 0, 0, 0⟩, []⟩, [])
        [⟨false, .bytes (enteredFrame.take 10)⟩, ⟨false, .timeout⟩, ⟨false, .failed⟩,
          ⟨true, .bytes (enteredFrame.drop 10)⟩] = some (b, results) ∧
      List.Forall₂ Answer (messagesTo (sidOf 0 1)
        (runLog (serverCrypto plainSsl) (fun _ => []) (World.start 1) twoRequests)) said ∧
      b.counters = raised (said.take n) ⟨0, 0, 0, 0⟩ ∧ b.counters.recvAnyTotal = 1 ∧
      results = [true, true, false, true] := by
  obtain ⟨hfirst, hsecond⟩ := recvLoop_entered
  obtain ⟨hsent, hnonces⟩ := sentFrames_entered
  have hcall : ∀ results, drainCall (DummyClient.clientCrypto plainSsl) (fun _ _ => 0)
      (⟨[], ⟨0, 0, 0, 0⟩, []⟩, results) ⟨false, .bytes (enteredFrame.take 10)⟩ =
        some (⟨enteredFrame.take 10, ⟨0, 0, 0, 0⟩, []⟩, results ++ [true]) := by
    intro results
    simp only [drainCall, drainRecv, drainLoop_of_recvLoop _ _ _ hfirst]
    rw [if_pos (by decide)]
    rfl
  have hlast : ∀ results, drainCall (DummyClient.clientCrypto plainSsl) (fun _ _ => 0)
      (⟨enteredFrame.take 10, ⟨0, 0, 0, 0⟩, []⟩, results)
      ⟨true, .bytes (enteredFrame.drop 10)⟩ =
        some (⟨[], ⟨0, 0, 0, 1⟩, []⟩, results ++ [true]) := by
    intro results
    simp only [drainCall, drainRecv, drainLoop_of_recvLoop _ _ _ hsecond]
    rw [if_pos (by decide)]
    rfl
  have hrun : run (drainCall (DummyClient.clientCrypto plainSsl) fun _ _ => 0)
      (⟨[], ⟨0, 0, 0, 0⟩, []⟩, [])
      [⟨false, .bytes (enteredFrame.take 10)⟩, ⟨false, .timeout⟩, ⟨false, .failed⟩,
        ⟨true, .bytes (enteredFrame.drop 10)⟩] =
        some (⟨[], ⟨0, 0, 0, 1⟩, []⟩, [true, true, false, true]) := by
    rw [run_cons_of_step _ (hcall _), run_cons_of_step _ rfl, run_cons_of_step _ rfl,
      run_cons_of_step _ (hlast _), run_nil]
    rfl
  obtain ⟨said, n, hanswers, -, -, -, hcounts, hresults⟩ := bot_counts_what_was_sent plainSsl
    (fun _ => []) hnonces (sidOf 0 1) (fun _ _ => 0) ⟨0, 0, 0, 0⟩ hrun (by rw [hsent]; decide)
  exact ⟨_, _, said, n, hrun, hanswers, hcounts, rfl, hresults⟩

end IocpChat.BotReceive
