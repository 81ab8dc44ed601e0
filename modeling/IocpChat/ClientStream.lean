import IocpChat.ClientRequests
import IocpChat.RequestDelivery

namespace IocpChat.ClientStream

open IocpChat.Protocol
open IocpChat.RingWindow
open IocpChat.PacketBuffer
open IocpChat.LanServer
open IocpChat.FrameStream
open IocpChat.FrameCodec
open IocpChat.SlotInvariant
open IocpChat.SlotLifecycle
open IocpChat.MessageOrigin
open IocpChat.SendResults
open IocpChat.ContentHandlers
open IocpChat.ChatRuns
open IocpChat.PacketLifetimes
open IocpChat.LabelledRun
open IocpChat.StreamReassembly
open IocpChat.ClientRequests
open IocpChat.RequestDelivery

/-- `SendAll`, given what its calls of `send` return: the bytes that have gone out, and its
result.  There is none while a call of `send` has not returned. -/
def sendAll : List Int → List UInt8 → Option (List UInt8 × Bool)
  | _, [] => some ([], true)
  | [], _ :: _ => none
  | n :: ns, b :: bs =>
      if n ≤ 0 then some ([], false)
      else
        (sendAll ns ((b :: bs).drop n.toNat)).map fun out =>
          ((b :: bs).take n.toNat ++ out.1, out.2)

/-- `SendChatTampered`: the bytes passed to `SendAll`. -/
def sendChatTampered (C : Crypto) (env : DummyClient.SendLocals) (chat : List UInt8) :
    List UInt8 :=
  let payload := DummyClient.chatPayload chat
  let buf := DummyClient.encode C env.nonce payload env.buf
  let buf := blit buf DummyClient.pktHeaderSize [buf DummyClient.pktHeaderSize ^^^ 1]
  slice buf 0 (DummyClient.pktHeaderSize + payload.length)

/-- The requests for which the client has a function. -/
inductive Request where
  | login (account password : List UInt16)
  | signUp (account password nickname : List UInt16)
  | roomEnter (roomNo : UInt16)
  | roomLeave
  | chat (text : List UInt8)
  | tampered (text : List UInt8)

/-- What the function of a request puts behind the header. -/
def Request.payload : Request → List UInt8
  | .login account password => DummyClient.loginPayload account password
  | .signUp account password nickname => DummyClient.signUpPayload account password nickname
  | .roomEnter roomNo => DummyClient.roomEnterPayload roomNo
  | .roomLeave => DummyClient.roomLeavePayload
  | .chat text => DummyClient.chatPayload text
  | .tampered text => DummyClient.chatPayload text

/-- One call of a sender, with what it takes from outside. -/
structure RequestCall where
  request : Request
  env : DummyClient.SendLocals
  results : List Int

/-- What the sender passes to `SendAll`. -/
def RequestCall.bytes (C : Crypto) (call : RequestCall) : Option (List UInt8) :=
  match call.request with
  | .login account password => DummyClient.sendLogin C call.env account password
  | .signUp account password nickname =>
      DummyClient.sendSignUp C call.env account password nickname
  | .roomEnter roomNo => DummyClient.sendRoomEnter C call.env roomNo
  | .roomLeave => DummyClient.sendRoomLeave C call.env
  | .chat text => DummyClient.sendChat C call.env text
  | .tampered text => some (sendChatTampered C call.env text)

/-- What a call puts on the connection, and its result.  There is none while a call of `send`
has not returned. -/
def RequestCall.sent (C : Crypto) (call : RequestCall) : Option (List UInt8 × Bool) :=
  match call.bytes C with
  | none => some ([], false)
  | some buf => sendAll call.results buf

/-- The client's end of a connection: what has gone out, and the results of the calls, which
most callers ignore. -/
structure Connection where
  wire : List UInt8
  results : List Bool

/-- Nothing has been sent. -/
def Connection.new : Connection := ⟨[], []⟩

/-- The bytes of the call go out behind those of the calls before it, whatever became of
those. -/
def send (C : Crypto) (conn : Connection) (call : RequestCall) : Option Connection :=
  (call.sent C).map fun out => ⟨conn.wire ++ out.1, conn.results ++ [out.2]⟩

/-- The calls whose frames have gone out, and their bytes, up to the first frame that `send`
has broken off.  A call that failed before its first byte leaves nothing. -/
def inStep (C : Crypto) : List RequestCall → List RequestCall × List UInt8
  | [] => ([], [])
  | call :: calls =>
      match call.sent C with
      | none => ([], [])
      | some (part, true) => (call :: (inStep C calls).1, part ++ (inStep C calls).2)
      | some ([], false) => inStep C calls
      | some (b :: bs, false) => ([call], b :: bs)

/-- What a frame asks of the server; a tampered one is to be rejected. -/
def RequestCall.asked (call : RequestCall) : Option (List UInt8) :=
  match call.request with
  | .tampered _ => none
  | _ => some call.request.payload

/-- The lowest bit of the first byte is changed. -/
def flipFirst : List UInt8 → List UInt8
  | [] => []
  | b :: bs => (b ^^^ 1) :: bs

/-- The frame of a call as it is meant to go out. -/
def RequestCall.frame (C : Crypto) (call : RequestCall) : List UInt8 :=
  match call.request with
  | .tampered text =>
      let whole := sealed C call.env.nonce (DummyClient.chatPayload text)
      whole.take pktHeaderSize ++ flipFirst (whole.drop pktHeaderSize)
  | _ => sealed C call.env.nonce call.request.payload

/-- The part of the MAC that is sent tells the tampered cipher text from the one it was
made for. -/
def TagsDiffer (C : Crypto) (call : RequestCall) : Prop :=
  match call.request with
  | .tampered text =>
      let payload := DummyClient.chatPayload text
      let header := wordBytes (UInt16.ofNat payload.length) ++ call.env.nonce
      (C.hmac (header ++ C.cipher call.env.nonce payload)).take pktMacSize ≠
        (C.hmac (header ++ flipFirst (C.cipher call.env.nonce payload))).take pktMacSize
  | _ => True

section Sending

theorem sendAll_sent {results : List Int} {buf : List UInt8} {out : List UInt8 × Bool}
    (h : sendAll results buf = some out) : out.1 <+: buf ∧ (out.2 = true → out.1 = buf) := by
  induction results generalizing buf out with
  | nil =>
      rcases buf with _ | ⟨b, bs⟩
      · obtain rfl := Option.some.inj h
        exact ⟨List.prefix_refl _, fun _ => rfl⟩
      · simp [sendAll] at h
  | cons n ns ih =>
      rcases buf with _ | ⟨b, bs⟩
      · obtain rfl := Option.some.inj h
        exact ⟨List.prefix_refl _, fun _ => rfl⟩
      · rw [sendAll] at h
        split at h
        · obtain rfl := Option.some.inj h
          exact ⟨List.nil_prefix, by simp⟩
        · obtain ⟨rest, hrest, rfl⟩ := Option.map_eq_some_iff.mp h
          obtain ⟨hfirst, hall⟩ := ih hrest
          refine ⟨?_, ?_⟩
          · calc (b :: bs).take n.toNat ++ rest.1
                <+: (b :: bs).take n.toNat ++ (b :: bs).drop n.toNat :=
                  (List.prefix_append_right_inj _).mpr hfirst
              _ = b :: bs := List.take_append_drop _ _
          · intro hdone
            simp only [hall hdone, List.take_append_drop]

variable {C : Crypto}

theorem chatPayload_length (text : List UInt8) :
    4 ≤ (DummyClient.chatPayload text).length ∧ (DummyClient.chatPayload text).length ≤ 260 := by
  have hle : (DummyClient.chatLen text).toNat ≤ 256 := by
    simp only [DummyClient.chatLen]
    split
    · decide
    · rename_i hshort
      exact Nat.not_lt.mp hshort
  simp only [DummyClient.chatPayload, slice_length]
  omega

theorem payload_length (request : Request) : request.payload.length ≤ 260 := by
  cases request with
  | login account password =>
      rw [Request.payload, DummyClient.loginPayload, slice_length]
      decide
  | signUp account password nickname =>
      rw [Request.payload, DummyClient.signUpPayload, slice_length]
      decide
  | roomEnter roomNo =>
      rw [Request.payload, DummyClient.roomEnterPayload, slice_length]
      decide
  | roomLeave => decide
  | chat text => exact (chatPayload_length text).2
  | tampered text => exact (chatPayload_length text).2

theorem sendPacket_frame (env : DummyClient.SendLocals) {payload : List UInt8}
    (hfit : payload.length ≤ 260) :
    DummyClient.sendPacket C env payload = some (sealed C env.nonce payload) := by
  have hsize : ¬ DummyClient.sendBufferSize < DummyClient.pktHeaderSize + payload.length := by
    simp only [DummyClient.sendBufferSize, DummyClient.pktHeaderSize]
    omega
  rw [DummyClient.sendPacket, if_neg hsize, clientEncode_eq]
  exact congrArg some (slice_encode C env.nonce_length payload env.buf)

theorem sendChatTampered_eq (env : DummyClient.SendLocals) (text : List UInt8) :
    sendChatTampered C env text =
      (sealed C env.nonce (DummyClient.chatPayload text)).take pktHeaderSize ++
        flipFirst ((sealed C env.nonce (DummyClient.chatPayload text)).drop pktHeaderSize) := by
  set payload := DummyClient.chatPayload text with hpayload
  set m := DummyClient.encode C env.nonce payload env.buf with hm
  have hlong : 4 ≤ payload.length := (chatPayload_length text).1
  obtain ⟨k, hk⟩ := Nat.exists_eq_add_of_le (show 1 ≤ payload.length by omega)
  have hsealed : sealed C env.nonce payload =
      slice m 0 pktHeaderSize ++ slice m pktHeaderSize payload.length := by
    rw [← slice_encode C env.nonce_length payload env.buf, slice_add, Nat.zero_add, hm,
      clientEncode_eq]
  have hrest : slice m pktHeaderSize payload.length =
      m pktHeaderSize :: slice m (pktHeaderSize + 1) k := by
    rw [hk, slice_add]
    rfl
  have hchanged (b : UInt8) :
      slice (blit m pktHeaderSize [b]) pktHeaderSize payload.length =
        b :: slice m (pktHeaderSize + 1) k := by
    have hfirst := slice_blit_self m pktHeaderSize [b]
    have hbehind : slice (blit m pktHeaderSize [b]) (pktHeaderSize + 1) k =
        slice m (pktHeaderSize + 1) k :=
      slice_blit_of_disjoint m [b] (.inr (le_refl _))
    rw [hk, slice_add, hbehind]
    exact congrArg (· ++ slice m (pktHeaderSize + 1) k) hfirst
  have hheader (b : UInt8) :
      slice (blit m pktHeaderSize [b]) 0 pktHeaderSize = slice m 0 pktHeaderSize :=
    slice_blit_of_disjoint m [b] (.inl (by simp))
  have hlength := slice_length m 0 pktHeaderSize
  rw [hsealed, List.take_left' hlength, List.drop_left' hlength, hrest, flipFirst]
  change slice (blit m pktHeaderSize [m pktHeaderSize ^^^ 1]) 0
    (pktHeaderSize + payload.length) = _
  rw [slice_add, Nat.zero_add, hheader, hchanged]

theorem bytes_eq (call : RequestCall) : call.bytes C = some (call.frame C) := by
  have hfit := payload_length call.request
  obtain ⟨request, env, results⟩ := call
  cases request with
  | login account password => exact sendPacket_frame env hfit
  | signUp account password nickname => exact sendPacket_frame env hfit
  | roomEnter roomNo => exact sendPacket_frame env hfit
  | roomLeave => exact sendPacket_frame env hfit
  | chat text => exact sendPacket_frame env hfit
  | tampered text => exact congrArg some (sendChatTampered_eq env text)

theorem sent_eq (call : RequestCall) : call.sent C = sendAll call.results (call.frame C) := by
  rw [RequestCall.sent, bytes_eq]

theorem inStep_sublist (calls : List RequestCall) : (inStep C calls).1.Sublist calls := by
  induction calls with
  | nil => exact List.Sublist.refl _
  | cons call calls ih =>
      rw [inStep]
      split
      · exact List.nil_sublist _
      · exact ih.cons_cons call
      · exact ih.cons call
      · exact (List.nil_sublist calls).cons_cons call

/-- The bytes in step are the front of the frames, and also of all that has gone out. -/
theorem run_send {conn conn' : Connection} {calls : List RequestCall}
    (hrun : run (send C) conn calls = some conn') :
    ∃ more results, conn'.wire = conn.wire ++ ((inStep C calls).2 ++ more) ∧
      conn'.results = conn.results ++ results ∧
      (inStep C calls).2 <+: ((inStep C calls).1.map (RequestCall.frame C)).flatten ∧
      ((∀ r, r ∈ results → r = true) → (inStep C calls).1 = calls ∧ more = [] ∧
        (inStep C calls).2 = (calls.map (RequestCall.frame C)).flatten) := by
  induction calls generalizing conn with
  | nil =>
      obtain rfl : conn = conn' := by simpa using hrun
      exact ⟨[], [], by simp [inStep], by simp, List.prefix_refl _, fun _ => ⟨rfl, rfl, rfl⟩⟩
  | cons call calls ih =>
      simp only [run] at hrun
      cases hstep : send C conn call with
      | none => simp [hstep] at hrun
      | some next =>
          simp only [hstep] at hrun
          obtain ⟨⟨part, ok⟩, hsent, rfl⟩ := Option.map_eq_some_iff.mp hstep
          obtain ⟨more, results, hwire, hresults, hfront, hall⟩ := ih hrun
          obtain ⟨hpart, hdone⟩ := sendAll_sent (sent_eq call ▸ hsent)
          have hresults' : conn'.results = conn.results ++ ok :: results := by
            rw [hresults, List.append_assoc]
            rfl
          cases ok with
          | true =>
              have hwhole : part = call.frame C := hdone rfl
              simp only [inStep, hsent]
              refine ⟨more, true :: results, ?_, hresults', ?_, ?_⟩
              · simp only [hwire, List.append_assoc]
              · rw [List.map_cons, List.flatten_cons, hwhole]
                exact (List.prefix_append_right_inj _).mpr hfront
              · intro htrue
                obtain ⟨hcalls, hmore, hbytes⟩ :=
                  hall fun r hr => htrue r (List.mem_cons_of_mem _ hr)
                rw [hcalls, hbytes, hwhole]
                exact ⟨rfl, hmore, rfl⟩
          | false =>
              have hfails : ¬ ∀ r, r ∈ false :: results → r = true := by
                intro htrue
                cases htrue false List.mem_cons_self
              rcases part with _ | ⟨b, bs⟩
              · simp only [inStep, hsent]
                refine ⟨more, false :: results, ?_, hresults', hfront,
                  fun htrue => absurd htrue hfails⟩
                rw [hwire, List.append_nil]
              · simp only [inStep, hsent]
                refine ⟨(inStep C calls).2 ++ more, false :: results, ?_, hresults', ?_,
                  fun htrue => absurd htrue hfails⟩
                · rw [hwire, List.append_assoc]
                · simpa using hpart

end Sending

section Reading

variable (C : Crypto)

theorem frameReader_empty : (frameReader C).front [] = .incomplete := rfl

theorem reads_decode {piece : List UInt8} (hlength : piece.length = pktHeaderSize + frameLen piece)
    (hfit : frameLen piece ≤ packetBufferSize - pktHeaderSize) :
    Reads (frameReader C) piece (decode C piece) := by
  refine ⟨?_, ?_, ?_⟩
  · intro plain hplain t
    apply (frameReader C).frame_append
    change frameFront C piece = _
    rw [frameFront, if_neg (by omega), if_neg (by omega), if_neg (by omega), ← hlength,
      List.take_length, hplain]
  · intro hnone t
    apply (frameReader C).invalid_append
    change frameFront C piece = _
    rw [frameFront, if_neg (by omega), if_neg (by omega), if_neg (by omega), ← hlength,
      List.take_length, hnone]
  · rintro part ⟨rest, rfl⟩ hshort
    change frameFront C part = _
    rw [frameFront]
    split
    · rfl
    · rename_i hheader
      rw [frameLen_append rest (by omega)] at hlength hfit
      rw [if_neg (by omega), if_pos (by omega)]

theorem reads_sealed {nonce payload : List UInt8} (hnonce : nonce.length = pktNonceSize)
    (hfit : payload.length ≤ 260) :
    Reads (frameReader C) (sealed C nonce payload) (some payload) := by
  have hlen : frameLen (sealed C nonce payload) = payload.length :=
    announced_sealed C nonce (by omega)
  rw [← decode_sealed C hnonce (by omega)]
  apply reads_decode
  · rw [hlen, sealed_length C hnonce]
  · rw [hlen]
    simp only [packetBufferSize, pktHeaderSize]
    omega

theorem flipFirst_length (bytes : List UInt8) : (flipFirst bytes).length = bytes.length := by
  cases bytes <;> rfl

theorem fields_of_parts {header mac : List UInt8} (hheader : header.length = pktMacOffset)
    (hmac : mac.length = pktMacSize) (text : List UInt8) :
    let frame := header ++ (mac ++ text)
    frame.take pktMacOffset = header ∧ tag frame = mac ∧ frame.drop pktHeaderSize = text ∧
      frame.take pktHeaderSize = header ++ mac := by
  intro frame
  have hboth : (header ++ mac).length = pktHeaderSize := by
    rw [List.length_append, hheader, hmac]
    rfl
  have hframe : frame = header ++ mac ++ text := (List.append_assoc _ _ _).symm
  refine ⟨List.take_left' hheader, ?_, ?_, ?_⟩
  · rw [tag, List.drop_left' hheader, List.take_left' hmac]
  · rw [hframe, List.drop_left' hboth]
  · rw [hframe, List.take_left' hboth]

/-- The server rejects a frame whose cipher text has been changed. -/
theorem reads_tampered {nonce payload : List UInt8} (hnonce : nonce.length = pktNonceSize)
    (hfit : payload.length ≤ 260)
    (hdiffer : (C.hmac (wordBytes (UInt16.ofNat payload.length) ++ nonce ++
        C.cipher nonce payload)).take pktMacSize ≠
      (C.hmac (wordBytes (UInt16.ofNat payload.length) ++ nonce ++
        flipFirst (C.cipher nonce payload))).take pktMacSize) :
    Reads (frameReader C) ((sealed C nonce payload).take pktHeaderSize ++
      flipFirst ((sealed C nonce payload).drop pktHeaderSize)) none := by
  set header := wordBytes (UInt16.ofNat payload.length) ++ nonce with hheader
  set mac := (C.hmac (header ++ C.cipher nonce payload)).take pktMacSize with hmac
  set text := flipFirst (C.cipher nonce payload) with htext
  have hheaderLen : header.length = pktMacOffset := by
    rw [hheader, List.length_append, wordBytes_length, hnonce]
    rfl
  have hmacLen : mac.length = pktMacSize := macTake_length C _
  have htextLen : text.length = payload.length := by
    rw [htext, flipFirst_length, Crypto.cipher_length]
  obtain ⟨-, -, hbehind, hfront⟩ := fields_of_parts hheaderLen hmacLen (C.cipher nonce payload)
  have hsealed : sealed C nonce payload = header ++ (mac ++ C.cipher nonce payload) := rfl
  rw [hsealed, hbehind, hfront, List.append_assoc]
  obtain ⟨htake, htag, hdrop, -⟩ := fields_of_parts hheaderLen hmacLen text
  have hlen : frameLen (header ++ (mac ++ text)) = payload.length :=
    announced_sealed C nonce (by omega)
  have hdecode : decode C (header ++ (mac ++ text)) = none := by
    have hannounced : announced (header ++ (mac ++ text)) = text.length := by
      rw [htextLen]
      exact hlen
    rw [decode_eq, expectedTag, htag, htake, hdrop, hannounced, List.take_length, if_neg hdiffer]
  rw [← hdecode]
  apply reads_decode
  · have hsize : (header ++ (mac ++ text)).length =
        header.length + (mac.length + text.length) := by
      simp only [List.length_append]
    rw [hlen, hsize, hheaderLen, hmacLen, htextLen]
    simp only [pktMacOffset, pktMacSize, pktHeaderSize]
    omega
  · rw [hlen]
    simp only [packetBufferSize, pktHeaderSize]
    omega

theorem reads_frame {call : RequestCall} (hdiffer : TagsDiffer C call) :
    Reads (frameReader C) (call.frame C) call.asked := by
  have hfit := payload_length call.request
  obtain ⟨request, env, results⟩ := call
  cases request with
  | login account password => exact reads_sealed C env.nonce_length hfit
  | signUp account password nickname => exact reads_sealed C env.nonce_length hfit
  | roomEnter roomNo => exact reads_sealed C env.nonce_length hfit
  | roomLeave => exact reads_sealed C env.nonce_length hfit
  | chat text => exact reads_sealed C env.nonce_length hfit
  | tampered text => exact reads_tampered C env.nonce_length hfit hdiffer

end Reading

/-- Of the requests that a client makes, the server handles those whose frames have arrived
in full, each of them once and in their order, up to the first tampered frame; when that has
arrived, nothing more is handled, and the session, if it still has its slot, is closed and
receives no more.  This holds as long as nothing has arrived from behind a frame that `send`
has broken off; from then on these requests are still the first ones. -/
theorem requests_handled_as_made (L : DummyClient.OpenSsl)
    (toAcp : List UInt16 → List UInt8) {maxSession : Nat} (hmax : maxSession ≤ 2 ^ 16)
    {events : List ChatEvent} {w : World}
    (hrun : run (chatStep (serverCrypto L) toAcp) (World.start maxSession) events = some w)
    (hfresh : Fresh w.server) (sid : SessionID) {calls : List RequestCall} {conn : Connection}
    (hcalls : run (send (DummyClient.clientCrypto L)) Connection.new calls = some conn)
    (hdiffer : ∀ call, call ∈ calls → TagsDiffer (DummyClient.clientCrypto L) call)
    (hreceived : receivedLog (serverCrypto L) toAcp sid (World.start maxSession) events <+:
      conn.wire) :
    let received := receivedLog (serverCrypto L) toAcp sid (World.start maxSession) events
    let handled := handledLog (serverCrypto L) toAcp sid (World.start maxSession) events ++
      requests w.server sid
    let begun := inStep (DummyClient.clientCrypto L) calls
    let made := admitted (begun.1.map RequestCall.asked)
    let arrived := completePieces (begun.1.map (RequestCall.frame (DummyClient.clientCrypto L)))
      (min begun.2.length received.length)
    made.take arrived <+: handled ∧
      (received.length ≤ begun.2.length → handled = made.take arrived) ∧
      (made.length < arrived → handled = made ∧
        ∀ idx, idx < maxSession → 0 < timesUsed w.server idx →
          (w.server.sessions idx).sID = sid →
          (w.server.sessions idx).closeFlag = true ∧ (w.server.sessions idx).recvsOut = 0) ∧
      ((∀ r, r ∈ conn.results → r = true) → received = conn.wire → arrived = calls.length) := by
  intro received handled begun made arrived
  obtain ⟨hheard, hstreams⟩ := heard_of_run hmax hrun hfresh
  have hhandled : handled = (parse (frameReader (serverCrypto L)) received).1 := hheard.parsed sid
  obtain ⟨more, results, hwire, hresults, hfront, hall⟩ := run_send hcalls
  rw [Connection.new, List.nil_append] at hwire hresults
  rw [clientCrypto_eq] at hdiffer hfront
  have hreads : List.Forall₂ (Reads (frameReader (serverCrypto L)))
      (begun.1.map (RequestCall.frame (serverCrypto L))) (begun.1.map RequestCall.asked) := by
    rw [List.forall₂_map_left_iff, List.forall₂_map_right_iff, List.forall₂_same]
    intro call hcall
    exact reads_frame (serverCrypto L) (hdiffer call ((inStep_sublist calls).subset hcall))
  -- what has arrived of the bytes in step
  have hpart : received.take begun.2.length <+: begun.2 := by
    have hstream : received <+: begun.2 ++ more := hwire ▸ hreceived
    have htake := hstream.take begun.2.length
    rwa [List.take_left] at htake
  obtain ⟨hparsed, hrejected⟩ :=
    parse_pieces (frameReader_empty _) hreads (hpart.trans hfront)
  rw [List.length_take] at hparsed hrejected
  obtain ⟨hfirst, hlast⟩ := parse_prefix (R := frameReader (serverCrypto L))
    (List.take_prefix begun.2.length received)
  refine ⟨?_, ?_, ?_, ?_⟩
  · rw [hhandled]
    exact hparsed ▸ hfirst
  · intro hshort
    rw [List.take_of_length_le hshort] at hparsed
    rw [hhandled]
    exact hparsed
  · intro htampered
    have hverdict := hrejected.mpr htampered
    have hsame := hlast hverdict
    refine ⟨?_, ?_⟩
    · rw [hhandled, hsame, hparsed]
      exact List.take_of_length_le (le_of_lt htampered)
    · rintro idx hidx hused rfl
      obtain ⟨-, hstream⟩ := hstreams idx hidx
      rw [← hheard.current idx hidx hused, hsame, hverdict] at hstream
      exact hstream
  · intro htrue hwhole
    obtain ⟨hbegun, hnone, hbytes⟩ := hall (hresults ▸ htrue)
    have hlength : received.length = begun.2.length := by
      rw [hwhole, hwire, hnone, List.append_nil]
    change completePieces (begun.1.map (RequestCall.frame (DummyClient.clientCrypto L)))
      (min begun.2.length received.length) = _
    rw [hlength, Nat.min_self, hbegun, hbytes, completePieces_flatten, List.length_map]

/-- No encryption, and a MAC that adds up the bytes. -/
def summingSsl : DummyClient.OpenSsl where
  keystream := fun _ _ _ => 0
  hmac := fun _ message => List.replicate pktMacFullSize message.sum
  hmac_length := fun _ _ => List.length_replicate

def zeroLocals : DummyClient.SendLocals where
  nonce := List.replicate 12 0
  buf := fun _ => 0
  nonce_length := List.length_replicate

/-- A client enters room 1, which takes two calls of `send`; the next line it writes does not
go out at all, and the one after that is tampered with. -/
def enterAndTamper : List RequestCall :=
  [⟨.roomEnter 1, zeroLocals, [10, 24]⟩, ⟨.chat [111], zeroLocals, [-1]⟩,
    ⟨.tampered [104, 105], zeroLocals, [37]⟩]

def enterAndTamperWire : List UInt8 :=
  [4, 0] ++ List.replicate 12 0 ++ List.replicate 16 7 ++ [2, 0, 1, 0] ++
    ([7, 0] ++ List.replicate 12 0 ++ List.replicate 16 223 ++ [5, 0, 3, 0, 104, 105, 0])

def enterAndTamperEvents : List ChatEvent :=
  [.net (.accept 7 true true), .update zeroEnv fun _ => ⟨List.replicate 12 0, fun _ => true⟩,
    .net (.recvDone 0 enterAndTamperWire true),
    .update zeroEnv fun _ => ⟨List.replicate 12 0, fun _ => true⟩]

theorem requests_handled_as_made_enterAndTamper :
    ∃ w, run (chatStep (serverCrypto summingSsl) fun _ => []) (World.start 1)
        enterAndTamperEvents = some w ∧
      handledLog (serverCrypto summingSsl) (fun _ => []) (sidOf 0 1) (World.start 1)
          enterAndTamperEvents ++ requests w.server (sidOf 0 1) = [[2, 0, 1, 0]] ∧
      (w.server.sessions 0).closeFlag = true := by
  have hfacts : ((run (chatStep (serverCrypto summingSsl) fun _ => []) (World.start 1)
      enterAndTamperEvents).map fun w =>
        decide (w.server.calls.length < 2 ^ 31 ∧ 0 < timesUsed w.server 0 ∧
          (w.server.sessions 0).sID = sidOf 0 1 ∧
          receivedLog (serverCrypto summingSsl) (fun _ => []) (sidOf 0 1) (World.start 1)
            enterAndTamperEvents = enterAndTamperWire)) = some true := by
    decide +kernel
  obtain ⟨w, hrun, hw⟩ := Option.map_eq_some_iff.mp hfacts
  obtain ⟨hcalls, hused, hsid, hreceived⟩ := of_decide_eq_true hw
  have hsent : (run (send (DummyClient.clientCrypto summingSsl)) Connection.new
      enterAndTamper).map (fun conn => decide (conn.wire = enterAndTamperWire ∧
        conn.results = [true, false, true])) = some true := by
    decide +kernel
  obtain ⟨conn, hconn, hout⟩ := Option.map_eq_some_iff.mp hsent
  obtain ⟨hwire, -⟩ := of_decide_eq_true hout
  have hdiffer : ∀ call, call ∈ enterAndTamper →
      TagsDiffer (DummyClient.clientCrypto summingSsl) call := by
    intro call hcall
    simp only [enterAndTamper, List.mem_cons, List.not_mem_nil, or_false] at hcall
    rcases hcall with rfl | rfl | rfl
    · trivial
    · trivial
    · simp only [TagsDiffer]
      decide +kernel
  obtain ⟨-, hhandled, hclosed, -⟩ := requests_handled_as_made summingSsl (fun _ => [])
    (by decide) hrun (fun idx => lt_of_le_of_lt (timesUsed_le w.server idx) hcalls) (sidOf 0 1)
    hconn hdiffer (by rw [hreceived, hwire])
  have harrived : (enterAndTamperWire.length ≤
        (inStep (DummyClient.clientCrypto summingSsl) enterAndTamper).2.length) ∧
      completePieces ((inStep (DummyClient.clientCrypto summingSsl) enterAndTamper).1.map
        (RequestCall.frame (DummyClient.clientCrypto summingSsl)))
        (min (inStep (DummyClient.clientCrypto summingSsl) enterAndTamper).2.length
          enterAndTamperWire.length) = 2 ∧
      admitted ((inStep (DummyClient.clientCrypto summingSsl) enterAndTamper).1.map
        RequestCall.asked) = [[2, 0, 1, 0]] := by
    decide +kernel
  obtain ⟨hlength, htwo, hmade⟩ := harrived
  rw [hreceived, htwo, hmade] at hhandled hclosed
  exact ⟨w, hrun, hhandled hlength,
    ((hclosed (by decide)).2 0 (by decide) hused hsid).1⟩

end IocpChat.ClientStream
