import IocpChat.RoomMembership

namespace IocpChat.ContentSteps

open IocpChat.Protocol
open IocpChat.PacketBuffer
open IocpChat.ContentHandlers
open IocpChat.RoomMembership

/-- The content after an event together with what the handler asks for. -/
def outcome (toAcp : List UInt16 → List UInt8) (c : Content) : Event → Content × List Effect
  | .join env sid => (handleJoin env c sid, [])
  | .leave sid => (handleLeave c sid, [])
  | .recv env sid pkt => handleRecv env c sid pkt
  | .dbResult r => handleDbResult toAcp c r

theorem outcome_fst (toAcp : List UInt16 → List UInt8) (c : Content) (e : Event) :
    (outcome toAcp c e).1 = handle toAcp c e := by
  cases e <;> rfl

/-- The sessions to which an effect sends a packet of this type. -/
def sentTo (type : PacketType) : Effect → List SessionID
  | .pushJob _ => []
  | .send fields targets => if fields.head? = some (wordBytes type.code) then targets else []

/-- The recipients of the packets of one type. -/
def allSentTo (type : PacketType) (effects : List Effect) : List SessionID :=
  effects.flatMap (sentTo type)

/-- No join or leave notice is sent. -/
def NoNotice (effects : List Effect) : Prop :=
  allSentTo .scUserJoin effects = [] ∧ allSentTo .scUserLeave effects = []

theorem noNotice_nil : NoNotice [] := ⟨rfl, rfl⟩

/-- `Handle_Recv` dispatches the packet to `HandleRoomLeave`. -/
def LeaveRequest (env : Env) (pkt : CPacket) : Prop :=
  (pkt.readWord env.type).1 = PacketType.csRoomLeaveReq.code

theorem not_leaveRequest {env : Env} {pkt : CPacket} {no : UInt16}
    (h : enterRequest env pkt = some no) : ¬ LeaveRequest env pkt := by
  intro hleave
  simp only [LeaveRequest] at hleave
  simp [enterRequest, hleave, PacketType.code] at h

/-- The ways an event can go. -/
inductive Outcome (c : Content) : Event → Content → List Effect → Prop
  | joinKnown (env : Env) (sid : SessionID) (pl : CPlayer)
      (hpl : c.players.lookup sid = some pl) : Outcome c (.join env sid) c []
  | joined (env : Env) (sid : SessionID) (hpl : c.players.lookup sid = none) :
      Outcome c (.join env sid)
        { c with players := c.players.insert sid (CPlayer.new sid env.playerMemory) } []
  | leaveUnknown (sid : SessionID) (hpl : c.players.lookup sid = none) :
      Outcome c (.leave sid) c []
  | leftLobby (sid : SessionID) (pl : CPlayer) (hpl : c.players.lookup sid = some pl)
      (hroom : pl.state = .inRoom → getRoom pl.roomNo = none) :
      Outcome c (.leave sid) { c with players := c.players.erase sid } []
  | leftRoom (sid : SessionID) (pl : CPlayer) (i : Fin maxRoomCount)
      (hpl : c.players.lookup sid = some pl) (hroom : pl.state = .inRoom)
      (hget : getRoom pl.roomNo = some i) :
      Outcome c (.leave sid)
        { players := c.players.erase sid
          rooms := Function.update c.rooms i ((c.rooms i).leaveRoom sid) } []
  | recvQuiet (env : Env) (sid : SessionID) (pkt : CPacket) (effects : List Effect)
      (hrequest : enterRequest env pkt = none)
      (hstay : LeaveRequest env pkt → ∀ pl, c.players.lookup sid = some pl →
        pl.state = .inRoom → getRoom pl.roomNo = none)
      (hquiet : NoNotice effects) :
      Outcome c (.recv env sid pkt) c effects
  | roomLeft (env : Env) (sid : SessionID) (pkt : CPacket) (pl : CPlayer)
      (i : Fin maxRoomCount) (hrequest : enterRequest env pkt = none)
      (hleave : LeaveRequest env pkt) (hpl : c.players.lookup sid = some pl)
      (hroom : pl.state = .inRoom) (hget : getRoom pl.roomNo = some i) :
      Outcome c (.recv env sid pkt)
        { players := c.players.insert sid pl.leaveRoom.2
          rooms := Function.update c.rooms i ((c.rooms i).leaveRoom sid) }
        [.send [wordBytes PacketType.scUserLeave.code, pl.leaveRoom.2.nicknameField]
          (env.order ((c.rooms i).leaveRoom sid).users)]
  | enterRefused (env : Env) (sid : SessionID) (pkt : CPacket) (no : UInt16)
      (hrequest : enterRequest env pkt = some no)
      (hrefused : ∀ pl, c.players.lookup sid = some pl → ∀ i, getRoom no = some i →
        sid ∈ (c.rooms i).users ∨ maxLimitPerson ≤ (c.rooms i).users.length) :
      Outcome c (.recv env sid pkt) c []
  | placeTaken (env : Env) (sid : SessionID) (pkt : CPacket) (no : UInt16) (pl : CPlayer)
      (i : Fin maxRoomCount) (room : CRoom) (hrequest : enterRequest env pkt = some no)
      (hpl : c.players.lookup sid = some pl) (hget : getRoom no = some i)
      (henter : (c.rooms i).enterRoom sid = (true, room)) (hroom : pl.state = .inRoom) :
      Outcome c (.recv env sid pkt) { c with rooms := Function.update c.rooms i room } []
  | entered (env : Env) (sid : SessionID) (pkt : CPacket) (no : UInt16) (pl : CPlayer)
      (i : Fin maxRoomCount) (room : CRoom) (hrequest : enterRequest env pkt = some no)
      (hpl : c.players.lookup sid = some pl) (hget : getRoom no = some i)
      (henter : (c.rooms i).enterRoom sid = (true, room)) (hroom : pl.state ≠ .inRoom) :
      Outcome c (.recv env sid pkt)
        { players := c.players.insert sid { pl with roomNo := no, state := .inRoom }
          rooms := Function.update c.rooms i room }
        [.send [wordBytes PacketType.scRoomEnterRes.code,
            [ResultCode.success.code], wordBytes no] [sid],
          .send [wordBytes PacketType.scUserJoin.code,
              CPlayer.nicknameField { pl with roomNo := no, state := .inRoom }]
            ((env.order room.users).filter (· ≠ sid))]
  | dbQuiet (r : DBResult) (effects : List Effect)
      (hfailed : c.players.lookup r.sid = none ∨
        ¬ (r.type = .login ∧ mapLoginResult r.result = .success))
      (hquiet : NoNotice effects) : Outcome c (.dbResult r) c effects
  | loggedIn (r : DBResult) (pl : CPlayer) (name : List UInt8) (effects : List Effect)
      (hpl : c.players.lookup r.sid = some pl) (htype : r.type = .login)
      (hresult : mapLoginResult r.result = .success) (hquiet : NoNotice effects) :
      Outcome c (.dbResult r)
        { c with players := c.players.insert r.sid ((pl.setUserNo r.userNo).setNickname name) }
        effects

theorem handleLogin_noNotice (env : Env) (c : Content) (sid : SessionID) (pkt : CPacket) :
    NoNotice (handleLogin env c sid pkt).2 := by
  simp only [handleLogin]
  split <;> exact ⟨rfl, rfl⟩

theorem handleSignUp_noNotice (env : Env) (c : Content) (sid : SessionID) (pkt : CPacket) :
    NoNotice (handleSignUp env c sid pkt).2 := by
  simp only [handleSignUp]
  split <;> exact ⟨rfl, rfl⟩

theorem handleChat_noNotice (env : Env) (c : Content) (sid : SessionID) (pkt : CPacket) :
    NoNotice (handleChat env c sid pkt).2 := by
  simp only [handleChat]
  split
  · exact noNotice_nil
  · split
    · exact noNotice_nil
    · split
      · exact noNotice_nil
      · split
        · exact noNotice_nil
        · exact ⟨rfl, rfl⟩

theorem handleRoomEnter_outcome (env : Env) (c : Content) (sid : SessionID)
    (pkt pkt' : CPacket) (hrequest : enterRequest env pkt = some (pkt'.readWord env.no).1) :
    Outcome c (.recv env sid pkt) (handleRoomEnter env c sid pkt').1
      (handleRoomEnter env c sid pkt').2 := by
  simp only [handleRoomEnter]
  cases hpl : c.players.lookup sid with
  | none => exact .enterRefused env sid pkt _ hrequest (by simp [hpl])
  | some pl =>
      cases hget : getRoom (pkt'.readWord env.no).1 with
      | none => exact .enterRefused env sid pkt _ hrequest (by simp [hget])
      | some i =>
          have hfst := enterRoom_fst (c.rooms i) sid
          rcases henter : (c.rooms i).enterRoom sid with ⟨entered, room⟩
          rw [henter] at hfst
          cases entered with
          | false =>
              simp only [henter]
              refine .enterRefused env sid pkt _ hrequest ?_
              intro pl' _ j hj
              have hij : i = j := Option.some.inj (hget.symm.trans hj)
              subst hij
              simp only [Bool.false_eq_true, false_iff, not_and, not_not] at hfst
              by_cases hfull : (c.rooms i).users.length < maxLimitPerson
              · exact Or.inl (hfst hfull)
              · exact Or.inr (by omega)
          | true =>
              by_cases hroom : pl.state = .inRoom
              · simp only [henter, CPlayer.enterRoom, hroom, if_true]
                exact .placeTaken env sid pkt _ pl i room hrequest hpl hget henter hroom
              · simp only [henter, CPlayer.enterRoom, hroom, if_false]
                exact .entered env sid pkt _ pl i room hrequest hpl hget henter hroom

theorem handleRoomLeave_outcome (env : Env) (c : Content) (sid : SessionID) (pkt : CPacket)
    (hrequest : enterRequest env pkt = none) (hleave : LeaveRequest env pkt) :
    Outcome c (.recv env sid pkt) (handleRoomLeave env c sid).1
      (handleRoomLeave env c sid).2 := by
  simp only [handleRoomLeave]
  cases hpl : c.players.lookup sid with
  | none => exact .recvQuiet env sid pkt _ hrequest (by simp [hpl]) noNotice_nil
  | some pl =>
      by_cases hroom : pl.state = .inRoom
      · simp only [hroom, ne_eq, not_true_eq_false, if_false]
        cases hget : getRoom pl.roomNo with
        | none => exact .recvQuiet env sid pkt _ hrequest (by simp [hpl, hget]) noNotice_nil
        | some i => exact .roomLeft env sid pkt pl i hrequest hleave hpl hroom hget
      · simp only [hroom, ne_eq, not_false_eq_true, if_true]
        exact .recvQuiet env sid pkt _ hrequest (by simp [hpl, hroom]) noNotice_nil

theorem handleRecv_outcome (env : Env) (c : Content) (sid : SessionID) (pkt : CPacket) :
    Outcome c (.recv env sid pkt) (handleRecv env c sid pkt).1
      (handleRecv env c sid pkt).2 := by
  have hleave : LeaveRequest env pkt ↔
      (pkt.readWord env.type).1 = PacketType.csRoomLeaveReq.code := Iff.rfl
  cases dispatch env sid pkt with
  | login htype h =>
      rw [h, handleLogin_content]
      rw [htype] at hleave
      exact .recvQuiet env sid pkt _ (enterRequest_of_other htype (by decide))
        (fun h => absurd (hleave.mp h) (by decide)) (handleLogin_noNotice env c sid _)
  | signUp htype h =>
      rw [h, handleSignUp_content]
      rw [htype] at hleave
      exact .recvQuiet env sid pkt _ (enterRequest_of_other htype (by decide))
        (fun h => absurd (hleave.mp h) (by decide)) (handleSignUp_noNotice env c sid _)
  | roomEnter htype h =>
      rw [h]
      exact handleRoomEnter_outcome env c sid pkt _ (if_pos htype)
  | roomLeave htype h =>
      rw [h]
      exact handleRoomLeave_outcome env c sid pkt (enterRequest_of_other htype (by decide))
        (hleave.mpr htype)
  | chat htype h =>
      rw [h, handleChat_content]
      rw [htype] at hleave
      exact .recvQuiet env sid pkt _ (enterRequest_of_other htype (by decide))
        (fun h => absurd (hleave.mp h) (by decide)) (handleChat_noNotice env c sid _)
  | unknown henter hstay h =>
      rw [h]
      exact .recvQuiet env sid pkt _ (if_neg henter) (fun h => absurd (hleave.mp h) hstay)
        noNotice_nil

theorem handleDbResult_outcome (toAcp : List UInt16 → List UInt8) (c : Content)
    (r : DBResult) :
    Outcome c (.dbResult r) (handleDbResult toAcp c r).1 (handleDbResult toAcp c r).2 := by
  simp only [handleDbResult]
  cases hpl : c.players.lookup r.sid with
  | none => exact .dbQuiet r _ (.inl hpl) noNotice_nil
  | some pl =>
      cases htype : r.type with
      | signUp => exact .dbQuiet r _ (.inr (by simp [htype])) ⟨rfl, rfl⟩
      | login =>
          by_cases hrc : mapLoginResult r.result = .success
          · simp only [hrc, if_true]
            exact .loggedIn r pl _ _ hpl htype hrc ⟨rfl, rfl⟩
          · simp only [hrc, if_false]
            exact .dbQuiet r _ (.inr (by simp [hrc])) ⟨rfl, rfl⟩

theorem handleLeave_outcome (c : Content) (sid : SessionID) :
    Outcome c (.leave sid) (handleLeave c sid) [] := by
  simp only [handleLeave]
  cases hpl : c.players.lookup sid with
  | none => exact .leaveUnknown sid hpl
  | some pl =>
      by_cases hroom : pl.state = .inRoom
      · simp only [hroom, if_true]
        cases hget : getRoom pl.roomNo with
        | none => exact .leftLobby sid pl hpl fun _ => hget
        | some i => exact .leftRoom sid pl i hpl hroom hget
      · simp only [hroom, if_false]
        exact .leftLobby sid pl hpl fun h => absurd h hroom

/-- Every event goes one of these ways. -/
theorem outcome_cases (toAcp : List UInt16 → List UInt8) (c : Content) (e : Event) :
    Outcome c e (outcome toAcp c e).1 (outcome toAcp c e).2 := by
  cases e with
  | join env sid =>
      simp only [outcome, handleJoin]
      cases hpl : c.players.lookup sid with
      | none => exact .joined env sid hpl
      | some pl => exact .joinKnown env sid pl hpl
  | leave sid => exact handleLeave_outcome c sid
  | recv env sid pkt => exact handleRecv_outcome env c sid pkt
  | dbResult r => exact handleDbResult_outcome toAcp c r

theorem lookup_insert_cases {c : Content} {sid other : SessionID} {new pl : CPlayer}
    (h : (c.players.insert sid new).lookup other = some pl) :
    (other = sid ∧ pl = new) ∨ (other ≠ sid ∧ c.players.lookup other = some pl) := by
  by_cases hother : other = sid
  · subst hother
    rw [AList.lookup_insert] at h
    exact .inl ⟨rfl, (Option.some.inj h).symm⟩
  · rw [AList.lookup_insert_ne hother] at h
    exact .inr ⟨hother, h⟩

theorem lookup_erase_of {c : Content} {sid other : SessionID} {pl : CPlayer}
    (h : (c.players.erase sid).lookup other = some pl) :
    c.players.lookup other = some pl := by
  by_cases hother : other = sid
  · subst hother
    simp at h
  · rwa [AList.lookup_erase_ne hother] at h

theorem mem_update_enterRoom {c : Content} {i j : Fin maxRoomCount} {room : CRoom}
    {sid other : SessionID} (henter : (c.rooms i).enterRoom sid = (true, room))
    (hmem : other ∈ (Function.update c.rooms i room j).users) :
    other = sid ∨ other ∈ (c.rooms j).users := by
  by_cases hj : j = i
  · subst hj
    rw [Function.update_self] at hmem
    exact (mem_enterRoom henter other).mp hmem
  · rw [Function.update_of_ne hj] at hmem
    exact .inr hmem

end IocpChat.ContentSteps
