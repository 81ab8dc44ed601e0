import Mathlib.Data.List.AList
import IocpChat.PacketBuffer

/-!
The content layer: players, rooms and the message handlers of the update
thread.  A handler maps the content to the new content together with what it
asks of the rest of the server, namely jobs for the DB worker and packets for
`SendPacket`; neither of them reads or writes players or rooms.  Where the
source dereferences the result of `GetRoom` unchecked, the missing room is a
branch that does nothing.
-/

namespace IocpChat.ContentHandlers

open IocpChat.Protocol
open IocpChat.RingWindow
open IocpChat.PacketBuffer

/-- `PS_NOT_LOGIN`, `PS_LOGGED_IN` and `PS_IN_ROOM`. -/
inductive PlayerState where
  | notLogin
  | loggedIn
  | inRoom
  deriving DecidableEq, Repr

/-- A player; the nickname is the whole array, with what stands behind its end. -/
structure CPlayer where
  sid : SessionID
  userNo : BitVec 32
  nickname : Nat → UInt8
  roomNo : UInt16
  state : PlayerState

namespace CPlayer

/-- `CPlayer(SessionID)` on raw memory: only the first nickname byte is set. -/
def new (sid : SessionID) (memory : Nat → UInt8) : CPlayer where
  sid := sid
  userNo := 0
  nickname := blit memory 0 [0]
  roomNo := invalidRoomNo
  state := .notLogin

/-- The characters of a C string, without its terminator. -/
def cString (name : List UInt8) : List UInt8 := name.takeWhile (· ≠ 0)

/-- `SetNickname` copies up to the terminator and marks the player logged in. -/
def setNickname (pl : CPlayer) (name : List UInt8) : CPlayer :=
  { pl with
    nickname := blit pl.nickname 0 (cString name ++ [0])
    state := .loggedIn }

/-- `CPlayer::SetUserNo`, which leaves the state alone. -/
def setUserNo (pl : CPlayer) (no : BitVec 32) : CPlayer := { pl with userNo := no }

/-- `CPlayer::EnterRoom`, which refuses a player that is in a room, and no other. -/
def enterRoom (pl : CPlayer) (no : UInt16) : Bool × CPlayer :=
  if pl.state = .inRoom then (false, pl)
  else (true, { pl with roomNo := no, state := .inRoom })

/-- `CPlayer::LeaveRoom`. -/
def leaveRoom (pl : CPlayer) : Bool × CPlayer :=
  if pl.state ≠ .inRoom then (false, pl)
  else (true, { pl with roomNo := invalidRoomNo, state := .loggedIn })

/-- `GetNickname()` as the fixed-width field that goes into packets. -/
def nicknameField (pl : CPlayer) : List UInt8 := slice pl.nickname 0 maxNicknameLen

end CPlayer

/-- How many users a room may have. -/
def maxLimitPerson : Nat := 50

/-- `CRoom::users` by its keys; the player pointers stored with them are never
read. -/
structure CRoom where
  users : List SessionID
  nodup : users.Nodup

namespace CRoom

/-- `CRoom::CRoom`. -/
def empty : CRoom where
  users := []
  nodup := List.nodup_nil

/-- `CRoom::EnterRoom`, which refuses a full room and a session that is there already. -/
def enterRoom (room : CRoom) (sid : SessionID) : Bool × CRoom :=
  if h : room.users.length < maxLimitPerson ∧ sid ∉ room.users then
    (true, { users := sid :: room.users, nodup := List.nodup_cons.mpr ⟨h.2, room.nodup⟩ })
  else (false, room)

/-- `CRoom::LeaveRoom`, whatever the session. -/
def leaveRoom (room : CRoom) (sid : SessionID) : CRoom where
  users := room.users.erase sid
  nodup := room.nodup.erase sid

@[simp] theorem mem_leaveRoom (room : CRoom) (sid other : SessionID) :
    other ∈ (room.leaveRoom sid).users ↔ other ≠ sid ∧ other ∈ room.users :=
  room.nodup.mem_erase_iff

end CRoom

/-- `CRoomManager::GetRoom`: the array index of a room number in 1..5. -/
def getRoom (no : UInt16) : Option (Fin maxRoomCount) :=
  if h : 0 < no.toNat ∧ no.toNat ≤ maxRoomCount then
    some ⟨no.toNat - 1, by omega⟩
  else none

/-- The two kinds of jobs. -/
inductive DBJobType where
  | login
  | signUp
  deriving DecidableEq, Repr

/-- A job of the DB worker; the strings are the whole arrays. -/
structure DBJob where
  type : DBJobType
  sid : SessionID
  account : Nat → UInt16
  password : Nat → UInt16
  nickname : Nat → UInt16

/-- A result of the DB worker. -/
structure DBResult where
  type : DBJobType
  sid : SessionID
  result : Int
  userNo : BitVec 32
  nickname : Nat → UInt16

/-- The content of the server: `players` and `roomManager`. -/
structure Content where
  players : AList fun _ : SessionID => CPlayer
  rooms : Fin maxRoomCount → CRoom

/-- Nobody has joined, and all rooms are empty. -/
def Content.initial : Content where
  players := ∅
  rooms := fun _ => CRoom.empty

/-- What a handler asks of the rest of the server: push a DB job, or allocate a
packet, write the fields, seal it and pass it to `SendPacket` for each target
before releasing it. -/
inductive Effect where
  | pushJob (job : DBJob)
  | send (fields : List (List UInt8)) (targets : List SessionID)

/-- What one handler run takes from outside: the values its uninitialised locals
and fresh memory happen to have, and the order in which it walks a hash map. -/
structure Env where
  type : UInt16
  no : UInt16
  chatLen : UInt16
  chat : Nat → UInt8
  playerMemory : Nat → UInt8
  accountMemory : Nat → UInt16
  passwordMemory : Nat → UInt16
  nicknameMemory : Nat → UInt16
  order : List SessionID → List SessionID
  order_perm : ∀ users, (order users).Perm users

/-- Locals and memory that happen to be zero, and maps walked in list order. -/
def zeroEnv : Env where
  type := 0
  no := 0
  chatLen := 0
  chat := fun _ => 0
  playerMemory := fun _ => 0
  accountMemory := fun _ => 0
  passwordMemory := fun _ => 0
  nicknameMemory := fun _ => 0
  order := id
  order_perm := List.Perm.refl

section Handlers

variable (toAcp : List UInt16 → List UInt8) (env : Env) (c : Content)

/-- `Handle_Join`, which keeps a player that is there already. -/
def handleJoin (sid : SessionID) : Content :=
  match c.players.lookup sid with
  | none => { c with players := c.players.insert sid (CPlayer.new sid env.playerMemory) }
  | some _ => c

/-- `Handle_Leave`, which takes the player out of its room without a notice. -/
def handleLeave (sid : SessionID) : Content :=
  match c.players.lookup sid with
  | none => c
  | some pl =>
      let rooms :=
        if pl.state = .inRoom then
          match getRoom pl.roomNo with
          | none => c.rooms
          | some i => Function.update c.rooms i ((c.rooms i).leaveRoom sid)
        else c.rooms
      { players := c.players.erase sid, rooms := rooms }

/-- `ReadPacket((char*)dest, sizeof(wchar_t) * n)` into a `wchar_t` array. -/
def readWide (pkt : CPacket) (n : Nat) (dest : Nat → UInt16) :
    (Nat → UInt16) × CPacket :=
  match pkt.readPacket (2 * n) with
  | (some bytes, pkt') =>
      (fun i => if i < n then leWord (bytes.getD (2 * i) 0) (bytes.getD (2 * i + 1) 0)
        else dest i, pkt')
  | (none, pkt') => (dest, pkt')

/-- An array of a constructed `DBJob`: raw memory with an empty string in front. -/
def emptyWide (memory : Nat → UInt16) : Nat → UInt16 := blit memory 0 [0]

/-- `HandleLogin`; each `ReadPacket` that finds too few bytes leaves its array as it was. -/
def handleLogin (sid : SessionID) (pkt : CPacket) : Content × List Effect :=
  match c.players.lookup sid with
  | none => (c, [])
  | some _ =>
      let (account, pkt) := readWide pkt maxAccountLen (emptyWide env.accountMemory)
      let (password, _) := readWide pkt maxPasswordLen (emptyWide env.passwordMemory)
      (c, [.pushJob
        { type := .login
          sid := sid
          account := blit account (maxAccountLen - 1) [0]
          password := blit password (maxPasswordLen - 1) [0]
          nickname := emptyWide env.nicknameMemory }])

/-- `HandleSignUp`, likewise. -/
def handleSignUp (sid : SessionID) (pkt : CPacket) : Content × List Effect :=
  match c.players.lookup sid with
  | none => (c, [])
  | some _ =>
      let (account, pkt) := readWide pkt maxAccountLen (emptyWide env.accountMemory)
      let (password, pkt) := readWide pkt maxPasswordLen (emptyWide env.passwordMemory)
      let (nickname, _) := readWide pkt maxNicknameLen (emptyWide env.nicknameMemory)
      (c, [.pushJob
        { type := .signUp
          sid := sid
          account := blit account (maxAccountLen - 1) [0]
          password := blit password (maxPasswordLen - 1) [0]
          nickname := blit nickname (maxNicknameLen - 1) [0] }])

/-- The string in a wide array. -/
def wideString (name : Nat → UInt16) : List UInt16 :=
  (slice name 0 (maxNicknameLen + 1)).takeWhile (· ≠ 0)

/-- The local `nick` of `Handle_DbResult`: zeroed, filled by
`WideCharToMultiByte`, and terminated in its last byte. -/
def acpNickname (r : DBResult) : List UInt8 :=
  let converted := (toAcp (wideString r.nickname)).take maxNicknameLen
  slice (blit (blit (fun _ => 0) 0 converted) (maxNicknameLen - 1) [0]) 0 maxNicknameLen

/-- `Handle_DbResult`, which looks for the player first and answers nobody else. -/
def handleDbResult (r : DBResult) : Content × List Effect :=
  match c.players.lookup r.sid with
  | none => (c, [])
  | some pl =>
      match r.type with
      | .login =>
          let rc := mapLoginResult r.result
          let players :=
            if rc = .success then
              c.players.insert r.sid
                ((pl.setUserNo r.userNo).setNickname (acpNickname toAcp r))
            else c.players
          ({ c with players := players },
            [.send [wordBytes PacketType.scLoginRes.code, [rc.code], intBytes r.userNo,
              (slice r.nickname 0 maxNicknameLen).flatMap wordBytes] [r.sid]])
      | .signUp =>
          let rc := mapSignUpResult r.result
          (c, [.send [wordBytes PacketType.scSignupRes.code, [rc.code],
            intBytes r.userNo] [r.sid]])

/-- `HandleRoomEnter` puts the session into the room first and asks the player
afterwards. -/
def handleRoomEnter (sid : SessionID) (pkt : CPacket) : Content × List Effect :=
  let no := (pkt.readWord env.no).1
  match c.players.lookup sid with
  | none => (c, [])
  | some pl =>
      match getRoom no with
      | none => (c, [])
      | some i =>
          match (c.rooms i).enterRoom sid with
          | (false, _) => (c, [])
          | (true, room) =>
              let rooms := Function.update c.rooms i room
              match pl.enterRoom no with
              | (false, _) => ({ c with rooms := rooms }, [])
              | (true, pl') =>
                  ({ players := c.players.insert sid pl', rooms := rooms },
                    [.send [wordBytes PacketType.scRoomEnterRes.code,
                        [ResultCode.success.code], wordBytes no] [sid],
                      .send [wordBytes PacketType.scUserJoin.code, pl'.nicknameField]
                        ((env.order room.users).filter (· ≠ sid))])

/-- `HandleRoomLeave`, with its notice to those who stay. -/
def handleRoomLeave (sid : SessionID) : Content × List Effect :=
  match c.players.lookup sid with
  | none => (c, [])
  | some pl =>
      if pl.state ≠ .inRoom then (c, [])
      else
        match getRoom pl.roomNo with
        | none => (c, [])
        | some i =>
            let room := (c.rooms i).leaveRoom sid
            let pl' := pl.leaveRoom.2
            ({ players := c.players.insert sid pl', rooms := Function.update c.rooms i room },
              [.send [wordBytes PacketType.scUserLeave.code, pl'.nicknameField]
                (env.order room.users)])

/-- `HandleChat`; the length and the text are locals that a short request leaves as they
were. -/
def handleChat (sid : SessionID) (pkt : CPacket) : Content × List Effect :=
  let (chatLen, pkt) := pkt.readWord env.chatLen
  if maxChatLen < chatLen.toNat then (c, [])
  else
    let chat :=
      match pkt.readPacket chatLen.toNat with
      | (some bytes, _) => bytes
      | (none, _) => slice env.chat 0 chatLen.toNat
    match c.players.lookup sid with
    | none => (c, [])
    | some pl =>
        if pl.state ≠ .inRoom then (c, [])
        else
          match getRoom pl.roomNo with
          | none => (c, [])
          | some i =>
              (c, [.send [wordBytes PacketType.scChatRes.code, pl.nicknameField,
                wordBytes chatLen, chat] (env.order (c.rooms i).users)])

/-- `Handle_Recv`: the dispatch on the type, itself such a local. -/
def handleRecv (sid : SessionID) (pkt : CPacket) : Content × List Effect :=
  let (type, pkt) := pkt.readWord env.type
  if type = PacketType.csLoginReq.code then handleLogin env c sid pkt
  else if type = PacketType.csSignupReq.code then handleSignUp env c sid pkt
  else if type = PacketType.csRoomEnterReq.code then handleRoomEnter env c sid pkt
  else if type = PacketType.csRoomLeaveReq.code then handleRoomLeave env c sid
  else if type = PacketType.csChatReq.code then handleChat env c sid pkt
  else (c, [])

end Handlers

/-- The handler to which `Handle_Recv` passes a packet, whatever the content. -/
inductive Dispatch (env : Env) (sid : SessionID) (pkt : CPacket) : Prop
  | login (htype : (pkt.readWord env.type).1 = PacketType.csLoginReq.code)
      (h : ∀ c, handleRecv env c sid pkt = handleLogin env c sid (pkt.readWord env.type).2)
  | signUp (htype : (pkt.readWord env.type).1 = PacketType.csSignupReq.code)
      (h : ∀ c, handleRecv env c sid pkt = handleSignUp env c sid (pkt.readWord env.type).2)
  | roomEnter (htype : (pkt.readWord env.type).1 = PacketType.csRoomEnterReq.code)
      (h : ∀ c, handleRecv env c sid pkt = handleRoomEnter env c sid (pkt.readWord env.type).2)
  | roomLeave (htype : (pkt.readWord env.type).1 = PacketType.csRoomLeaveReq.code)
      (h : ∀ c, handleRecv env c sid pkt = handleRoomLeave env c sid)
  | chat (htype : (pkt.readWord env.type).1 = PacketType.csChatReq.code)
      (h : ∀ c, handleRecv env c sid pkt = handleChat env c sid (pkt.readWord env.type).2)
  | unknown (henter : (pkt.readWord env.type).1 ≠ PacketType.csRoomEnterReq.code)
      (hleave : (pkt.readWord env.type).1 ≠ PacketType.csRoomLeaveReq.code)
      (h : ∀ c, handleRecv env c sid pkt = (c, []))

theorem dispatch (env : Env) (sid : SessionID) (pkt : CPacket) : Dispatch env sid pkt := by
  rcases eq_or_ne (pkt.readWord env.type).1 PacketType.csLoginReq.code with
    hlogin | hlogin
  · refine .login hlogin fun c => ?_
    simp only [handleRecv, hlogin]
    rfl
  rcases eq_or_ne (pkt.readWord env.type).1 PacketType.csSignupReq.code with
    hsignUp | hsignUp
  · refine .signUp hsignUp fun c => ?_
    simp only [handleRecv, hsignUp]
    rfl
  rcases eq_or_ne (pkt.readWord env.type).1 PacketType.csRoomEnterReq.code with
    henter | henter
  · refine .roomEnter henter fun c => ?_
    simp only [handleRecv, henter]
    rfl
  rcases eq_or_ne (pkt.readWord env.type).1 PacketType.csRoomLeaveReq.code with
    hleave | hleave
  · refine .roomLeave hleave fun c => ?_
    simp only [handleRecv, hleave]
    rfl
  rcases eq_or_ne (pkt.readWord env.type).1 PacketType.csChatReq.code with
    hchat | hchat
  · refine .chat hchat fun c => ?_
    simp only [handleRecv, hchat]
    rfl
  · refine .unknown henter hleave fun c => ?_
    simp only [handleRecv, hlogin, hsignUp, henter, hleave, hchat, if_false]

theorem send_not_mem_handleLogin (env : Env) (c : Content) (sid : SessionID) (pkt : CPacket)
    (fields : List (List UInt8)) (targets : List SessionID) :
    Effect.send fields targets ∉ (handleLogin env c sid pkt).2 := by
  simp only [handleLogin]
  split <;> simp

theorem send_not_mem_handleSignUp (env : Env) (c : Content) (sid : SessionID) (pkt : CPacket)
    (fields : List (List UInt8)) (targets : List SessionID) :
    Effect.send fields targets ∉ (handleSignUp env c sid pkt).2 := by
  simp only [handleSignUp]
  split <;> simp

theorem fields_of_handleRoomEnter {env : Env} {c : Content} {sid : SessionID} {pkt : CPacket}
    {fields : List (List UInt8)} {targets : List SessionID}
    (h : Effect.send fields targets ∈ (handleRoomEnter env c sid pkt).2) :
    (∃ no, fields = [wordBytes PacketType.scRoomEnterRes.code, [ResultCode.success.code],
      wordBytes no]) ∨
    ∃ pl : CPlayer, fields = [wordBytes PacketType.scUserJoin.code, pl.nicknameField] := by
  simp only [handleRoomEnter] at h
  split at h
  · simp at h
  · split at h
    · simp at h
    · split at h
      · simp at h
      · split at h
        · simp at h
        · rcases List.mem_cons.mp h with hanswer | hnotice
          · exact .inl ⟨_, (Effect.send.inj hanswer).1⟩
          · exact .inr ⟨_, (Effect.send.inj (List.mem_singleton.mp hnotice)).1⟩

theorem fields_of_handleRoomLeave {env : Env} {c : Content} {sid : SessionID}
    {fields : List (List UInt8)} {targets : List SessionID}
    (h : Effect.send fields targets ∈ (handleRoomLeave env c sid).2) :
    ∃ pl : CPlayer, fields = [wordBytes PacketType.scUserLeave.code, pl.nicknameField] := by
  simp only [handleRoomLeave] at h
  split at h
  · simp at h
  · split at h
    · simp at h
    · split at h
      · simp at h
      · exact ⟨_, (Effect.send.inj (List.mem_singleton.mp h)).1⟩

theorem handleRecv_of_departed (env : Env) {c : Content} {sid : SessionID}
    (hgone : c.players.lookup sid = none) (pkt : CPacket) :
    handleRecv env c sid pkt = (c, []) := by
  simp only [handleRecv, handleLogin, handleSignUp, handleRoomEnter, handleRoomLeave, handleChat,
    hgone, ite_self]

end IocpChat.ContentHandlers
