import IocpChat.ChatService
import IocpChat.ContentSteps

namespace IocpChat.ContentService

open IocpChat.Protocol
open IocpChat.PacketBuffer
open IocpChat.RingWindow
open IocpChat.ContentHandlers
open IocpChat.LabelledRun
open IocpChat.RoomMembership
open IocpChat.ContentSteps
open IocpChat.ChatService

/-- The nickname array of a player. -/
abbrev Nickname := Nat → UInt8

/-- The rooms of the service. -/
abbrev Room := Fin maxRoomCount

/-- An announced length and the bytes that are passed on. -/
abbrev Text := UInt16 × List UInt8

/-- What the server knows of a session as the service sees it. -/
def service (c : Content) : Service SessionID Room Nickname := fun sid =>
  (c.players.lookup sid).map fun pl =>
    ⟨pl.nickname, if pl.state = .inRoom then getRoom pl.roomNo else none⟩

/-- What `HandleChat` passes on. -/
def chatText (env : Env) (pkt : CPacket) : Option Text :=
  let (chatLen, pkt) := pkt.readWord env.chatLen
  if maxChatLen < chatLen.toNat then none
  else some (chatLen,
    (pkt.readPacket chatLen.toNat).1.getD (slice env.chat 0 chatLen.toNat))

/-- What an event asks of the service, whatever the content is. -/
def asked (toAcp : List UInt16 → List UInt8) :
    Event → Option (Request SessionID Room Nickname Text)
  | .join env sid => some (.join sid (CPlayer.new sid env.playerMemory).nickname)
  | .leave sid => some (.leave sid)
  | .recv env sid pkt =>
      let (type, pkt) := pkt.readWord env.type
      if type = PacketType.csRoomEnterReq.code then
        (getRoom (pkt.readWord env.no).1).map (.enter sid)
      else if type = PacketType.csRoomLeaveReq.code then some (.exitRoom sid)
      else if type = PacketType.csChatReq.code then (chatText env pkt).map (.say sid)
      else none
  | .dbResult r =>
      if r.type = .login ∧ mapLoginResult r.result = .success then
        some (.rename r.sid fun name =>
          blit name 0 (CPlayer.cString (acpNickname toAcp r) ++ [0]))
      else none

/-- Rooms are numbered from 1. -/
def roomNumber (r : Room) : UInt16 := UInt16.ofNat (r.val + 1)

/-- The packet that says it. -/
def fieldsOf : Notice Room Nickname Text → List (List UInt8)
  | .entered r =>
      [wordBytes PacketType.scRoomEnterRes.code, [ResultCode.success.code],
        wordBytes (roomNumber r)]
  | .arrived name => [wordBytes PacketType.scUserJoin.code, slice name 0 maxNicknameLen]
  | .departed name => [wordBytes PacketType.scUserLeave.code, slice name 0 maxNicknameLen]
  | .said name (chatLen, text) =>
      [wordBytes PacketType.scChatRes.code, slice name 0 maxNicknameLen, wordBytes chatLen, text]

/-- The effect sends a notice to those who are to hear it, to each once. -/
def Carries (effect : Effect) (out : Notice Room Nickname Text × Set SessionID) : Prop :=
  ∃ targets : List SessionID, effect = .send (fieldsOf out.1) targets ∧ targets.Nodup ∧
    {sid | sid ∈ targets} = out.2

/-- A job for the DB worker, or the answer to one. -/
def isCredential : Effect → Bool
  | .pushJob _ => true
  | .send fields _ =>
      fields.head? = some (wordBytes PacketType.scLoginRes.code) ∨
        fields.head? = some (wordBytes PacketType.scSignupRes.code)

/-- What is sent on account of the rooms. -/
def roomEffects (toAcp : List UInt16 → List UInt8) (c : Content) (e : Event) : List Effect :=
  (outcome toAcp c e).2.filter fun effect => !isCredential effect

/-- The packets passed to `SendPacket` for a session. -/
def sentFor (sid : SessionID) (effects : List Effect) : List (List (List UInt8)) :=
  effects.filterMap fun
    | .pushJob _ => none
    | .send fields targets => if sid ∈ targets then some fields else none

theorem roomNumber_of_getRoom {no : UInt16} {i : Room} (h : getRoom no = some i) :
    roomNumber i = no := by
  have hno := (getRoom_eq_some_iff no i).mp h
  rw [roomNumber, ← hno]
  exact UInt16.ofNat_toNat

section Service

variable {c : Content} {sid : SessionID} {pl : CPlayer}

theorem service_of_lookup (h : c.players.lookup sid = some pl) :
    service c sid =
      some ⟨pl.nickname, if pl.state = .inRoom then getRoom pl.roomNo else none⟩ := by
  rw [service, h, Option.map_some]

theorem service_of_lobby (h : c.players.lookup sid = some pl) (hstate : pl.state ≠ .inRoom) :
    service c sid = some ⟨pl.nickname, none⟩ := by
  rw [service_of_lookup h, if_neg hstate]

theorem service_of_room (h : c.players.lookup sid = some pl) (hstate : pl.state = .inRoom)
    {i : Room} (hget : getRoom pl.roomNo = some i) :
    service c sid = some ⟨pl.nickname, some i⟩ := by
  rw [service_of_lookup h, if_pos hstate, hget]

theorem service_eq_none (h : c.players.lookup sid = none) : service c sid = none := by
  rw [service, h, Option.map_none]

theorem service_insert (c : Content) (sid : SessionID) (pl : CPlayer) (rooms : Room → CRoom) :
    service { players := c.players.insert sid pl, rooms := rooms } =
      Function.update (service c) sid
        (some ⟨pl.nickname, if pl.state = .inRoom then getRoom pl.roomNo else none⟩) := by
  funext other
  rcases eq_or_ne other sid with rfl | hne
  · rw [Function.update_self]
    exact service_of_lookup (AList.lookup_insert _)
  · rw [Function.update_of_ne hne]
    simp only [service, AList.lookup_insert_ne hne]

theorem service_erase (c : Content) (sid : SessionID) (rooms : Room → CRoom) :
    service { players := c.players.erase sid, rooms := rooms } =
      Function.update (service c) sid none := by
  funext other
  rcases eq_or_ne other sid with rfl | hne
  · rw [Function.update_self]
    exact service_eq_none (by simp)
  · rw [Function.update_of_ne hne]
    simp only [service, AList.lookup_erase_ne hne]

theorem members_service (h : RoomsConsistent c) (i : Room) :
    members (service c) i = {sid | sid ∈ (c.rooms i).users} := by
  ext sid
  rw [Set.mem_ofPred_eq, (roomsConsistent_iff c).mp h i sid]
  simp only [members, Set.mem_ofPred_eq, service, location]
  rcases hpl : c.players.lookup sid with _ | pl
  · simp
  · simp

theorem ncard_members (h : RoomsConsistent c) (i : Room) :
    (members (service c) i).ncard = (c.rooms i).users.length := by
  rw [members_service h]
  have hcoe : {sid | sid ∈ (c.rooms i).users} = ((c.rooms i).users.toFinset : Set SessionID) := by
    ext sid
    simp
  rw [hcoe, Set.ncard_coe_finset, List.toFinset_card_of_nodup (c.rooms i).nodup]

end Service

/-- A step of the handlers is the step of the service, and what it sends on account of the
rooms are the service's notices. -/
def Serves (toAcp : List UInt16 → List UInt8) (c : Content) (e : Event) : Prop :=
  List.Forall₂ Carries (roomEffects toAcp c e)
      (notices maxLimitPerson (service c) (asked toAcp e)) ∧
    service (handle toAcp c e) = next maxLimitPerson (service c) (asked toAcp e)

section Steps

variable {toAcp : List UInt16 → List UInt8} {env : Env} {c : Content} {sid : SessionID}
  {pkt : CPacket}

theorem join_serves : Serves toAcp c (.join env sid) := by
  constructor
  · exact .nil
  · simp only [handle, handleJoin, asked, next]
    rcases hpl : c.players.lookup sid with _ | pl
    · rw [service_eq_none hpl]
      exact service_insert c sid (CPlayer.new sid env.playerMemory) c.rooms
    · rw [service_of_lookup hpl]

theorem leave_serves : Serves toAcp c (.leave sid) := by
  constructor
  · exact .nil
  · simp only [handle, handleLeave, asked, next]
    rcases hpl : c.players.lookup sid with _ | pl
    · exact (Function.update_eq_self_iff.mpr (service_eq_none hpl).symm).symm
    · exact service_erase c sid _

theorem handleRoomLeave_serves (hrooms : RoomsConsistent c) (hnos : RoomNosValid c) :
    List.Forall₂ Carries ((handleRoomLeave env c sid).2.filter fun effect => !isCredential effect)
        (notices maxLimitPerson (service c)
          (some (.exitRoom sid) : Option (Request SessionID Room Nickname Text))) ∧
      service (handleRoomLeave env c sid).1 = next maxLimitPerson (service c)
        (some (.exitRoom sid) : Option (Request SessionID Room Nickname Text)) := by
  rcases hpl : c.players.lookup sid with _ | pl
  · simp only [handleRoomLeave, notices, next, hpl, service_eq_none hpl]
    exact ⟨.nil, trivial⟩
  rcases ne_or_eq pl.state .inRoom with hstate | hstate
  · simp only [handleRoomLeave, notices, next, hpl, service_of_lobby hpl hstate, hstate, ne_eq,
      not_false_eq_true, if_true]
    exact ⟨.nil, trivial⟩
  · obtain ⟨i, hget⟩ := hnos sid pl hpl hstate
    have hname : pl.leaveRoom.2.nicknameField = slice pl.nickname 0 maxNicknameLen := by
      simp [CPlayer.leaveRoom, hstate, CPlayer.nicknameField]
    simp only [handleRoomLeave, notices, next, hpl, service_of_room hpl hstate hget, hstate, ne_eq,
      not_true_eq_false, if_false, hget, hname]
    constructor
    · refine .cons ⟨_, rfl, ?_, ?_⟩ .nil
      · exact (env.order_perm _).nodup_iff.mpr ((c.rooms i).leaveRoom sid).nodup
      · rw [members_service hrooms]
        ext other
        simp [(env.order_perm _).mem_iff, and_comm]
    · rw [service_insert]
      simp [CPlayer.leaveRoom, hstate]

theorem handleRoomEnter_serves (hrooms : RoomsConsistent c) (hnos : RoomNosValid c)
    (hsafe : EnterSafe c sid (pkt.readWord env.no).1) :
    List.Forall₂ Carries
        ((handleRoomEnter env c sid pkt).2.filter fun effect => !isCredential effect)
        (notices maxLimitPerson (service c) ((getRoom (pkt.readWord env.no).1).map (.enter sid) :
          Option (Request SessionID Room Nickname Text))) ∧
      service (handleRoomEnter env c sid pkt).1 = next maxLimitPerson (service c)
        ((getRoom (pkt.readWord env.no).1).map (.enter sid) :
          Option (Request SessionID Room Nickname Text)) := by
  simp only [handleRoomEnter]
  generalize hno : (pkt.readWord env.no).1 = no at hsafe ⊢
  rcases hget : getRoom no with _ | i
  · rw [Option.map_none]
    rcases c.players.lookup sid with _ | pl
    · exact ⟨.nil, rfl⟩
    · exact ⟨.nil, rfl⟩
  rw [Option.map_some]
  rcases hpl : c.players.lookup sid with _ | pl
  · simp only [notices, next, service_eq_none hpl]
    exact ⟨.nil, trivial⟩
  have hentered := enterRoom_fst (c.rooms i) sid
  rcases henter : (c.rooms i).enterRoom sid with ⟨entered, room⟩
  rw [henter] at hentered
  rcases eq_or_ne pl.state .inRoom with hstate | hstate
  · -- a safe request out of another room finds no place
    have hrefused : entered = false := by
      rw [Bool.eq_false_iff, ne_eq, hentered]
      rintro ⟨hroomy, hnew⟩
      rcases hsafe pl hpl hstate i hget with hmem | hfull
      · exact hnew hmem
      · omega
    subst hrefused
    obtain ⟨j, hj⟩ := hnos sid pl hpl hstate
    simp only [notices, next, service_of_room hpl hstate hj, henter]
    exact ⟨.nil, trivial⟩
  have hnew : sid ∉ (c.rooms i).users := by
    intro hmem
    obtain ⟨pl', hpl', hstate', -⟩ := (hrooms i sid).mp hmem
    rw [hpl] at hpl'
    obtain rfl := Option.some.inj hpl'
    exact hstate hstate'
  simp only [notices, next, service_of_lobby hpl hstate, ncard_members hrooms, henter]
  rcases entered with _ | _
  · have hfull : ¬ (c.rooms i).users.length < maxLimitPerson := by
      intro hroomy
      simpa using hentered.mpr ⟨hroomy, hnew⟩
    rw [if_neg hfull, if_neg hfull]
    exact ⟨.nil, rfl⟩
  · rw [if_pos (hentered.mp rfl).1, if_pos (hentered.mp rfl).1]
    simp only [CPlayer.enterRoom, hstate, if_false]
    constructor
    · refine .cons ⟨[sid], ?_, List.nodup_singleton sid, ?_⟩ (.cons ⟨_, rfl, ?_, ?_⟩ .nil)
      · rw [fieldsOf, roomNumber_of_getRoom hget]
      · ext other
        simp
      · exact ((env.order_perm _).nodup_iff.mpr room.nodup).filter _
      · rw [members_service hrooms]
        ext other
        simp only [Set.mem_ofPred_eq, List.mem_filter, (env.order_perm _).mem_iff,
          mem_enterRoom henter, decide_eq_true_eq, ne_eq]
        constructor
        · rintro ⟨rfl | hmem, hne⟩
          · exact absurd rfl hne
          · exact hmem
        · intro hmem
          refine ⟨.inr hmem, ?_⟩
          rintro rfl
          exact hnew hmem
    · rw [service_insert]
      simp [hget]

theorem handleChat_serves (hrooms : RoomsConsistent c) (hnos : RoomNosValid c) :
    List.Forall₂ Carries ((handleChat env c sid pkt).2.filter fun effect => !isCredential effect)
      (notices maxLimitPerson (service c) ((chatText env pkt).map (.say sid) :
        Option (Request SessionID Room Nickname Text))) := by
  simp only [handleChat, chatText]
  generalize (pkt.readWord env.chatLen).1 = chatLen
  generalize (pkt.readWord env.chatLen).2 = pkt'
  split
  · exact .nil
  rw [Option.map_some]
  rcases hpl : c.players.lookup sid with _ | pl
  · simp only [notices, service_eq_none hpl]
    exact .nil
  rcases ne_or_eq pl.state .inRoom with hstate | hstate
  · simp only [notices, service_of_lobby hpl hstate, hstate, ne_eq, not_false_eq_true, if_true]
    exact .nil
  · obtain ⟨i, hget⟩ := hnos sid pl hpl hstate
    simp only [notices, service_of_room hpl hstate hget, hstate, ne_eq, not_true_eq_false,
      if_false, hget]
    refine .cons ⟨env.order (c.rooms i).users, ?_, ?_, ?_⟩ .nil
    · rcases pkt'.readPacket chatLen.toNat with ⟨_ | bytes, rest⟩
      · rfl
      · rfl
    · exact (env.order_perm _).nodup_iff.mpr (c.rooms i).nodup
    · rw [members_service hrooms]
      ext other
      simp [(env.order_perm _).mem_iff]

theorem asked_of_other {type : UInt16} (htype : (pkt.readWord env.type).1 = type)
    (henter : type ≠ PacketType.csRoomEnterReq.code)
    (hleave : type ≠ PacketType.csRoomLeaveReq.code)
    (hchat : type ≠ PacketType.csChatReq.code) : asked toAcp (.recv env sid pkt) = none := by
  simp only [asked, htype, henter, hleave, hchat, if_false]

theorem handleLogin_credential (pkt : CPacket) :
    (handleLogin env c sid pkt).2.filter (fun effect => !isCredential effect) = [] := by
  simp only [handleLogin]
  split
  · rfl
  · rfl

theorem handleSignUp_credential (pkt : CPacket) :
    (handleSignUp env c sid pkt).2.filter (fun effect => !isCredential effect) = [] := by
  simp only [handleSignUp]
  split
  · rfl
  · rfl

theorem recv_chat_serves (hrooms : RoomsConsistent c) (hnos : RoomNosValid c)
    (htype : (pkt.readWord env.type).1 = PacketType.csChatReq.code) :
    Serves toAcp c (.recv env sid pkt) := by
  have hrecv : handleRecv env c sid pkt = handleChat env c sid (pkt.readWord env.type).2 := by
    simp only [handleRecv, htype]
    rfl
  have hasked : asked toAcp (.recv env sid pkt) =
      (chatText env (pkt.readWord env.type).2).map (.say sid) := by
    simp only [asked, htype]
    rfl
  simp only [Serves, roomEffects, outcome, handle]
  rw [hrecv, hasked, handleChat_content]
  refine ⟨handleChat_serves hrooms hnos, ?_⟩
  rcases chatText env (pkt.readWord env.type).2 with _ | text
  · rfl
  · rfl

theorem recv_serves (hrooms : RoomsConsistent c) (hnos : RoomNosValid c)
    (hsafe : Safe c (.recv env sid pkt)) : Serves toAcp c (.recv env sid pkt) := by
  simp only [Serves, roomEffects, outcome, handle]
  cases dispatch env sid pkt with
  | login htype h =>
      rw [h, asked_of_other htype (by decide) (by decide) (by decide), handleLogin_content,
        handleLogin_credential]
      exact ⟨.nil, rfl⟩
  | signUp htype h =>
      rw [h, asked_of_other htype (by decide) (by decide) (by decide), handleSignUp_content,
        handleSignUp_credential]
      exact ⟨.nil, rfl⟩
  | roomEnter htype h =>
      have hasked : asked toAcp (.recv env sid pkt) =
          (getRoom ((pkt.readWord env.type).2.readWord env.no).1).map (.enter sid) := by
        simp only [asked, htype, if_true]
      rw [h, hasked]
      exact handleRoomEnter_serves hrooms hnos (hsafe _ (if_pos htype))
  | roomLeave htype h =>
      have hasked : asked toAcp (.recv env sid pkt) = some (.exitRoom sid) := by
        simp only [asked, htype]
        rfl
      rw [h, hasked]
      exact handleRoomLeave_serves hrooms hnos
  | chat htype h => exact recv_chat_serves hrooms hnos htype
  | unknown henter hleave h =>
      rcases eq_or_ne (pkt.readWord env.type).1 PacketType.csChatReq.code with hchat | hchat
      · exact recv_chat_serves hrooms hnos hchat
      · rw [h, asked_of_other rfl henter hleave hchat]
        exact ⟨.nil, rfl⟩

theorem dbResult_serves {r : DBResult} (hsafe : LoginSafe c r) :
    Serves toAcp c (.dbResult r) := by
  have hquiet : roomEffects toAcp c (.dbResult r) = [] := by
    simp only [roomEffects, outcome, handleDbResult]
    split
    · rfl
    · split
      · rfl
      · rfl
  rcases Classical.em (r.type = .login ∧ mapLoginResult r.result = .success) with hlogin | hother
  · obtain ⟨htype, hresult⟩ := hlogin
    have hasked : asked toAcp (.dbResult r) = some (.rename r.sid fun name =>
        blit name 0 (CPlayer.cString (acpNickname toAcp r) ++ [0])) := if_pos ⟨htype, hresult⟩
    rw [Serves, hquiet, hasked]
    rcases hpl : c.players.lookup r.sid with _ | pl
    · simp only [handle, handleDbResult, notices, next, hpl, service_eq_none hpl]
      exact ⟨.nil, trivial⟩
    · simp only [handle, handleDbResult, notices, next, hpl, htype, hresult, if_true,
        service_of_lobby hpl (hsafe htype hresult pl hpl)]
      refine ⟨.nil, ?_⟩
      rw [service_insert]
      simp [CPlayer.setNickname, CPlayer.setUserNo]
  · have hasked : asked toAcp (.dbResult r) = none := if_neg hother
    rw [Serves, hquiet, hasked]
    refine ⟨.nil, ?_⟩
    simp only [handle, handleDbResult, next]
    split
    · rfl
    · split
      · rename_i htype
        rw [if_neg fun hresult => hother ⟨htype, hresult⟩]
      · rfl

theorem serves (hrooms : RoomsConsistent c) (hnos : RoomNosValid c) {e : Event}
    (hsafe : Safe c e) : Serves toAcp c e := by
  cases e with
  | join env sid => exact join_serves
  | leave sid => exact leave_serves
  | recv env sid pkt => exact recv_serves hrooms hnos hsafe
  | dbResult r => exact dbResult_serves hsafe

end Steps

/-- The state of the service read off a content whose rooms and players agree. -/
def Shows (c : Content) (s : Service SessionID Room Nickname) : Prop :=
  s = service c ∧ RoomsConsistent c ∧ RoomNosValid c

theorem shows_initial : Shows Content.initial fun _ => none :=
  ⟨rfl, roomsConsistent_initial, roomNosValid_initial⟩

theorem shows_of_safe {toAcp : List UInt16 → List UInt8} {c : Content}
    {s : Service SessionID Room Nickname} (hs : Shows c s) {events : List Event}
    (hsafe : Meets (fun c e => some (handle toAcp c e)) Safe c events) :
    List.Forall₂ Carries (outputs (handle toAcp) (roomEffects toAcp) c events)
        (outputs (next maxLimitPerson) (notices maxLimitPerson) s (events.map (asked toAcp))) ∧
      Shows (events.foldl (handle toAcp) c)
        ((events.map (asked toAcp)).foldl (next maxLimitPerson) s) := by
  apply forall₂_outputs_of_unwinding (S := fun e q => q = asked toAcp e) ?_ hs ?_ hsafe
  · rintro c s e q ⟨rfl, hrooms, hnos⟩ rfl hsafe
    obtain ⟨hsent, hnext⟩ : Serves toAcp c e := serves hrooms hnos hsafe
    exact ⟨hsent, hnext.symm, (handle_consistent_iff toAcp hnos hrooms e).mpr hsafe,
      roomNosValid_handle toAcp hnos e⟩
  · rw [List.forall₂_map_right_iff]
    exact List.forall₂_same.mpr fun _ _ => rfl

/-- As long as no step is one that the rooms and players do not survive, the handlers are the
service: each player has the name and room the service gives it, each room has the members of
the service as its users, and what is sent on account of the rooms are its notices, in order
and each to those who are to hear it. -/
theorem content_refines_service (toAcp : List UInt16 → List UInt8) {events : List Event}
    (hsafe : Meets (fun c e => some (handle toAcp c e)) Safe Content.initial events) :
    let c := events.foldl (handle toAcp) Content.initial
    let s := (events.map (asked toAcp)).foldl (next maxLimitPerson) fun _ => none
    List.Forall₂ Carries (outputs (handle toAcp) (roomEffects toAcp) Content.initial events)
        (outputs (next maxLimitPerson) (notices maxLimitPerson) (fun _ => none)
          (events.map (asked toAcp))) ∧
      service c = s ∧ ∀ r, {sid | sid ∈ (c.rooms r).users} = members s r := by
  obtain ⟨hsent, hservice, hrooms, -⟩ := shows_of_safe shows_initial hsafe
  refine ⟨hsent, hservice.symm, ?_⟩
  intro r
  rw [hservice, members_service hrooms]

/-- Two clients meet in room 1. -/
def meeting : List Event :=
  [.join zeroEnv 1#64, .join zeroEnv 2#64,
    .recv zeroEnv 1#64 (CPacket.new.attachRaw [2, 0, 1, 0]),
    .recv zeroEnv 2#64 (CPacket.new.attachRaw [2, 0, 1, 0])]

/-- One of them says something, and a third looks in. -/
def visit : List Event :=
  [.recv zeroEnv 1#64 (CPacket.new.attachRaw [4, 0, 2, 0, 104, 105]), .join zeroEnv 3#64,
    .recv zeroEnv 3#64 (CPacket.new.attachRaw [2, 0, 1, 0]),
    .recv zeroEnv 3#64 (CPacket.new.attachRaw [3, 0])]

theorem recv_safe_of_lobby {env : Env} {c : Content} {sid : SessionID} {pkt : CPacket}
    (h : (c.players.lookup sid).map CPlayer.state ≠ some .inRoom) :
    Safe c (.recv env sid pkt) := by
  intro no _ pl hpl hstate
  exact absurd (by rw [hpl, Option.map_some, hstate]) h

theorem recv_safe_of_other {env : Env} {c : Content} {sid : SessionID} {pkt : CPacket}
    (h : enterRequest env pkt = none) : Safe c (.recv env sid pkt) := by
  intro no hno
  rw [h] at hno
  exact absurd hno (by simp)

theorem meeting_safe : Meets (fun c e => some (handle (fun _ => []) c e)) Safe
    Content.initial meeting :=
  ⟨trivial, trivial, recv_safe_of_lobby (by decide), recv_safe_of_lobby (by decide), trivial⟩

theorem visit_safe : Meets (fun c e => some (handle (fun _ => []) c e)) Safe
    (meeting.foldl (handle fun _ => []) Content.initial) visit :=
  ⟨recv_safe_of_other (by decide), trivial, recv_safe_of_lobby (by decide),
    recv_safe_of_other (by decide), trivial⟩

theorem content_refines_service_meeting :
    service (meeting.foldl (handle fun _ => []) Content.initial) =
      (meeting.map (asked fun _ => [])).foldl (next maxLimitPerson) fun _ => none :=
  (content_refines_service (fun _ => []) meeting_safe).2.1

/-- The event takes the session out of its room. -/
def Leaves (sid : SessionID) : Event → Prop
  | .join _ _ => False
  | .leave other => other = sid
  | .recv env other pkt => other = sid ∧ LeaveRequest env pkt
  | .dbResult _ => False

instance (sid : SessionID) : (e : Event) → Decidable (Leaves sid e)
  | .join _ _ => inferInstanceAs (Decidable False)
  | .leave other => inferInstanceAs (Decidable (other = sid))
  | .recv env other pkt => inferInstanceAs (Decidable (other = sid ∧
      (pkt.readWord env.type).1 = PacketType.csRoomLeaveReq.code))
  | .dbResult _ => inferInstanceAs (Decidable False)

theorem leaves_of_parts {toAcp : List UInt16 → List UInt8} {sid : SessionID} {e : Event}
    (h : Parts sid (asked toAcp e)) : Leaves sid e := by
  cases e with
  | join env other => simp [Parts, asked] at h
  | leave other =>
      have hother : other = sid := by simpa [Parts, asked] using h
      exact hother
  | recv env other pkt =>
      simp only [Parts, asked] at h
      split at h
      · simp at h
      · split at h
        · rename_i hleave
          exact ⟨by simpa using h, hleave⟩
        · split at h
          · simp at h
          · simp at h
  | dbResult r =>
      simp only [Parts, asked] at h
      split at h
      · simp at h
      · simp at h

open Classical in
theorem sentFor_eq_heard {sid : SessionID} {effects : List Effect}
    {outs : List (Notice Room Nickname Text × Set SessionID)}
    (h : List.Forall₂ Carries effects outs) :
    sentFor sid effects = (heard sid outs).map fieldsOf := by
  rw [sentFor, heard, List.map_filterMap]
  induction h with
  | nil => rfl
  | @cons effect out effects outs hcarries _ ih =>
      obtain ⟨targets, rfl, -, hset⟩ := hcarries
      have hmem : sid ∈ out.2 ↔ sid ∈ targets := by
        rw [← hset]
        exact Iff.rfl
      rw [List.filterMap_cons, List.filterMap_cons, ih]
      rcases Classical.em (sid ∈ targets) with hin | hout
      · simp only [hmem, hin, if_true, Option.map_some]
      · simp only [hmem, hout, if_false, Option.map_none]

/-- Two users of a room that stay in it are sent the same on account of the rooms, in the same
order, whatever else happens: who comes, who goes and what is said. -/
theorem room_told_in_one_order (toAcp : List UInt16 → List UInt8) {past later : List Event}
    (hpast : Meets (fun c e => some (handle toAcp c e)) Safe Content.initial past)
    (hlater : Meets (fun c e => some (handle toAcp c e)) Safe
      (past.foldl (handle toAcp) Content.initial) later)
    {r : Room} {x y : SessionID}
    (hx : x ∈ ((past.foldl (handle toAcp) Content.initial).rooms r).users)
    (hy : y ∈ ((past.foldl (handle toAcp) Content.initial).rooms r).users)
    (hstay : ∀ e, e ∈ later → ¬ Leaves x e ∧ ¬ Leaves y e) :
    let sent := outputs (handle toAcp) (roomEffects toAcp)
      (past.foldl (handle toAcp) Content.initial) later
    let c := later.foldl (handle toAcp) (past.foldl (handle toAcp) Content.initial)
    sentFor x sent = sentFor y sent ∧ x ∈ (c.rooms r).users ∧ y ∈ (c.rooms r).users := by
  obtain ⟨-, hshows⟩ := shows_of_safe shows_initial hpast
  obtain ⟨hsent, hservice', hrooms', -⟩ := shows_of_safe hshows hlater
  obtain ⟨hservice, hrooms, -⟩ := hshows
  intro sent c
  have hmem {sid : SessionID}
      (h : sid ∈ ((past.foldl (handle toAcp) Content.initial).rooms r).users) :
      sid ∈ members ((past.map (asked toAcp)).foldl (next maxLimitPerson) fun _ => none) r := by
    rw [hservice, members_service hrooms]
    exact h
  have hparts : ∀ q, q ∈ later.map (asked toAcp) → ¬ Parts x q ∧ ¬ Parts y q := by
    intro q hq
    obtain ⟨e, he, rfl⟩ := List.mem_map.mp hq
    obtain ⟨hxstays, hystays⟩ := hstay e he
    exact ⟨fun h => hxstays (leaves_of_parts h), fun h => hystays (leaves_of_parts h)⟩
  have husers (sid : SessionID) : sid ∈ (c.rooms r).users ↔ sid ∈ members
      ((later.map (asked toAcp)).foldl (next maxLimitPerson)
        ((past.map (asked toAcp)).foldl (next maxLimitPerson) fun _ => none)) r := by
    rw [hservice', members_service hrooms']
    exact Iff.rfl
  refine ⟨?_, ?_, ?_⟩
  · rw [sentFor_eq_heard hsent, sentFor_eq_heard hsent,
      heard_eq_of_stay (hmem hx) (hmem hy) hparts]
  · exact (husers x).mpr (mem_members_of_stay (hmem hx) fun q hq => (hparts q hq).1)
  · exact (husers y).mpr (mem_members_of_stay (hmem hy) fun q hq => (hparts q hq).2)

theorem room_told_in_one_order_visit :
    let c := meeting.foldl (handle fun _ => []) Content.initial
    let sent := outputs (handle fun _ => []) (roomEffects fun _ => []) c visit
    (sentFor 1#64 sent).length = 3 ∧ sentFor 1#64 sent = sentFor 2#64 sent := by
  have hstay : ∀ e, e ∈ visit → ¬ Leaves 1#64 e ∧ ¬ Leaves 2#64 e := by decide
  exact ⟨by decide, (room_told_in_one_order (fun _ => []) (r := ⟨0, by decide⟩) meeting_safe
    visit_safe (by decide) (by decide) hstay).1⟩

end IocpChat.ContentService
