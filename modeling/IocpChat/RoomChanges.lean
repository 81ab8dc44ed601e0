import IocpChat.ContentSteps

/-!
Two ways in which players and rooms get out of step, each met where it happens:
`HandleRoomEnter`, which changes the room before it asks the player, and
`Handle_DbResult`, whose `SetNickname` also drives the state of the player.
-/

namespace IocpChat.RoomChanges

open IocpChat.Protocol
open IocpChat.PacketBuffer
open IocpChat.ContentHandlers
open IocpChat.RoomMembership
open IocpChat.ContentSteps
open IocpChat.LabelledRun

/-- The session is told that it is in the room, and it is, in the users of the room
and in the record of its player; or nothing is sent and nothing has changed. -/
def AllOrNothing (c : Content) (sid : SessionID) (no : UInt16) (out : Content × List Effect) :
    Prop :=
  (Effect.send [wordBytes PacketType.scRoomEnterRes.code, [ResultCode.success.code],
      wordBytes no] [sid] ∈ out.2 ∧
    (∃ i, getRoom no = some i ∧ sid ∈ (out.1.rooms i).users) ∧
    ∃ pl, out.1.players.lookup sid = some pl ∧ pl.state = .inRoom ∧ pl.roomNo = no) ∨
  out = (c, [])

/-- Entering a room is all or nothing exactly if the player is not in a room yet, or
the room does not exist, is full or has the session among its users already. -/
theorem roomEnter_allOrNothing_iff (env : Env) (c : Content) (sid : SessionID)
    (pkt : CPacket) :
    AllOrNothing c sid (pkt.readWord env.no).1 (handleRoomEnter env c sid pkt) ↔
      EnterSafe c sid (pkt.readWord env.no).1 := by
  simp only [handleRoomEnter, EnterSafe]
  cases hpl : c.players.lookup sid with
  | none => exact iff_of_true (.inr rfl) (by simp)
  | some pl =>
      simp only [Option.some.injEq, forall_eq']
      cases hget : getRoom (pkt.readWord env.no).1 with
      | none => exact iff_of_true (.inr rfl) (by simp)
      | some i =>
          simp only [Option.some.injEq, forall_eq']
          have hfst := enterRoom_fst (c.rooms i) sid
          rcases henter : (c.rooms i).enterRoom sid with ⟨entered, room⟩
          rw [henter] at hfst
          cases entered with
          | false =>
              simp only [Bool.false_eq_true, false_iff, not_and, not_not] at hfst
              refine iff_of_true (.inr rfl) fun _ => ?_
              rcases Nat.lt_or_ge (c.rooms i).users.length maxLimitPerson with hroomy | hfull
              · exact .inl (hfst hroomy)
              · exact .inr hfull
          | true =>
              obtain ⟨hroomy, hnew⟩ := hfst.mp rfl
              have hsid : sid ∈ room.users := (mem_enterRoom henter sid).mpr (.inl rfl)
              by_cases hroom : pl.state = .inRoom
              · simp only [CPlayer.enterRoom, hroom, if_true, forall_const]
                -- the room has taken the session in, and nothing undoes it
                apply iff_of_false
                · rintro (⟨hsent, -⟩ | hsame)
                  · cases hsent
                  · have hrooms := congrArg (fun out : Content × List Effect => out.1.rooms i)
                      hsame
                    simp only [Function.update_self] at hrooms
                    exact hnew (hrooms ▸ hsid)
                · rintro (hmem | hfull)
                  · exact hnew hmem
                  · omega
              · simp only [CPlayer.enterRoom, hroom, if_false, false_implies, iff_true]
                refine .inl ⟨List.mem_cons_self, ⟨i, hget, ?_⟩, ?_⟩
                · simpa using hsid
                · exact ⟨_, AList.lookup_insert _, rfl, rfl⟩

/-- The client of `secondEnter` once it is in room 1. -/
def inFirstRoom : Content :=
  (secondEnter.take 2).foldl (handle fun _ => []) Content.initial

/-- Its request for room 2 is answered with nothing, and room 2 has it as a user. -/
theorem secondEnter_neither :
    ¬ AllOrNothing inFirstRoom 1#64 2
        (handleRoomEnter zeroEnv inFirstRoom 1#64 (CPacket.new.attachRaw [2, 0])) ∧
      (handleRoomEnter zeroEnv inFirstRoom 1#64 (CPacket.new.attachRaw [2, 0])).2.length = 0 ∧
      1#64 ∈ ((handleRoomEnter zeroEnv inFirstRoom 1#64
        (CPacket.new.attachRaw [2, 0])).1.rooms ⟨1, by decide⟩).users := by
  have hnothing : (handleRoomEnter zeroEnv inFirstRoom 1#64
      (CPacket.new.attachRaw [2, 0])).2.length = 0 := by decide
  have huser : 1#64 ∈ ((handleRoomEnter zeroEnv inFirstRoom 1#64
      (CPacket.new.attachRaw [2, 0])).1.rooms ⟨1, by decide⟩).users := by decide
  refine ⟨?_, hnothing, huser⟩
  rintro (⟨hsent, -⟩ | hsame)
  · rw [List.eq_nil_of_length_eq_zero hnothing] at hsent
    cases hsent
  · rw [hsame] at huser
    revert huser
    decide

/-- What a player record says about rooms. -/
def standing (pl : CPlayer) : UInt16 × Bool := (pl.roomNo, pl.state = .inRoom)

/-- Equal rooms, and players that are in the same of them. -/
structure SameRooms (c d : Content) : Prop where
  rooms : d.rooms = c.rooms
  players : ∀ sid, (d.players.lookup sid).map standing = (c.players.lookup sid).map standing

namespace SameRooms

variable {c d : Content}

theorem refl (c : Content) : SameRooms c c := ⟨rfl, fun _ => rfl⟩

theorem lookup_cases (h : SameRooms c d) (sid : SessionID) :
    (c.players.lookup sid = none ∧ d.players.lookup sid = none) ∨
    ∃ pl pl', c.players.lookup sid = some pl ∧ d.players.lookup sid = some pl' ∧
      pl'.roomNo = pl.roomNo ∧ (pl'.state = .inRoom ↔ pl.state = .inRoom) := by
  have hsid := h.players sid
  cases hc : c.players.lookup sid with
  | none =>
      rw [hc, Option.map_none, Option.map_eq_none_iff] at hsid
      exact .inl ⟨rfl, hsid⟩
  | some pl =>
      rw [hc, Option.map_some, Option.map_eq_some_iff] at hsid
      obtain ⟨pl', hd, hstanding⟩ := hsid
      simp only [standing, Prod.mk.injEq, decide_eq_decide] at hstanding
      exact .inr ⟨pl, pl', rfl, hd, hstanding⟩

theorem insert (h : SameRooms c d) (sid : SessionID) {pl pl' : CPlayer}
    (hpl : standing pl' = standing pl) (rooms : Fin maxRoomCount → CRoom) :
    SameRooms ⟨c.players.insert sid pl, rooms⟩ ⟨d.players.insert sid pl', rooms⟩ := by
  refine ⟨rfl, ?_⟩
  intro other
  rcases eq_or_ne other sid with rfl | hne
  · simp only [AList.lookup_insert, Option.map_some, hpl]
  · simp only [AList.lookup_insert_ne hne, h.players]

theorem erase (h : SameRooms c d) (sid : SessionID) (rooms : Fin maxRoomCount → CRoom) :
    SameRooms ⟨c.players.erase sid, rooms⟩ ⟨d.players.erase sid, rooms⟩ := by
  refine ⟨rfl, ?_⟩
  intro other
  rcases eq_or_ne other sid with rfl | hne
  · simp only [AList.lookup_erase]
  · simp only [AList.lookup_erase_ne hne, h.players]

theorem handleJoin (h : SameRooms c d) (env : Env) (sid : SessionID) :
    SameRooms (handleJoin env c sid) (handleJoin env d sid) := by
  rcases h.lookup_cases sid with ⟨hc, hd⟩ | ⟨pl, pl', hc, hd, -⟩
  · simp only [ContentHandlers.handleJoin, hc, hd, h.rooms]
    exact h.insert sid rfl _
  · simp only [ContentHandlers.handleJoin, hc, hd]
    exact h

theorem handleLeave (h : SameRooms c d) (sid : SessionID) :
    SameRooms (handleLeave c sid) (handleLeave d sid) := by
  rcases h.lookup_cases sid with ⟨hc, hd⟩ | ⟨pl, pl', hc, hd, hno, hstate⟩
  · simp only [ContentHandlers.handleLeave, hc, hd]
    exact h
  · simp only [ContentHandlers.handleLeave, hc, hd, h.rooms, hno, hstate]
    exact h.erase sid _

theorem handleRoomEnter (h : SameRooms c d) (env : Env) (sid : SessionID) (pkt : CPacket) :
    SameRooms (handleRoomEnter env c sid pkt).1 (handleRoomEnter env d sid pkt).1 := by
  rcases h.lookup_cases sid with ⟨hc, hd⟩ | ⟨pl, pl', hc, hd, -, hstate⟩
  · simp only [ContentHandlers.handleRoomEnter, hc, hd]
    exact h
  · simp only [ContentHandlers.handleRoomEnter, hc, hd, h.rooms]
    split
    · exact h
    · rename_i i _
      rcases (c.rooms i).enterRoom sid with ⟨_ | _, room⟩
      · exact h
      · by_cases hroom : pl.state = .inRoom
        · simp only [CPlayer.enterRoom, hstate, hroom, if_true]
          exact ⟨rfl, h.players⟩
        · simp only [CPlayer.enterRoom, hstate, hroom, if_false]
          refine h.insert sid ?_ _
          rfl

theorem handleRoomLeave (h : SameRooms c d) (env : Env) (sid : SessionID) :
    SameRooms (handleRoomLeave env c sid).1 (handleRoomLeave env d sid).1 := by
  rcases h.lookup_cases sid with ⟨hc, hd⟩ | ⟨pl, pl', hc, hd, hno, hstate⟩
  · simp only [ContentHandlers.handleRoomLeave, hc, hd]
    exact h
  · simp only [ContentHandlers.handleRoomLeave, hc, hd, h.rooms, hno, ne_eq, hstate]
    split
    · exact h
    · rename_i hroom
      split
      · exact h
      · refine h.insert sid ?_ _
        simp [CPlayer.leaveRoom, standing, hstate, not_not.mp hroom]

theorem handleRecv (h : SameRooms c d) (env : Env) (sid : SessionID) (pkt : CPacket) :
    SameRooms (handleRecv env c sid pkt).1 (handleRecv env d sid pkt).1 := by
  cases dispatch env sid pkt with
  | login _ hlogin => simpa only [hlogin, handleLogin_content] using h
  | signUp _ hsignUp => simpa only [hsignUp, handleSignUp_content] using h
  | roomEnter _ henter =>
      rw [henter, henter]
      exact h.handleRoomEnter env sid _
  | roomLeave _ hleave =>
      rw [hleave, hleave]
      exact h.handleRoomLeave env sid
  | chat _ hchat => simpa only [hchat, handleChat_content] using h
  | unknown _ _ hunknown => simpa only [hunknown] using h

theorem handleChat_sentTo (h : SameRooms c d) (env : Env) (sid : SessionID) (pkt : CPacket) :
    allSentTo .scChatRes (handleChat env d sid pkt).2 =
      allSentTo .scChatRes (handleChat env c sid pkt).2 := by
  simp only [handleChat]
  split
  · rfl
  · rcases h.lookup_cases sid with ⟨hc, hd⟩ | ⟨pl, pl', hc, hd, hno, hstate⟩
    · simp only [hc, hd]
    · simp only [hc, hd, h.rooms, hno, ne_eq, hstate]
      split
      · rfl
      · split <;> rfl

end SameRooms

/-- The event is the answer to a job. -/
def isDbResult : Event → Bool
  | .dbResult _ => true
  | _ => false

theorem handle_sameRooms (toAcp : List UInt16 → List UInt8) {c d : Content}
    (h : SameRooms c d) {e : Event} (he : isDbResult e = false) :
    SameRooms (handle toAcp c e) (handle toAcp d e) := by
  cases e with
  | join env sid => exact h.handleJoin env sid
  | leave sid => exact h.handleLeave sid
  | recv env sid pkt => exact h.handleRecv env sid pkt
  | dbResult r => cases he

/-- Nothing about rooms is different in the second content, and whatever messages
come now, nothing is afterwards: leave requests and disconnects have the same effect
on the rooms, and chat requests reach the same sessions. -/
structure KeepsRooms (toAcp : List UInt16 → List UInt8) (c d : Content) : Prop where
  same : SameRooms c d
  later : ∀ messages : List Event, (∀ e ∈ messages, isDbResult e = false) →
    SameRooms (messages.foldl (handle toAcp) c) (messages.foldl (handle toAcp) d) ∧
    ∀ env sid pkt,
      allSentTo .scChatRes (handleChat env (messages.foldl (handle toAcp) d) sid pkt).2 =
        allSentTo .scChatRes (handleChat env (messages.foldl (handle toAcp) c) sid pkt).2

theorem SameRooms.keepsRooms {c d : Content} (h : SameRooms c d)
    (toAcp : List UInt16 → List UInt8) : KeepsRooms toAcp c d := by
  refine ⟨h, ?_⟩
  intro messages hmessages
  have hlater : SameRooms (messages.foldl (handle toAcp) c) (messages.foldl (handle toAcp) d) :=
    List.foldl_rel h fun e he c' d' h' => handle_sameRooms toAcp h' (hmessages e he)
  exact ⟨hlater, hlater.handleChat_sentTo⟩

theorem handleDbResult_sameRooms_iff (toAcp : List UInt16 → List UInt8) (c : Content)
    (r : DBResult) : SameRooms c (handleDbResult toAcp c r).1 ↔ LoginSafe c r := by
  simp only [handleDbResult, LoginSafe]
  cases hpl : c.players.lookup r.sid with
  | none => exact iff_of_true (.refl c) (by simp)
  | some pl =>
      simp only [Option.some.injEq, forall_eq']
      cases htype : r.type with
      | signUp => exact iff_of_true (.refl c) (by simp)
      | login =>
          by_cases hrc : mapLoginResult r.result = .success
          · simp only [hrc, if_true, forall_const]
            constructor
            · intro h
              have hsid := h.players r.sid
              simp only [AList.lookup_insert, hpl, Option.map_some, Option.some.injEq, standing,
                Prod.mk.injEq, decide_eq_decide, CPlayer.setNickname] at hsid
              intro hroom
              exact absurd (hsid.2.mpr hroom) (by decide)
            · intro hroom
              refine ⟨rfl, ?_⟩
              intro other
              rcases eq_or_ne other r.sid with rfl | hne
              · simp [hpl, standing, CPlayer.setNickname, CPlayer.setUserNo, hroom]
              · simp only [AList.lookup_insert_ne hne]
          · simp only [hrc, if_false, false_implies, implies_true, iff_true]
            exact .refl c

theorem handleDbResult_keepsRooms_iff (toAcp : List UInt16 → List UInt8) (c : Content)
    (r : DBResult) : KeepsRooms toAcp c (handleDbResult toAcp c r).1 ↔ LoginSafe c r := by
  rw [← handleDbResult_sameRooms_iff toAcp]
  exact ⟨fun h => h.same, fun h => h.keepsRooms toAcp⟩

/-- Along every run, each DB result leaves the rooms as they are, for good, exactly if
none of them logs in a player that is in a room. -/
theorem dbResults_keep_rooms_iff (toAcp : List UInt16 → List UInt8) (events : List Event) :
    Meets (fun c e => some (handle toAcp c e))
        (fun c e => ∀ r, e = .dbResult r → KeepsRooms toAcp c (handleDbResult toAcp c r).1)
        Content.initial events ↔
      Meets (fun c e => some (handle toAcp c e))
        (fun c e => ∀ r, e = .dbResult r → LoginSafe c r) Content.initial events := by
  simp only [handleDbResult_keepsRooms_iff]

/-- The DB worker's answer to a login. -/
def loginAnswer : DBResult :=
  { type := .login, sid := 1#64, result := 0, userNo := 7, nickname := fun _ => 0 }

/-- The client in room 1 gets its login answer there: it cannot chat any more, and after
its disconnect it is still among the users of the room. -/
theorem loginAnswer_leaves_ghost :
    run (fun c e => some (handle (fun _ => []) c e)) Content.initial (secondEnter.take 2) =
      some inFirstRoom ∧
    ¬ KeepsRooms (fun _ => []) inFirstRoom
      (handleDbResult (fun _ => []) inFirstRoom loginAnswer).1 ∧
    (handleChat zeroEnv (handleDbResult (fun _ => []) inFirstRoom loginAnswer).1 1#64
      (CPacket.new.attachRaw [1, 0, 72])).2.length = 0 ∧
    1#64 ∈ ((handleLeave (handleDbResult (fun _ => []) inFirstRoom loginAnswer).1
      1#64).rooms ⟨0, by decide⟩).users := by
  refine ⟨rfl, ?_, by decide, by decide⟩
  rw [handleDbResult_keepsRooms_iff]
  intro hsafe
  have hstate : (inFirstRoom.players.lookup 1#64).map (fun pl => pl.state) = some .inRoom := by
    decide
  obtain ⟨pl, hpl, hroom⟩ := Option.map_eq_some_iff.mp hstate
  exact hsafe rfl (by decide) pl hpl hroom

end IocpChat.RoomChanges
