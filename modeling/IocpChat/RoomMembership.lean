import IocpChat.ContentHandlers
import IocpChat.LabelledRun

namespace IocpChat.RoomMembership

open IocpChat.Protocol
open IocpChat.PacketBuffer
open IocpChat.ContentHandlers
open IocpChat.LabelledRun

/-- One message or DB result handled by the update thread. -/
inductive Event where
  | join (env : Env) (sid : SessionID)
  | leave (sid : SessionID)
  | recv (env : Env) (sid : SessionID) (pkt : CPacket)
  | dbResult (r : DBResult)

/-- The content after an event. -/
def handle (toAcp : List UInt16 → List UInt8) (c : Content) : Event → Content
  | .join env sid => handleJoin env c sid
  | .leave sid => handleLeave c sid
  | .recv env sid pkt => (handleRecv env c sid pkt).1
  | .dbResult r => (handleDbResult toAcp c r).1

/-- A session is a user of a room exactly if its player exists, is in a room
and carries that room's number. -/
def RoomsConsistent (c : Content) : Prop :=
  ∀ (i : Fin maxRoomCount) (sid : SessionID),
    sid ∈ (c.rooms i).users ↔
      ∃ pl, c.players.lookup sid = some pl ∧ pl.state = .inRoom ∧
        pl.roomNo.toNat = i.val + 1

/-- The room a player believes to be in. -/
def location (c : Content) (sid : SessionID) : Option (Fin maxRoomCount) :=
  (c.players.lookup sid).bind fun pl =>
    if pl.state = .inRoom then getRoom pl.roomNo else none

theorem getRoom_eq_some_iff (no : UInt16) (i : Fin maxRoomCount) :
    getRoom no = some i ↔ no.toNat = i.val + 1 := by
  have hi := i.isLt
  simp only [getRoom]
  split
  · rename_i h
    simp only [Option.some.injEq, Fin.ext_iff]
    omega
  · rename_i h
    simp only [reduceCtorEq, false_iff]
    omega

theorem roomsConsistent_iff (c : Content) :
    RoomsConsistent c ↔ ∀ i sid, sid ∈ (c.rooms i).users ↔ location c sid = some i := by
  apply forall_congr'
  intro i
  apply forall_congr'
  intro sid
  apply iff_congr Iff.rfl
  simp only [location]
  cases hpl : c.players.lookup sid with
  | none => simp
  | some pl =>
      by_cases hroom : pl.state = .inRoom
      · simp [hroom, getRoom_eq_some_iff]
      · simp [hroom]

theorem roomsConsistent_initial : RoomsConsistent Content.initial := by
  intro i sid
  simp [Content.initial, CRoom.empty]

theorem location_insert (c : Content) (sid other : SessionID) (pl : CPlayer)
    (rooms : Fin maxRoomCount → CRoom) :
    location { players := c.players.insert sid pl, rooms := rooms } other =
      if other = sid then (if pl.state = .inRoom then getRoom pl.roomNo else none)
      else location c other := by
  by_cases h : other = sid
  · subst h
    simp [location]
  · simp [location, h, AList.lookup_insert_ne h]

theorem location_erase (c : Content) (sid other : SessionID)
    (rooms : Fin maxRoomCount → CRoom) :
    location { players := c.players.erase sid, rooms := rooms } other =
      if other = sid then none else location c other := by
  by_cases h : other = sid
  · subst h
    simp [location]
  · simp [location, h, AList.lookup_erase_ne h]

theorem roomsConsistent_of_removed {c c' : Content} (h : RoomsConsistent c)
    (sid : SessionID)
    (hloc : ∀ other, location c' other = if other = sid then none else location c other)
    (hrooms : ∀ i other, other ∈ (c'.rooms i).users ↔
      other ∈ (c.rooms i).users ∧ ¬ (other = sid ∧ location c sid = some i)) :
    RoomsConsistent c' := by
  rw [roomsConsistent_iff] at h ⊢
  intro i other
  rw [hrooms, hloc, h]
  by_cases hother : other = sid
  · subst hother
    simp
  · simp [hother]

theorem mem_update_leaveRoom (c : Content) (sid other : SessionID)
    (i j : Fin maxRoomCount) :
    other ∈ (Function.update c.rooms i ((c.rooms i).leaveRoom sid) j).users ↔
      other ∈ (c.rooms j).users ∧ ¬ (other = sid ∧ i = j) := by
  by_cases hij : j = i
  · subst hij
    simp [and_comm]
  · rw [Function.update_of_ne hij]
    simp [Ne.symm hij]

theorem handleJoin_consistent {c : Content} (h : RoomsConsistent c) (env : Env)
    (sid : SessionID) : RoomsConsistent (handleJoin env c sid) := by
  rw [roomsConsistent_iff] at h ⊢
  intro i other
  simp only [handleJoin]
  split
  · rename_i hnone
    rw [location_insert, h]
    by_cases hother : other = sid
    · subst hother
      simp [location, hnone, CPlayer.new]
    · simp [hother]
  · exact h i other

theorem handleLeave_consistent {c : Content} (h : RoomsConsistent c)
    (sid : SessionID) : RoomsConsistent (handleLeave c sid) := by
  simp only [handleLeave]
  split
  · exact h
  · rename_i pl hpl
    apply roomsConsistent_of_removed h sid
    · intro other
      exact location_erase c sid other _
    · intro i other
      by_cases hroom : pl.state = .inRoom
      · cases hget : getRoom pl.roomNo with
        | none => simp [location, hpl, hroom, hget]
        | some j =>
            simp only [hroom, if_true, location, hpl, Option.bind_some, hget,
              Option.some.injEq]
            exact mem_update_leaveRoom c sid other j i
      · simp [location, hpl, hroom]

theorem handleRoomLeave_consistent {c : Content} (h : RoomsConsistent c)
    (env : Env) (sid : SessionID) :
    RoomsConsistent (handleRoomLeave env c sid).1 := by
  simp only [handleRoomLeave]
  split
  · exact h
  · rename_i pl hpl
    by_cases hroom : pl.state = .inRoom
    · cases hget : getRoom pl.roomNo with
      | none => simpa [hroom] using h
      | some j =>
          simp only [hroom, ne_eq, not_true_eq_false, if_false]
          apply roomsConsistent_of_removed h sid
          · intro other
            rw [location_insert]
            simp [CPlayer.leaveRoom, hroom]
          · intro i other
            simp only [location, hpl, Option.bind_some, hroom, if_true, hget,
              Option.some.injEq]
            exact mem_update_leaveRoom c sid other j i
    · simpa [hroom] using h

theorem handleLogin_content (env : Env) (c : Content) (sid : SessionID) (pkt : CPacket) :
    (handleLogin env c sid pkt).1 = c := by
  simp only [handleLogin]
  split <;> rfl

theorem handleSignUp_content (env : Env) (c : Content) (sid : SessionID) (pkt : CPacket) :
    (handleSignUp env c sid pkt).1 = c := by
  simp only [handleSignUp]
  split <;> rfl

theorem handleChat_content (env : Env) (c : Content) (sid : SessionID) (pkt : CPacket) :
    (handleChat env c sid pkt).1 = c := by
  simp only [handleChat]
  split
  · rfl
  · split
    · rfl
    · split
      · rfl
      · split <;> rfl

/-- An enter request is harmless unless it takes a place in another room for a
player that already is in one: the room is unknown, full or already entered. -/
def EnterSafe (c : Content) (sid : SessionID) (no : UInt16) : Prop :=
  ∀ pl, c.players.lookup sid = some pl → pl.state = .inRoom →
    ∀ i, getRoom no = some i →
      sid ∈ (c.rooms i).users ∨ maxLimitPerson ≤ (c.rooms i).users.length

/-- A DB result is harmless unless it logs in a player that is in a room. -/
def LoginSafe (c : Content) (r : DBResult) : Prop :=
  r.type = .login → mapLoginResult r.result = .success →
    ∀ pl, c.players.lookup r.sid = some pl → pl.state ≠ .inRoom

/-- The room number of a packet that `Handle_Recv` dispatches to
`HandleRoomEnter`. -/
def enterRequest (env : Env) (pkt : CPacket) : Option UInt16 :=
  if (pkt.readWord env.type).1 = PacketType.csRoomEnterReq.code then
    some ((pkt.readWord env.type).2.readWord env.no).1
  else none

theorem enterRequest_of_other {env : Env} {pkt : CPacket} {type : UInt16}
    (htype : (pkt.readWord env.type).1 = type) (hne : type ≠ PacketType.csRoomEnterReq.code) :
    enterRequest env pkt = none := if_neg (htype.trans_ne hne)

/-- An enter request does not come from a player whom only the room would take, and a login
does not reach a player who is in a room. -/
def Safe (c : Content) : Event → Prop
  | .join _ _ => True
  | .leave _ => True
  | .recv env sid pkt => ∀ no, enterRequest env pkt = some no → EnterSafe c sid no
  | .dbResult r => LoginSafe c r

theorem mem_enterRoom {room room' : CRoom} {sid : SessionID}
    (h : room.enterRoom sid = (true, room')) (other : SessionID) :
    other ∈ room'.users ↔ other = sid ∨ other ∈ room.users := by
  simp only [CRoom.enterRoom] at h
  split at h
  · have hroom := (Prod.mk.inj h).2
    subst hroom
    simp
  · simp at h

theorem enterRoom_fst (room : CRoom) (sid : SessionID) :
    (room.enterRoom sid).1 = true ↔
      room.users.length < maxLimitPerson ∧ sid ∉ room.users := by
  simp only [CRoom.enterRoom]
  split
  · rename_i hfit
    simpa using hfit
  · rename_i hfit
    simpa using hfit

theorem handleRoomEnter_consistent_iff {c : Content} (h : RoomsConsistent c)
    (env : Env) (sid : SessionID) (pkt : CPacket) :
    RoomsConsistent (handleRoomEnter env c sid pkt).1 ↔
      EnterSafe c sid (pkt.readWord env.no).1 := by
  have hc := (roomsConsistent_iff c).mp h
  simp only [handleRoomEnter, EnterSafe]
  cases hpl : c.players.lookup sid with
  | none => simpa using h
  | some pl =>
      simp only [Option.some.injEq, forall_eq']
      cases hget : getRoom (pkt.readWord env.no).1 with
      | none => simpa using h
      | some i =>
          simp only [Option.some.injEq, forall_eq']
          have hfst := enterRoom_fst (c.rooms i) sid
          rcases henter : (c.rooms i).enterRoom sid with ⟨entered, room⟩
          rw [henter] at hfst
          cases entered with
          | false =>
              simp only [Bool.false_eq_true, false_iff, not_and, not_not] at hfst
              refine iff_of_true h fun _ => ?_
              by_cases hfull : (c.rooms i).users.length < maxLimitPerson
              · exact Or.inl (hfst hfull)
              · exact Or.inr (by omega)
          | true =>
              obtain ⟨hroomy, hnew⟩ := hfst.mp rfl
              by_cases hroom : pl.state = .inRoom
              · simp only [CPlayer.enterRoom, hroom, if_true, forall_const]
                have hsid : sid ∈ (Function.update c.rooms i room i).users := by
                  rw [Function.update_self]
                  exact (mem_enterRoom henter sid).mpr (Or.inl rfl)
                constructor
                · intro hcons
                  have hloc : location c sid = some i :=
                    ((roomsConsistent_iff _).mp hcons i sid).mp hsid
                  exact absurd ((hc i sid).mpr hloc) hnew
                · rintro (hmem | hfull)
                  · exact absurd hmem hnew
                  · omega
              · simp only [CPlayer.enterRoom, hroom, if_false, false_implies, iff_true]
                rw [roomsConsistent_iff]
                intro j other
                have hloc : location c sid = none := by simp [location, hpl, hroom]
                rw [location_insert]
                simp only [if_true, hget]
                by_cases hj : j = i
                · subst hj
                  rw [Function.update_self, mem_enterRoom henter, hc]
                  by_cases hother : other = sid <;> simp [hother]
                · rw [Function.update_of_ne hj, hc]
                  by_cases hother : other = sid
                  · subst hother
                    simp [hloc, Ne.symm hj]
                  · simp [hother]

/-- Every player in a room carries the number of an existing room. -/
def RoomNosValid (c : Content) : Prop :=
  ∀ sid pl, c.players.lookup sid = some pl → pl.state = .inRoom →
    ∃ i, getRoom pl.roomNo = some i

theorem roomNosValid_insert {c : Content} (h : RoomNosValid c) (sid : SessionID)
    {pl : CPlayer} (hpl : pl.state = .inRoom → ∃ i, getRoom pl.roomNo = some i)
    (rooms : Fin maxRoomCount → CRoom) :
    RoomNosValid { players := c.players.insert sid pl, rooms := rooms } := by
  intro other pl' hlookup hroom
  by_cases hother : other = sid
  · subst hother
    have heq : pl = pl' := by simpa using hlookup
    exact heq ▸ hpl (heq ▸ hroom)
  · rw [AList.lookup_insert_ne hother] at hlookup
    exact h other pl' hlookup hroom

theorem handleRoomEnter_roomNosValid {c : Content} (h : RoomNosValid c) (env : Env)
    (sid : SessionID) (pkt : CPacket) :
    RoomNosValid (handleRoomEnter env c sid pkt).1 := by
  simp only [handleRoomEnter]
  cases hpl : c.players.lookup sid with
  | none => exact h
  | some pl =>
      cases hget : getRoom (pkt.readWord env.no).1 with
      | none => exact h
      | some i =>
          rcases henter : (c.rooms i).enterRoom sid with ⟨entered, room⟩
          cases entered with
          | false =>
              simp only [henter]
              exact h
          | true =>
              by_cases hroom : pl.state = .inRoom
              · simp only [henter, CPlayer.enterRoom, hroom, if_true]
                exact h
              · simp only [henter, CPlayer.enterRoom, hroom, if_false]
                apply roomNosValid_insert h sid
                intro _
                exact ⟨i, hget⟩

theorem handleRoomLeave_roomNosValid {c : Content} (h : RoomNosValid c) (env : Env)
    (sid : SessionID) : RoomNosValid (handleRoomLeave env c sid).1 := by
  simp only [handleRoomLeave]
  split
  · exact h
  · rename_i pl hpl
    by_cases hroom : pl.state = .inRoom
    · simp only [hroom, ne_eq, not_true_eq_false, if_false]
      split
      · exact h
      · exact roomNosValid_insert h sid (by simp [CPlayer.leaveRoom, hroom]) _
    · simpa [hroom] using h

theorem handleDbResult_roomNosValid (toAcp : List UInt16 → List UInt8) {c : Content}
    (h : RoomNosValid c) (r : DBResult) :
    RoomNosValid (handleDbResult toAcp c r).1 := by
  simp only [handleDbResult]
  split
  · exact h
  · rename_i pl hpl
    cases r.type with
    | signUp => exact h
    | login =>
        by_cases hrc : mapLoginResult r.result = .success
        · simp only [hrc, if_true]
          exact roomNosValid_insert h r.sid (by simp [CPlayer.setNickname]) _
        · simpa [hrc] using h

theorem handleRecv_cases (env : Env) (c : Content) (sid : SessionID) (pkt : CPacket) :
    (enterRequest env pkt = none ∧ (handleRecv env c sid pkt).1 = c) ∨
    (enterRequest env pkt = none ∧
      (handleRecv env c sid pkt).1 = (handleRoomLeave env c sid).1) ∨
    (∃ pkt', enterRequest env pkt = some (pkt'.readWord env.no).1 ∧
      (handleRecv env c sid pkt).1 = (handleRoomEnter env c sid pkt').1) := by
  cases dispatch env sid pkt with
  | login htype h =>
      rw [h]
      exact .inl ⟨enterRequest_of_other htype (by decide), handleLogin_content env c sid _⟩
  | signUp htype h =>
      rw [h]
      exact .inl ⟨enterRequest_of_other htype (by decide), handleSignUp_content env c sid _⟩
  | roomEnter htype h =>
      rw [h]
      exact .inr (.inr ⟨_, if_pos htype, rfl⟩)
  | roomLeave htype h =>
      rw [h]
      exact .inr (.inl ⟨enterRequest_of_other htype (by decide), rfl⟩)
  | chat htype h =>
      rw [h]
      exact .inl ⟨enterRequest_of_other htype (by decide), handleChat_content env c sid _⟩
  | unknown henter _ h =>
      rw [h]
      exact .inl ⟨if_neg henter, rfl⟩

theorem roomNosValid_handle (toAcp : List UInt16 → List UInt8) {c : Content}
    (h : RoomNosValid c) (e : Event) : RoomNosValid (handle toAcp c e) := by
  cases e with
  | join env sid =>
      simp only [handle, handleJoin]
      split
      · exact roomNosValid_insert h sid (by simp [CPlayer.new]) _
      · exact h
  | leave sid =>
      simp only [handle, handleLeave]
      split
      · exact h
      · intro other pl hlookup hroom
        by_cases hother : other = sid
        · subst hother
          simp at hlookup
        · exact h other pl (by simpa [AList.lookup_erase_ne hother] using hlookup) hroom
  | recv env sid pkt =>
      simp only [handle]
      rcases handleRecv_cases env c sid pkt with ⟨-, hsame⟩ | ⟨-, hleave⟩ | ⟨pkt', -, henter⟩
      · rw [hsame]
        exact h
      · rw [hleave]
        exact handleRoomLeave_roomNosValid h env sid
      · rw [henter]
        exact handleRoomEnter_roomNosValid h env sid pkt'
  | dbResult r => exact handleDbResult_roomNosValid toAcp h r

theorem handleDbResult_consistent_iff (toAcp : List UInt16 → List UInt8) {c : Content}
    (hv : RoomNosValid c) (h : RoomsConsistent c) (r : DBResult) :
    RoomsConsistent (handleDbResult toAcp c r).1 ↔ LoginSafe c r := by
  have hc := (roomsConsistent_iff c).mp h
  simp only [handleDbResult, LoginSafe]
  cases hpl : c.players.lookup r.sid with
  | none => simpa using h
  | some pl =>
      simp only [Option.some.injEq, forall_eq']
      cases htype : r.type with
      | signUp => simpa using h
      | login =>
          by_cases hrc : mapLoginResult r.result = .success
          · simp only [hrc, if_true, forall_const]
            have hloc : ∀ other, location
                (Content.mk (c.players.insert r.sid ((pl.setUserNo r.userNo).setNickname
                  (acpNickname toAcp r))) c.rooms) other =
                if other = r.sid then none else location c other := by
              intro other
              rw [location_insert]
              simp [CPlayer.setNickname]
            constructor
            · intro hcons hroom
              rw [roomsConsistent_iff] at hcons
              obtain ⟨i, hget⟩ := hv r.sid pl hpl hroom
              have hmem : r.sid ∈ (c.rooms i).users := by
                rw [hc]
                simp [location, hpl, hroom, hget]
              have hnone := (hcons i r.sid).mp hmem
              simp [hloc] at hnone
            · intro hroom
              rw [roomsConsistent_iff]
              intro i other
              rw [hloc, hc]
              by_cases hother : other = r.sid
              · subst hother
                simp [location, hpl, hroom]
              · simp [hother]
          · simp only [hrc, if_false, false_implies, implies_true, iff_true]
            exact h

theorem handle_consistent_iff (toAcp : List UInt16 → List UInt8) {c : Content}
    (hv : RoomNosValid c) (h : RoomsConsistent c) (e : Event) :
    RoomsConsistent (handle toAcp c e) ↔ Safe c e := by
  cases e with
  | join env sid => exact iff_of_true (handleJoin_consistent h env sid) trivial
  | leave sid => exact iff_of_true (handleLeave_consistent h sid) trivial
  | recv env sid pkt =>
      simp only [handle, Safe]
      rcases handleRecv_cases env c sid pkt with
        ⟨hnone, hsame⟩ | ⟨hnone, hleave⟩ | ⟨pkt', hsome, henter⟩
      · simpa [hnone, hsame] using h
      · rw [hleave]
        exact iff_of_true (handleRoomLeave_consistent h env sid) (by simp [hnone])
      · rw [henter, handleRoomEnter_consistent_iff h]
        simp [hsome]
  | dbResult r => exact handleDbResult_consistent_iff toAcp hv h r

theorem roomNosValid_initial : RoomNosValid Content.initial := by
  intro sid pl hlookup
  simp [Content.initial] at hlookup

/-- Along every sequence of messages and DB results the rooms and the players
agree in each state passed through exactly if no step lets a player that is in
a room take a place in another one, and none logs in a player that is in a
room. -/
theorem rooms_consistent_iff_safe (toAcp : List UInt16 → List UInt8)
    (events : List Event) :
    Always (fun c e => some (handle toAcp c e)) RoomsConsistent Content.initial events ↔
      Meets (fun c e => some (handle toAcp c e)) Safe Content.initial events := by
  apply always_iff_meets (J := RoomNosValid)
  · intro c e c' hv hstep
    exact Option.some.inj hstep ▸ roomNosValid_handle toAcp hv e
  · intro c e c' hv h hstep
    exact Option.some.inj hstep ▸ handle_consistent_iff toAcp hv h e
  · exact roomNosValid_initial
  · exact roomsConsistent_initial

/-- A client that asks for room 1 and then for room 2. -/
def secondEnter : List Event :=
  [.join zeroEnv 1#64,
    .recv zeroEnv 1#64 (CPacket.new.attachRaw [2, 0, 1, 0]),
    .recv zeroEnv 1#64 (CPacket.new.attachRaw [2, 0, 2, 0])]

/-- After `secondEnter` the session is a user of room 2 while its player is in
room 1. -/
theorem rooms_inconsistent_after_secondEnter :
    ∃ c, run (fun c e => some (handle (fun _ => []) c e)) Content.initial secondEnter =
      some c ∧ ¬ RoomsConsistent c := by
  refine ⟨_, rfl, ?_⟩
  intro h
  obtain ⟨pl, hpl, -, hno⟩ := (h ⟨1, by decide⟩ 1#64).mp (by decide)
  have hroom : (AList.lookup 1#64 (secondEnter.foldl
      (handle fun _ => []) Content.initial).players).map (fun pl => pl.roomNo) =
      some 1 := by decide
  have hlookup : AList.lookup 1#64 (secondEnter.foldl
      (handle fun _ => []) Content.initial).players = some pl := hpl
  rw [hlookup] at hroom
  have hone : pl.roomNo = 1 := by simpa using hroom
  simp [hone] at hno

end IocpChat.RoomMembership
