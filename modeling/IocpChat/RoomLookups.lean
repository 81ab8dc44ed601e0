import IocpChat.RoomMembership

/-!
`Handle_Leave`, `HandleRoomLeave` and `HandleChat` use what `GetRoom` returns for the
room number of a player without looking at it.  Here the handlers stop where that is a
null pointer, and it is shown that no run stops.
-/

namespace IocpChat.RoomLookups

open IocpChat.Protocol
open IocpChat.RingWindow
open IocpChat.PacketBuffer
open IocpChat.ContentHandlers
open IocpChat.RoomMembership
open IocpChat.LabelledRun

/-- `Handle_Leave`, with `none` where a null pointer is dereferenced. -/
def handleLeave (c : Content) (sid : SessionID) : Option Content :=
  match c.players.lookup sid with
  | none => some c
  | some pl =>
      if pl.state = .inRoom then
        (getRoom pl.roomNo).map fun i =>
          { players := c.players.erase sid
            rooms := Function.update c.rooms i ((c.rooms i).leaveRoom sid) }
      else some { c with players := c.players.erase sid }

/-- `HandleRoomLeave`, with `none` for a null room. -/
def handleRoomLeave (env : Env) (c : Content) (sid : SessionID) :
    Option (Content × List Effect) :=
  match c.players.lookup sid with
  | none => some (c, [])
  | some pl =>
      if pl.state ≠ .inRoom then some (c, [])
      else
        (getRoom pl.roomNo).map fun i =>
          let room := (c.rooms i).leaveRoom sid
          let pl' := pl.leaveRoom.2
          ({ players := c.players.insert sid pl', rooms := Function.update c.rooms i room },
            [.send [wordBytes PacketType.scUserLeave.code, pl'.nicknameField]
              (env.order room.users)])

/-- `HandleChat`, with `none` for a null room. -/
def handleChat (env : Env) (c : Content) (sid : SessionID) (pkt : CPacket) :
    Option (Content × List Effect) :=
  let (chatLen, pkt) := pkt.readWord env.chatLen
  if maxChatLen < chatLen.toNat then some (c, [])
  else
    let chat := (pkt.readPacket chatLen.toNat).1.getD (slice env.chat 0 chatLen.toNat)
    match c.players.lookup sid with
    | none => some (c, [])
    | some pl =>
        if pl.state ≠ .inRoom then some (c, [])
        else
          (getRoom pl.roomNo).map fun i =>
            (c, [.send [wordBytes PacketType.scChatRes.code, pl.nicknameField,
              wordBytes chatLen, chat] (env.order (c.rooms i).users)])

/-- `Handle_Recv` over these handlers. -/
def handleRecv (env : Env) (c : Content) (sid : SessionID) (pkt : CPacket) :
    Option (Content × List Effect) :=
  let (type, pkt) := pkt.readWord env.type
  if type = PacketType.csLoginReq.code then some (handleLogin env c sid pkt)
  else if type = PacketType.csSignupReq.code then some (handleSignUp env c sid pkt)
  else if type = PacketType.csRoomEnterReq.code then some (handleRoomEnter env c sid pkt)
  else if type = PacketType.csRoomLeaveReq.code then handleRoomLeave env c sid
  else if type = PacketType.csChatReq.code then handleChat env c sid pkt
  else some (c, [])

/-- The content after an event, with `none` for a null room. -/
def step (toAcp : List UInt16 → List UInt8) (c : Content) : Event → Option Content
  | .join env sid => some (handleJoin env c sid)
  | .leave sid => handleLeave c sid
  | .recv env sid pkt => (handleRecv env c sid pkt).map Prod.fst
  | .dbResult r => some (handleDbResult toAcp c r).1

theorem handleLeave_eq {c : Content} (h : RoomNosValid c) (sid : SessionID) :
    handleLeave c sid = some (ContentHandlers.handleLeave c sid) := by
  simp only [handleLeave, ContentHandlers.handleLeave]
  cases hpl : c.players.lookup sid with
  | none => rfl
  | some pl =>
      rcases eq_or_ne pl.state .inRoom with hroom | hroom
      · obtain ⟨i, hi⟩ := h sid pl hpl hroom
        simp only [hroom, if_true, hi, Option.map_some]
      · simp only [hroom, if_false]

theorem handleRoomLeave_eq {c : Content} (h : RoomNosValid c) (env : Env) (sid : SessionID) :
    handleRoomLeave env c sid = some (ContentHandlers.handleRoomLeave env c sid) := by
  simp only [handleRoomLeave, ContentHandlers.handleRoomLeave]
  cases hpl : c.players.lookup sid with
  | none => rfl
  | some pl =>
      rcases eq_or_ne pl.state .inRoom with hroom | hroom
      · obtain ⟨i, hi⟩ := h sid pl hpl hroom
        simp only [hroom, ne_eq, not_true_eq_false, if_false, hi, Option.map_some]
      · simp only [hroom, ne_eq, not_false_eq_true, if_true]

theorem handleChat_eq {c : Content} (h : RoomNosValid c) (env : Env) (sid : SessionID)
    (pkt : CPacket) :
    handleChat env c sid pkt = some (ContentHandlers.handleChat env c sid pkt) := by
  simp only [handleChat, ContentHandlers.handleChat]
  rcases Nat.lt_or_ge maxChatLen (pkt.readWord env.chatLen).1.toNat with hlong | hfits
  · simp only [hlong, if_true]
  · simp only [Nat.not_lt.mpr hfits, if_false]
    cases hpl : c.players.lookup sid with
    | none => rfl
    | some pl =>
        rcases eq_or_ne pl.state .inRoom with hroom | hroom
        · obtain ⟨i, hi⟩ := h sid pl hpl hroom
          simp only [hroom, ne_eq, not_true_eq_false, if_false, hi, Option.map_some]
          rcases (pkt.readWord env.chatLen).2.readPacket (pkt.readWord env.chatLen).1.toNat with
            ⟨_ | bytes, rest⟩ <;> rfl
        · simp only [hroom, ne_eq, not_false_eq_true, if_true]

theorem handleRecv_eq {c : Content} (h : RoomNosValid c) (env : Env) (sid : SessionID)
    (pkt : CPacket) :
    handleRecv env c sid pkt = some (ContentHandlers.handleRecv env c sid pkt) := by
  simp only [handleRecv, ContentHandlers.handleRecv, handleRoomLeave_eq h, handleChat_eq h,
    apply_ite some]

theorem step_eq (toAcp : List UInt16 → List UInt8) {c : Content} (h : RoomNosValid c)
    (e : Event) : step toAcp c e = some (handle toAcp c e) := by
  cases e with
  | join env sid => rfl
  | leave sid => exact handleLeave_eq h sid
  | recv env sid pkt => rw [step, handleRecv_eq h, Option.map_some, handle]
  | dbResult r => rfl

theorem run_eq (toAcp : List UInt16 → List UInt8) {c : Content} (h : RoomNosValid c)
    (events : List Event) :
    run (step toAcp) c events = some (events.foldl (handle toAcp) c) := by
  induction events generalizing c with
  | nil => rfl
  | cons e events ih =>
      rw [run_cons_of_step _ (step_eq toAcp h e), List.foldl_cons]
      exact ih (roomNosValid_handle toAcp h e)

theorem roomNosValid_of_run (toAcp : List UInt16 → List UInt8) {events : List Event}
    {c : Content} (hrun : run (step toAcp) Content.initial events = some c) :
    RoomNosValid c := by
  apply invariant_of_run (step toAcp) (J := RoomNosValid) ?_ roomNosValid_initial hrun
  intro c e c' h hstep
  rw [step_eq toAcp h] at hstep
  exact Option.some.inj hstep ▸ roomNosValid_handle toAcp h e

/-- No sequence of messages and DB results stops at a null room, and in every state
passed through the players in a room carry a number from 1 to 5, which `GetRoom` finds. -/
theorem room_lookups_never_fail (toAcp : List UInt16 → List UInt8) (events : List Event) :
    run (step toAcp) Content.initial events =
        some (events.foldl (handle toAcp) Content.initial) ∧
      Always (step toAcp)
        (fun c => ∀ sid pl, c.players.lookup sid = some pl → pl.state = .inRoom →
          1 ≤ pl.roomNo.toNat ∧ pl.roomNo.toNat ≤ 5 ∧ (getRoom pl.roomNo).isSome)
        Content.initial events := by
  constructor
  · exact run_eq toAcp roomNosValid_initial events
  · rintro done - c hrun sid pl hpl hroom
    obtain ⟨i, hi⟩ := roomNosValid_of_run toAcp hrun sid pl hpl hroom
    have hno : pl.roomNo.toNat = i.val + 1 := (getRoom_eq_some_iff pl.roomNo i).mp hi
    have hlt : i.val < 5 := i.isLt
    refine ⟨by omega, by omega, ?_⟩
    rw [hi, Option.isSome_some]

end IocpChat.RoomLookups
