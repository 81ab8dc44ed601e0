import IocpChat.ContentHandlers
import IocpChat.MessageOrigin
import IocpChat.PacketOwnership

/-!
The whole server between `Start` and `Stop`: the network layer, the update
thread that takes messages off the content queue, and the DB worker, which
answers the jobs in the order they were pushed.  Every handler runs to
completion.
-/

namespace IocpChat.ChatRuns

open IocpChat.Protocol
open IocpChat.PacketBuffer
open IocpChat.ContentHandlers
open IocpChat.LanServer
open IocpChat.SlotInvariant
open IocpChat.SlotSteps
open IocpChat.SlotLifecycle
open IocpChat.MessageOrigin
open IocpChat.PacketOwnership
open IocpChat.LabelledRun

/-- The state of the whole server between two handlers. -/
structure World where
  server : Server
  content : Content
  jobs : List DBJob

/-- `Start` has returned, and nobody has connected. -/
def World.start (maxSession : Nat) : World where
  server := Server.start maxSession
  content := Content.initial
  jobs := []

/-- What one `SetHeader` and the `SendPacket` calls that follow it take from
outside: the nonce, and for which recipients `WSASend` would be accepted. -/
structure SendEnv where
  nonce : List UInt8
  accepted : SessionID → Bool

/-- `CPacket::Alloc`, the fields of the message, and `SetHeader`. -/
def buildPacket (C : Crypto) (nonce : List UInt8) (fields : List (List UInt8)) (sv : Server) :
    PacketRef × Server :=
  let (p, sv) := sv.alloc
  (p, sv.setPacket p ((fields.foldl CPacket.writePacket (sv.packets p)).setHeader C nonce))

/-- The loop over `targets`, as in `BroadcastToRoom`. -/
def sendAll (p : PacketRef) (accepted : SessionID → Bool) (targets : List SessionID)
    (sv : Server) : Server :=
  targets.foldl (fun sv sid => (sv.sendPacket sid p (accepted sid)).2) sv

/-- A handler carries out one of its effects. -/
def perform (C : Crypto) (io : SendEnv) (sv : Server) (jobs : List DBJob) :
    Effect → Server × List DBJob
  | .pushJob job => (sv, jobs ++ [job])
  | .send fields targets =>
      let (p, sv) := buildPacket C io.nonce fields sv
      ((sendAll p io.accepted targets sv).release p, jobs)

/-- The calls that a handler makes, in their order. -/
def performAll (C : Crypto) : (Nat → SendEnv) → List Effect → Server → List DBJob →
    Server × List DBJob
  | _, [], sv, jobs => (sv, jobs)
  | io, e :: es, sv, jobs =>
      let (sv, jobs) := perform C (io 0) sv jobs e
      performAll C (fun k => io (k + 1)) es sv jobs

/-- A handler of the update thread about to carry out its effects; `msg` is the
packet that is released after it. -/
structure Handler where
  server : Server
  content : Content
  jobs : List DBJob
  effects : List Effect
  msg : Option PacketRef

/-- A handler of the network layer, the update thread taking a message, or the update thread
taking a DB result. -/
inductive ChatEvent where
  | net (e : NetEvent)
  | update (env : Env) (io : Nat → SendEnv)
  | dbResult (result : Int) (userNo : BitVec 32) (nickname : Nat → UInt16)
      (io : Nat → SendEnv)

/-- `UpdateLoop` takes a message, or the result of the oldest job. -/
def startHandler (toAcp : List UInt16 → List UInt8) (w : World) : ChatEvent → Option Handler
  | .net _ => none
  | .update env _ =>
      match w.server.contentQ with
      | [] => none
      | .join sid :: rest => some
          { server := { w.server with contentQ := rest }
            content := handleJoin env w.content sid
            jobs := w.jobs
            effects := []
            msg := none }
      | .leave sid :: rest => some
          { server := { w.server with contentQ := rest }
            content := handleLeave w.content sid
            jobs := w.jobs
            effects := []
            msg := none }
      | .recv sid pkt :: rest =>
          let out := handleRecv env w.content sid (w.server.packets pkt)
          some
            { server := { w.server with contentQ := rest }
              content := out.1
              jobs := w.jobs
              effects := out.2
              msg := some pkt }
  | .dbResult result userNo nickname _ =>
      match w.jobs with
      | [] => none
      | job :: rest =>
          let out := handleDbResult toAcp w.content
            { type := job.type, sid := job.sid, result, userNo, nickname }
          some
            { server := w.server
              content := out.1
              jobs := rest
              effects := out.2
              msg := none }

/-- The calls of the handler, and the release of the packet that it was handed. -/
def finishHandler (C : Crypto) (io : Nat → SendEnv) (h : Handler) : World :=
  let (sv, jobs) := performAll C io h.effects h.server h.jobs
  let sv := match h.msg with
    | some pkt => sv.release pkt
    | none => sv
  { server := sv, content := h.content, jobs := jobs }

/-- `SendPacket` is called by the handlers of the update thread only. -/
def chatStep (C : Crypto) (toAcp : List UInt16 → List UInt8) (w : World) :
    ChatEvent → Option World
  | .net (.sendPacket _ _ _) => none
  | .net e => (netStep C w.server e).map fun sv => { w with server := sv }
  | .update env io => (startHandler toAcp w (.update env io)).map (finishHandler C io)
  | .dbResult result userNo nickname io =>
      (startHandler toAcp w (.dbResult result userNo nickname io)).map (finishHandler C io)

theorem chatStep_net {C : Crypto} {toAcp : List UInt16 → List UInt8} {w w' : World}
    {e : NetEvent} (h : chatStep C toAcp w (.net e) = some w') :
    (∀ sid p accepted, e ≠ .sendPacket sid p accepted) ∧
      ∃ sv, netStep C w.server e = some sv ∧ { w with server := sv } = w' := by
  cases e with
  | sendPacket sid p accepted => simp [chatStep] at h
  | _ =>
      refine ⟨by simp, ?_⟩
      simpa only [chatStep, Option.map_eq_some_iff] using h

theorem startHandler_server {toAcp : List UInt16 → List UInt8} {w : World} {e : ChatEvent}
    {hd : Handler} (hstart : startHandler toAcp w e = some hd) :
    ∃ queue, hd.server = { w.server with contentQ := queue } := by
  cases e with
  | net e => simp [startHandler] at hstart
  | update env io =>
      simp only [startHandler] at hstart
      split at hstart
      · simp at hstart
      all_goals
        obtain rfl := Option.some.inj hstart
        exact ⟨_, rfl⟩
  | dbResult result userNo nickname io =>
      simp only [startHandler] at hstart
      split at hstart
      · simp at hstart
      · obtain rfl := Option.some.inj hstart
        exact ⟨w.server.contentQ, rfl⟩

section Targets

/-- All identifiers the content refers to satisfy `K`. -/
def RoomsWithin (K : SessionID → Prop) (c : Content) : Prop :=
  ∀ i sid, sid ∈ (c.rooms i).users → K sid

/-- The sessions that an effect sends to. -/
def effectTargets : Effect → List SessionID
  | .pushJob _ => []
  | .send _ targets => targets

/-- The effect concerns sessions of `K` only. -/
def EffectWithin (K : SessionID → Prop) : Effect → Prop
  | .pushJob job => K job.sid
  | .send _ targets => ∀ sid, sid ∈ targets → K sid

variable {K : SessionID → Prop} {c : Content} {sid : SessionID}

theorem roomsWithin_update (h : RoomsWithin K c) (i : Fin maxRoomCount) {room : CRoom}
    (hroom : ∀ other, other ∈ room.users → K other) (players : AList fun _ => CPlayer) :
    RoomsWithin K { players := players, rooms := Function.update c.rooms i room } := by
  intro j other hmem
  rcases eq_or_ne j i with rfl | hne
  · exact hroom other (by simpa using hmem)
  · exact h j other (by simpa [hne] using hmem)

theorem leaveRoom_within (h : RoomsWithin K c) (i : Fin maxRoomCount) (other : SessionID)
    (hmem : other ∈ ((c.rooms i).leaveRoom sid).users) : K other :=
  h i other ((CRoom.mem_leaveRoom _ _ _).mp hmem).2

theorem enterRoom_within (h : RoomsWithin K c) (hsid : K sid) {i : Fin maxRoomCount}
    {room : CRoom} (henter : (c.rooms i).enterRoom sid = (true, room)) (other : SessionID)
    (hmem : other ∈ room.users) : K other := by
  simp only [CRoom.enterRoom] at henter
  split at henter
  · have hroom := (Prod.mk.inj henter).2
    rw [← hroom] at hmem
    rcases List.mem_cons.mp hmem with rfl | hold
    · exact hsid
    · exact h i other hold
  · simp at henter

theorem handleLeave_within (h : RoomsWithin K c) : RoomsWithin K (handleLeave c sid) := by
  simp only [handleLeave]
  split
  · exact h
  · split
    · split
      · exact h
      · rename_i i _
        exact roomsWithin_update h i (leaveRoom_within h i) _
    · exact h

theorem handleJoin_within (env : Env) (h : RoomsWithin K c) :
    RoomsWithin K (handleJoin env c sid) := by
  simp only [handleJoin]
  split
  · exact h
  · exact h

theorem handleRoomEnter_within (env : Env) (h : RoomsWithin K c) (hsid : K sid)
    (pkt : CPacket) :
    RoomsWithin K (handleRoomEnter env c sid pkt).1 ∧
      ∀ e, e ∈ (handleRoomEnter env c sid pkt).2 → EffectWithin K e := by
  simp only [handleRoomEnter]
  split
  · exact ⟨h, by simp⟩
  · split
    · exact ⟨h, by simp⟩
    · split
      · exact ⟨h, by simp⟩
      · rename_i i _ _ room henter
        have hroom := enterRoom_within h hsid henter
        split
        · exact ⟨roomsWithin_update h i hroom _, by simp⟩
        · refine ⟨roomsWithin_update h i hroom _, ?_⟩
          intro e he
          rcases List.mem_cons.mp he with rfl | he
          · intro other hother
            rw [List.mem_singleton.mp hother]
            exact hsid
          · rw [List.mem_singleton.mp he]
            intro other hother
            have hmem := List.mem_of_mem_filter hother
            exact hroom other ((env.order_perm _).mem_iff.mp hmem)

theorem handleRoomLeave_within (env : Env) (h : RoomsWithin K c) :
    RoomsWithin K (handleRoomLeave env c sid).1 ∧
      ∀ e, e ∈ (handleRoomLeave env c sid).2 → EffectWithin K e := by
  simp only [handleRoomLeave]
  split
  · exact ⟨h, by simp⟩
  · split
    · exact ⟨h, by simp⟩
    · split
      · exact ⟨h, by simp⟩
      · rename_i i _
        refine ⟨roomsWithin_update h i (leaveRoom_within h i) _, ?_⟩
        intro e he
        rw [List.mem_singleton.mp he]
        intro other hother
        exact leaveRoom_within h i other ((env.order_perm _).mem_iff.mp hother)

theorem handleChat_within (env : Env) (h : RoomsWithin K c) (pkt : CPacket) :
    RoomsWithin K (handleChat env c sid pkt).1 ∧
      ∀ e, e ∈ (handleChat env c sid pkt).2 → EffectWithin K e := by
  simp only [handleChat]
  split
  · exact ⟨h, by simp⟩
  · split
    · exact ⟨h, by simp⟩
    · split
      · exact ⟨h, by simp⟩
      · split
        · exact ⟨h, by simp⟩
        · rename_i i _
          refine ⟨h, ?_⟩
          intro e he
          rw [List.mem_singleton.mp he]
          intro other hother
          exact h i other ((env.order_perm _).mem_iff.mp hother)

theorem handleRecv_within (env : Env) (h : RoomsWithin K c) (hsid : K sid) (pkt : CPacket) :
    RoomsWithin K (handleRecv env c sid pkt).1 ∧
      ∀ e, e ∈ (handleRecv env c sid pkt).2 → EffectWithin K e := by
  cases dispatch env sid pkt with
  | login _ hlogin =>
      simp only [hlogin, handleLogin]
      split
      · exact ⟨h, by simp⟩
      · exact ⟨h, by simpa [EffectWithin] using hsid⟩
  | signUp _ hsignUp =>
      simp only [hsignUp, handleSignUp]
      split
      · exact ⟨h, by simp⟩
      · exact ⟨h, by simpa [EffectWithin] using hsid⟩
  | roomEnter _ henter =>
      rw [henter]
      exact handleRoomEnter_within env h hsid _
  | roomLeave _ hleave =>
      rw [hleave]
      exact handleRoomLeave_within env h
  | chat _ hchat =>
      rw [hchat]
      exact handleChat_within env h _
  | unknown _ _ hunknown =>
      rw [hunknown]
      exact ⟨h, by simp⟩

theorem handleDbResult_within (toAcp : List UInt16 → List UInt8) (h : RoomsWithin K c)
    {r : DBResult} (hsid : K r.sid) :
    RoomsWithin K (handleDbResult toAcp c r).1 ∧
      ∀ e, e ∈ (handleDbResult toAcp c r).2 → EffectWithin K e := by
  simp only [handleDbResult]
  split
  · exact ⟨h, by simp⟩
  · split
    · exact ⟨h, by simpa [EffectWithin] using hsid⟩
    · exact ⟨h, by simpa [EffectWithin] using hsid⟩

end Targets

end IocpChat.ChatRuns
