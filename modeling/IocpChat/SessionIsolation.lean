import IocpChat.RoomNotices
import IocpChat.SendResults

/-!
A message or a DB result concerns one session.  Nothing that the content layer keeps
about any other session changes, also not while a broadcast calls `SendPacket`, which
can close its recipients: a closed session comes back as a message only.
-/

namespace IocpChat.SessionIsolation

open IocpChat.Protocol
open IocpChat.PacketBuffer
open IocpChat.ContentHandlers
open IocpChat.LanServer
open IocpChat.SendQueue
open IocpChat.RoomMembership
open IocpChat.ContentSteps
open IocpChat.RoomNotices
open IocpChat.ChatRuns

/-- The record of a session, whether it has one, and which rooms list it. -/
structure Untouched (sid : SessionID) (c c' : Content) : Prop where
  player : c'.players.lookup sid = c.players.lookup sid
  rooms : ∀ i, sid ∈ (c'.rooms i).users ↔ sid ∈ (c.rooms i).users

section Handlers

variable {c c' : Content} {sid other : SessionID}

theorem untouched_refl (sid : SessionID) (c : Content) : Untouched sid c c :=
  ⟨rfl, fun _ => Iff.rfl⟩

theorem untouched_insert (h : other ≠ sid) (pl : CPlayer) :
    Untouched other c { c with players := c.players.insert sid pl } :=
  ⟨AList.lookup_insert_ne h, fun _ => Iff.rfl⟩

theorem untouched_erase (h : other ≠ sid) :
    Untouched other c { c with players := c.players.erase sid } :=
  ⟨AList.lookup_erase_ne h, fun _ => Iff.rfl⟩

theorem untouched_leaveRoom (h : other ≠ sid) (i : Fin maxRoomCount) :
    Untouched other c
      { c with rooms := Function.update c.rooms i ((c.rooms i).leaveRoom sid) } := by
  refine ⟨rfl, ?_⟩
  intro j
  rw [mem_update_leaveRoom]
  simp [h]

theorem untouched_enterRoom (h : other ≠ sid) {i : Fin maxRoomCount} {room : CRoom}
    (henter : (c.rooms i).enterRoom sid = (true, room)) :
    Untouched other c { c with rooms := Function.update c.rooms i room } := by
  refine ⟨rfl, ?_⟩
  intro j
  constructor
  · intro hmem
    rcases mem_update_enterRoom henter hmem with heq | hold
    · exact absurd heq h
    · exact hold
  · exact mem_update_of_mem henter

theorem Untouched.trans {c'' : Content} (h : Untouched sid c c') (k : Untouched sid c' c'') :
    Untouched sid c c'' :=
  ⟨k.player.trans h.player, fun i => (k.rooms i).trans (h.rooms i)⟩

theorem outcome_untouched {e : Event} {effects : List Effect} (h : Outcome c e c' effects)
    (hother : other ≠ subject e) : Untouched other c c' := by
  cases h with
  | joinKnown => exact untouched_refl other c
  | joined env sid => exact untouched_insert hother _
  | leaveUnknown => exact untouched_refl other c
  | leftLobby => exact untouched_erase hother
  | leftRoom sid pl i =>
      exact (untouched_leaveRoom hother i).trans (untouched_erase hother)
  | recvQuiet => exact untouched_refl other c
  | roomLeft env sid pkt pl i =>
      exact (untouched_leaveRoom hother i).trans (untouched_insert hother _)
  | enterRefused => exact untouched_refl other c
  | placeTaken env sid pkt no pl i room _ _ _ henter => exact untouched_enterRoom hother henter
  | entered env sid pkt no pl i room _ _ _ henter =>
      exact (untouched_enterRoom hother henter).trans (untouched_insert hother _)
  | dbQuiet => exact untouched_refl other c
  | loggedIn r pl name => exact untouched_insert hother _

end Handlers

/-- The event makes a player. -/
def isJoin : Event → Bool
  | .join _ _ => true
  | _ => false

theorem outcome_of_departed (toAcp : List UInt16 → List UInt8) {c : Content} {e : Event}
    (hgone : c.players.lookup (subject e) = none) (he : isJoin e = false) :
    outcome toAcp c e = (c, []) := by
  cases e with
  | join env sid => cases he
  | leave sid =>
      have hgone : c.players.lookup sid = none := hgone
      simp only [outcome, handleLeave, hgone]
  | dbResult r =>
      have hgone : c.players.lookup r.sid = none := hgone
      simp only [outcome, handleDbResult, hgone]
  | recv env sid pkt => exact handleRecv_of_departed env hgone pkt

/-- The room whose users a broadcast walks is one of the new content; all other
packets go to the session the message is about. -/
def Recipients (c : Content) (sid : SessionID) : Effect → Prop
  | .pushJob _ => True
  | .send _ targets => targets = [sid] ∨ ∃ i, ∀ other ∈ targets, other ∈ (c.rooms i).users

section Recipients

variable (env : Env) (c : Content) (sid : SessionID) (pkt : CPacket)

theorem mem_order {users : List SessionID} {other : SessionID}
    (h : other ∈ env.order users) : other ∈ users :=
  (env.order_perm users).mem_iff.mp h

theorem handleRoomEnter_recipients :
    ∀ e ∈ (handleRoomEnter env c sid pkt).2,
      Recipients (handleRoomEnter env c sid pkt).1 sid e := by
  simp only [handleRoomEnter]
  split
  · simp
  · split
    · simp
    · rename_i i _
      split
      · simp
      · rename_i room henter
        split
        · simp
        · simp only [List.forall_mem_cons, List.not_mem_nil, false_implies, implies_true,
            and_true]
          refine ⟨.inl rfl, .inr ⟨i, ?_⟩⟩
          intro other hother
          simp only [Function.update_self]
          exact mem_order env (List.mem_of_mem_filter hother)

theorem handleRoomLeave_recipients :
    ∀ e ∈ (handleRoomLeave env c sid).2, Recipients (handleRoomLeave env c sid).1 sid e := by
  simp only [handleRoomLeave]
  split
  · simp
  · split
    · simp
    · split
      · simp
      · rename_i i _
        rw [List.forall_mem_singleton]
        refine .inr ⟨i, ?_⟩
        intro other hother
        simp only [Function.update_self]
        exact mem_order env hother

theorem handleChat_recipients :
    ∀ e ∈ (handleChat env c sid pkt).2, Recipients (handleChat env c sid pkt).1 sid e := by
  simp only [handleChat]
  split
  · simp
  · split
    · simp
    · split
      · simp
      · split
        · simp
        · rename_i i _
          rw [List.forall_mem_singleton]
          exact .inr ⟨i, fun other hother => mem_order env hother⟩

theorem outcome_recipients (toAcp : List UInt16 → List UInt8) (e : Event) :
    ∀ effect ∈ (outcome toAcp c e).2, Recipients (outcome toAcp c e).1 (subject e) effect := by
  cases e with
  | join env sid => simp [outcome]
  | leave sid => simp [outcome]
  | dbResult r =>
      simp only [outcome, handleDbResult]
      split
      · simp
      · split
        · rw [List.forall_mem_singleton]
          exact .inl rfl
        · rw [List.forall_mem_singleton]
          exact .inl rfl
  | recv env sid pkt =>
      rw [outcome]
      cases dispatch env sid pkt with
      | login _ hlogin =>
          simp only [hlogin, handleLogin]
          split <;> simp [Recipients]
      | signUp _ hsignUp =>
          simp only [hsignUp, handleSignUp]
          split <;> simp [Recipients]
      | roomEnter _ henter =>
          rw [henter]
          exact handleRoomEnter_recipients env c sid _
      | roomLeave _ hleave =>
          rw [hleave]
          exact handleRoomLeave_recipients env c sid
      | chat _ hchat =>
          rw [hchat]
          exact handleChat_recipients env c sid _
      | unknown _ _ hunknown => simp [hunknown]

end Recipients

/-- The content queue has got longer by leave messages at most. -/
def OnlyLeaves (sv sv' : Server) : Prop :=
  ∃ gone : List SessionID, sv'.contentQ = sv.contentQ ++ gone.map Message.leave

section Leaves

variable {sv sv' sv'' : Server} {idx : Nat}

theorem onlyLeaves_of_eq (h : sv'.contentQ = sv.contentQ) : OnlyLeaves sv sv' :=
  ⟨[], by simpa using h⟩

theorem OnlyLeaves.trans (h : OnlyLeaves sv sv') (k : OnlyLeaves sv' sv'') :
    OnlyLeaves sv sv'' := by
  obtain ⟨gone, hgone⟩ := h
  obtain ⟨more, hmore⟩ := k
  exact ⟨gone ++ more, by rw [hmore, hgone, List.map_append, List.append_assoc]⟩

theorem releaseAll_contentQ (sv : Server) (ps : List PacketRef) :
    (sv.releaseAll ps).contentQ = sv.contentQ := by
  induction ps generalizing sv with
  | nil => rfl
  | cons p ps ih => exact (ih (sv.release p)).trans (PacketOwnership.release_contentQ sv p)

theorem ioRelease_contentQ (sv : Server) (idx : Nat) :
    (sv.ioRelease idx).contentQ = sv.contentQ := by
  simp only [Server.ioRelease]
  split <;> rfl

theorem closeSession_onlyLeaves (sv : Server) (idx : Nat) :
    OnlyLeaves sv (sv.closeSession idx) := by
  simp only [Server.closeSession]
  split
  · exact onlyLeaves_of_eq rfl
  · obtain ⟨head, count, hs⟩ := takeQueue_snd (sv.sessions idx).sqCount
      { sv.sessions idx with closeFlag := true, sock := none }
    refine ⟨[(sv.sessions idx).sID], ?_⟩
    rw [ioRelease_contentQ, hs]
    simp only [Server.onClientLeave, releaseAll_contentQ]
    rfl

theorem flushSend_onlyLeaves (sv : Server) (idx : Nat) (accepted : Bool) :
    OnlyLeaves sv (sv.flushSend idx accepted) := by
  simp only [Server.flushSend]
  split
  · exact onlyLeaves_of_eq rfl
  · split
    · exact onlyLeaves_of_eq rfl
    · refine OnlyLeaves.trans (onlyLeaves_of_eq ?_) ((closeSession_onlyLeaves _ idx).trans
        (onlyLeaves_of_eq (ioRelease_contentQ _ idx)))
      exact releaseAll_contentQ _ _

theorem sendPacket_onlyLeaves (sv : Server) (sid : SessionID) (p : PacketRef)
    (accepted : Bool) : OnlyLeaves sv (sv.sendPacket sid p accepted).2 := by
  simp only [Server.sendPacket]
  split
  · exact onlyLeaves_of_eq rfl
  · split
    · exact onlyLeaves_of_eq rfl
    · split
      · exact onlyLeaves_of_eq rfl
      · split
        · exact closeSession_onlyLeaves sv _
        · exact (onlyLeaves_of_eq rfl).trans (flushSend_onlyLeaves _ _ accepted)

theorem buildPacket_onlyLeaves (C : Crypto) (nonce : List UInt8) (fields : List (List UInt8))
    (sv : Server) : OnlyLeaves sv (buildPacket C nonce fields sv).2 := by
  apply onlyLeaves_of_eq
  simp only [buildPacket, Server.alloc]
  split <;> rfl

theorem sendAll_onlyLeaves (p : PacketRef) (accepted : SessionID → Bool)
    (targets : List SessionID) (sv : Server) : OnlyLeaves sv (sendAll p accepted targets sv) := by
  induction targets generalizing sv with
  | nil => exact onlyLeaves_of_eq rfl
  | cons sid targets ih =>
      exact (sendPacket_onlyLeaves sv sid p (accepted sid)).trans (ih _)

theorem perform_onlyLeaves (C : Crypto) (io : SendEnv) (sv : Server) (jobs : List DBJob)
    (e : Effect) : OnlyLeaves sv (perform C io sv jobs e).1 := by
  cases e with
  | pushJob job => exact onlyLeaves_of_eq rfl
  | send fields targets =>
      exact (buildPacket_onlyLeaves C io.nonce fields sv).trans
        ((sendAll_onlyLeaves _ io.accepted targets _).trans
          (onlyLeaves_of_eq (PacketOwnership.release_contentQ _ _)))

end Leaves

/-- The server before each turn of the loop over `targets`, and after the last one. -/
def sendServers (p : PacketRef) (accepted : SessionID → Bool) :
    List SessionID → Server → List Server
  | [], sv => [sv]
  | sid :: targets, sv =>
      sv :: sendServers p accepted targets (sv.sendPacket sid p (accepted sid)).2

/-- The worlds that a handler passes through while it carries out its effects: one
for each turn of each broadcast, and the last one. -/
def passed (C : Crypto) : (Nat → SendEnv) → List Effect → World → List World
  | _, [], w => [w]
  | io, e :: es, w =>
      (match e with
        | .pushJob _ => [w]
        | .send fields targets =>
            let (p, sv) := buildPacket C (io 0).nonce fields w.server
            (sendServers p (io 0).accepted targets sv).map fun sv => { w with server := sv }) ++
      let (sv, jobs) := perform C (io 0) w.server w.jobs e
      passed C (fun k => io (k + 1)) es { w with server := sv, jobs := jobs }

theorem sendServers_onlyLeaves {p : PacketRef} {accepted : SessionID → Bool}
    {targets : List SessionID} {sv t : Server} (h : t ∈ sendServers p accepted targets sv) :
    OnlyLeaves sv t := by
  induction targets generalizing sv with
  | nil =>
      rw [List.mem_singleton.mp h]
      exact onlyLeaves_of_eq rfl
  | cons sid targets ih =>
      rcases List.mem_cons.mp h with rfl | htail
      · exact onlyLeaves_of_eq rfl
      · exact (sendPacket_onlyLeaves sv sid p (accepted sid)).trans (ih htail)

theorem passed_keeps {C : Crypto} {io : Nat → SendEnv} {es : List Effect} {w t : World}
    (h : t ∈ passed C io es w) : t.content = w.content ∧ OnlyLeaves w.server t.server := by
  induction es generalizing io w with
  | nil =>
      rw [List.mem_singleton.mp h]
      exact ⟨rfl, onlyLeaves_of_eq rfl⟩
  | cons e es ih =>
      rcases List.mem_append.mp h with hhere | hlater
      · cases e with
        | pushJob job =>
            rw [List.mem_singleton.mp hhere]
            exact ⟨rfl, onlyLeaves_of_eq rfl⟩
        | send fields targets =>
            obtain ⟨sv, hsv, rfl⟩ := List.mem_map.mp hhere
            exact ⟨rfl, (buildPacket_onlyLeaves C (io 0).nonce fields w.server).trans
              (sendServers_onlyLeaves hsv)⟩
      · obtain ⟨hcontent, hleaves⟩ := ih hlater
        exact ⟨hcontent, (perform_onlyLeaves C (io 0) w.server w.jobs e).trans hleaves⟩

theorem passed_getLast (C : Crypto) (io : Nat → SendEnv) (es : List Effect) (w : World) :
    (passed C io es w).getLast? = some
      { w with
        server := (performAll C io es w.server w.jobs).1
        jobs := (performAll C io es w.server w.jobs).2 } := by
  induction es generalizing io w with
  | nil => rfl
  | cons e es ih =>
      simp only [passed, List.getLast?_append, ih]
      rfl

/-- A message or DB result for a session leaves the record and the memberships of every
other session alone.  The packets its handler sends go to that session or to users of
one room, and the rooms stay the same from the first of them to the last.  Where the
session has no player, nothing happens at all unless it joins. -/
theorem sessions_isolated (C : Crypto) (toAcp : List UInt16 → List UInt8) (w : World)
    (e : Event) (io : Nat → SendEnv) :
    (∀ other, other ≠ subject e →
      Untouched other w.content (outcome toAcp w.content e).1) ∧
    (∀ effect ∈ (outcome toAcp w.content e).2,
      Recipients (outcome toAcp w.content e).1 (subject e) effect) ∧
    (∀ t ∈ passed C io (outcome toAcp w.content e).2
        { w with content := (outcome toAcp w.content e).1 },
      t.content = (outcome toAcp w.content e).1 ∧ OnlyLeaves w.server t.server) ∧
    (passed C io (outcome toAcp w.content e).2
        { w with content := (outcome toAcp w.content e).1 }).getLast? =
      some
        { server := (performAll C io (outcome toAcp w.content e).2 w.server w.jobs).1
          content := (outcome toAcp w.content e).1
          jobs := (performAll C io (outcome toAcp w.content e).2 w.server w.jobs).2 } ∧
    (w.content.players.lookup (subject e) = none → isJoin e = false →
      outcome toAcp w.content e = (w.content, [])) := by
  refine ⟨?_, outcome_recipients w.content toAcp e, ?_, passed_getLast C io _ _, ?_⟩
  · intro other hother
    exact outcome_untouched (outcome_cases toAcp w.content e) hother
  · intro t ht
    exact passed_keeps ht
  · exact outcome_of_departed toAcp

end IocpChat.SessionIsolation
