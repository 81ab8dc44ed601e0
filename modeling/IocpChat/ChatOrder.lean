import IocpChat.SendResults

namespace IocpChat.ChatOrder

open IocpChat.Protocol
open IocpChat.PacketBuffer
open IocpChat.RingWindow
open IocpChat.LanServer
open IocpChat.SlotInvariant
open IocpChat.SlotLifecycle
open IocpChat.ContentHandlers
open IocpChat.ChatRuns
open IocpChat.PacketLifetimes
open IocpChat.LabelledRun
open IocpChat.SendResults

/-- A chat request with the announced number of bytes behind it. -/
def CompleteChat (env : Env) (pkt : CPacket) (chatLen : UInt16) (text : List UInt8) : Prop :=
  (pkt.readWord env.type).1 = PacketType.csChatReq.code ∧
    ((pkt.readWord env.type).2.readWord env.chatLen).1 = chatLen ∧
    chatLen.toNat ≤ maxChatLen ∧
    (((pkt.readWord env.type).2.readWord env.chatLen).2.readPacket chatLen.toNat).1 = some text

/-- The message that passes a text on. -/
def chatFields (pl : CPlayer) (chatLen : UInt16) (text : List UInt8) : List (List UInt8) :=
  [wordBytes PacketType.scChatRes.code, pl.nicknameField, wordBytes chatLen, text]

/-- The room in which `HandleChat` passes a text on, and the message it sends there.  Of
a request that is not complete it passes on what its buffer happens to hold. -/
def chatRequest (env : Env) (c : Content) (sid : SessionID) (pkt : CPacket) :
    Option (Fin maxRoomCount × List (List UInt8)) :=
  let (type, pkt) := pkt.readWord env.type
  let (chatLen, pkt) := pkt.readWord env.chatLen
  if type ≠ PacketType.csChatReq.code ∨ maxChatLen < chatLen.toNat then none
  else
    match c.players.lookup sid with
    | none => none
    | some pl =>
        if pl.state ≠ .inRoom then none
        else (getRoom pl.roomNo).map fun i =>
          (i, chatFields pl chatLen
            ((pkt.readPacket chatLen.toNat).1.getD (slice env.chat 0 chatLen.toNat)))

/-- The chat request that an event handles. -/
def chatOf (w : World) : ChatEvent → Option (Fin maxRoomCount × List (List UInt8))
  | .update env _ =>
      match w.server.contentQ with
      | .recv sid p :: _ => chatRequest env w.content sid (w.server.packets p)
      | _ => none
  | _ => none

section Requests

variable {env : Env} {c : Content} {sid : SessionID} {pkt : CPacket}

theorem chatRequest_of_complete {chatLen : UInt16} {text : List UInt8}
    (h : CompleteChat env pkt chatLen text) {pl : CPlayer}
    (hpl : c.players.lookup sid = some pl) (hstate : pl.state = .inRoom)
    {r : Fin maxRoomCount} (hroom : getRoom pl.roomNo = some r) :
    chatRequest env c sid pkt = some (r, chatFields pl chatLen text) := by
  obtain ⟨htype, hlen, hmax, htext⟩ := h
  simp only [chatRequest, htype, hlen, htext, hpl, hstate, hroom]
  simp [Nat.not_lt.mpr hmax]

theorem handleRecv_of_chatRequest {r : Fin maxRoomCount} {fields : List (List UInt8)}
    (h : chatRequest env c sid pkt = some (r, fields)) :
    handleRecv env c sid pkt = (c, [.send fields (env.order (c.rooms r).users)]) := by
  simp only [chatRequest] at h
  simp only [handleRecv]
  generalize (pkt.readWord env.type).1 = type at h ⊢
  generalize (pkt.readWord env.type).2 = pkt₁ at h ⊢
  split at h
  · simp at h
  · rename_i hrequest
    obtain ⟨htype, hlen⟩ := not_or.mp hrequest
    rw [not_not.mp htype]
    change handleChat env c sid pkt₁ = _
    simp only [handleChat]
    rw [if_neg hlen]
    generalize (pkt₁.readWord env.chatLen).1 = chatLen at h ⊢
    generalize (pkt₁.readWord env.chatLen).2 = pkt₂ at h ⊢
    rcases hpl : c.players.lookup sid with _ | pl
    · simp [hpl] at h
    · simp only [hpl] at h ⊢
      split at h
      · simp at h
      · rename_i hstate
        obtain ⟨i, hroom, hfields⟩ := Option.map_eq_some_iff.mp h
        obtain ⟨rfl, rfl⟩ := Prod.mk.inj hfields
        rw [if_neg hstate, hroom]
        rcases pkt₂.readPacket chatLen.toNat with ⟨_ | bytes, pkt₃⟩
        · rfl
        · rfl

/-- The packet is one that passes a text on. -/
def IsChat (fields : List (List UInt8)) : Prop :=
  fields.head? = some (wordBytes PacketType.scChatRes.code)

theorem handleRoomEnter_noChat {fields : List (List UInt8)} {targets : List SessionID}
    (h : Effect.send fields targets ∈ (handleRoomEnter env c sid pkt).2) : ¬ IsChat fields := by
  rcases fields_of_handleRoomEnter h with ⟨no, rfl⟩ | ⟨pl, rfl⟩
  · exact fun heq => absurd (Option.some.inj heq) (by decide)
  · exact fun heq => absurd (Option.some.inj heq) (by decide)

theorem handleRoomLeave_noChat {fields : List (List UInt8)} {targets : List SessionID}
    (h : Effect.send fields targets ∈ (handleRoomLeave env c sid).2) : ¬ IsChat fields := by
  obtain ⟨pl, rfl⟩ := fields_of_handleRoomLeave h
  exact fun heq => absurd (Option.some.inj heq) (by decide)

theorem handleDbResult_noChat (toAcp : List UInt16 → List UInt8) {r : DBResult}
    {fields : List (List UInt8)} {targets : List SessionID}
    (h : Effect.send fields targets ∈ (handleDbResult toAcp c r).2) : ¬ IsChat fields := by
  simp only [handleDbResult] at h
  split at h
  · simp at h
  · split at h
    · obtain ⟨rfl, -⟩ := Effect.send.inj (List.mem_singleton.mp h)
      exact fun heq => absurd (Option.some.inj heq) (by decide)
    · obtain ⟨rfl, -⟩ := Effect.send.inj (List.mem_singleton.mp h)
      exact fun heq => absurd (Option.some.inj heq) (by decide)

theorem chatRequest_of_handleRecv {fields : List (List UInt8)} {targets : List SessionID}
    (h : Effect.send fields targets ∈ (handleRecv env c sid pkt).2) (hchat : IsChat fields) :
    ∃ r, chatRequest env c sid pkt = some (r, fields) := by
  cases dispatch env sid pkt with
  | login _ hlogin => exact absurd (hlogin c ▸ h) (send_not_mem_handleLogin env c sid _ _ _)
  | signUp _ hsignUp => exact absurd (hsignUp c ▸ h) (send_not_mem_handleSignUp env c sid _ _ _)
  | roomEnter _ henter => exact absurd hchat (handleRoomEnter_noChat (henter c ▸ h))
  | roomLeave _ hleave => exact absurd hchat (handleRoomLeave_noChat (hleave c ▸ h))
  | unknown _ _ hunknown => simp [hunknown] at h
  | chat htype hhandler =>
      rw [hhandler] at h
      simp only [chatRequest]
      generalize (pkt.readWord env.type).2 = pkt₁ at h ⊢
      simp only [handleChat] at h
      generalize (pkt₁.readWord env.chatLen).1 = chatLen at h ⊢
      generalize (pkt₁.readWord env.chatLen).2 = pkt₂ at h ⊢
      split at h
      · simp at h
      · rename_i hlen
        rw [if_neg (by simp [htype, hlen])]
        rcases hpl : c.players.lookup sid with _ | pl
        · simp [hpl] at h
        · simp only [hpl] at h ⊢
          split at h
          · simp at h
          · rename_i hstate
            rw [if_neg hstate]
            split at h
            · simp at h
            · rename_i r hroom
              refine ⟨r, ?_⟩
              obtain ⟨rfl, -⟩ := Effect.send.inj (List.mem_singleton.mp h)
              rw [hroom]
              rcases pkt₂.readPacket chatLen.toNat with ⟨_ | bytes, pkt₃⟩
              · rfl
              · rfl

end Requests

section Steps

variable (C : Crypto) (toAcp : List UInt16 → List UInt8) {w w' : World}

theorem sendAllLog_sids (p : PacketRef) (fields : List (List UInt8))
    (accepted : SessionID → Bool) (targets : List SessionID) (sv : Server) :
    (sendAllLog p fields accepted targets sv).map SendCall.sid = targets := by
  induction targets generalizing sv with
  | nil => rfl
  | cons sid targets ih =>
      simp only [sendAllLog, List.map_cons]
      rw [ih]

theorem sendAllLog_same (p : PacketRef) (fields : List (List UInt8))
    (accepted : SessionID → Bool) (targets : List SessionID) (sv : Server) :
    ∀ x, x ∈ sendAllLog p fields accepted targets sv → x.packet = p ∧ x.fields = fields := by
  induction targets generalizing sv with
  | nil => simp [sendAllLog]
  | cons sid targets ih =>
      intro x hx
      rcases List.mem_cons.mp hx with rfl | hx
      · exact ⟨rfl, rfl⟩
      · exact ih _ x hx

theorem stepLog_of_chat {e : ChatEvent} {r : Fin maxRoomCount} {fields : List (List UInt8)}
    (h : chatOf w e = some (r, fields)) :
    (∃ q, ∀ x, x ∈ stepLog C toAcp w e → x.packet = q ∧ x.fields = fields) ∧
      ((stepLog C toAcp w e).map SendCall.sid).Perm (w.content.rooms r).users := by
  rcases e with e | ⟨env, io⟩ | ⟨result, userNo, nickname, io⟩
  · simp [chatOf] at h
  · simp only [chatOf] at h
    split at h
    · rename_i sid p rest hqueue
      have hlog : stepLog C toAcp w (.update env io) = performLog C (io 0)
          { w.server with contentQ := rest }
          (.send fields (env.order (w.content.rooms r).users)) := by
        simp only [stepLog, startHandler, hqueue, handleRecv_of_chatRequest h, performAllLog,
          List.append_nil]
      rw [hlog]
      refine ⟨⟨_, sendAllLog_same _ fields _ _ _⟩, ?_⟩
      simp only [performLog, sendAllLog_sids]
      exact env.order_perm _
    · simp at h
  · simp [chatOf] at h

theorem mem_performAllLog {io : Nat → SendEnv} {es : List Effect} {sv : Server}
    {jobs : List DBJob} {x : SendCall} (hx : x ∈ performAllLog C io es sv jobs) :
    ∃ targets, Effect.send x.fields targets ∈ es := by
  induction es generalizing sv jobs io with
  | nil => simp [performAllLog] at hx
  | cons e es ih =>
      rcases List.mem_append.mp hx with hx | hx
      · rcases e with job | ⟨fields, targets⟩
        · simp [performLog] at hx
        · have hsame := sendAllLog_same _ fields _ _ _ x hx
          exact ⟨targets, by simp [hsame.2]⟩
      · obtain ⟨targets, hmem⟩ := ih hx
        exact ⟨targets, List.mem_cons_of_mem _ hmem⟩

theorem chatOf_of_stepLog {e : ChatEvent} {x : SendCall} (hx : x ∈ stepLog C toAcp w e)
    (hchat : IsChat x.fields) : ∃ r, chatOf w e = some (r, x.fields) := by
  rcases e with e | ⟨env, io⟩ | ⟨result, userNo, nickname, io⟩
  · simp [stepLog, startHandler] at hx
  · rcases hqueue : w.server.contentQ with _ | ⟨m, rest⟩
    · simp [stepLog, startHandler, hqueue] at hx
    · rcases m with sid | sid | ⟨sid, p⟩
      · simp [stepLog, startHandler, hqueue, performAllLog] at hx
      · simp [stepLog, startHandler, hqueue, performAllLog] at hx
      · simp only [stepLog, startHandler, hqueue] at hx
        obtain ⟨targets, hsend⟩ := mem_performAllLog C hx
        simp only [chatOf, hqueue]
        exact chatRequest_of_handleRecv hsend hchat
  · rcases hjobs : w.jobs with _ | ⟨job, rest⟩
    · simp [stepLog, startHandler, hjobs] at hx
    · simp only [stepLog, startHandler, hjobs] at hx
      obtain ⟨targets, hsend⟩ := mem_performAllLog C hx
      exact absurd hchat (handleDbResult_noChat toAcp hsend)

end Steps

/-- A chat message together with the number of the step that handled its request. -/
structure Chat where
  step : Nat
  fields : List (List UInt8)
  deriving DecidableEq, Repr

section Sequences

variable (C : Crypto) (toAcp : List UInt16 → List UInt8)

/-- What the steps of a run contribute, one behind the other. -/
def collect (f : Nat → World → ChatEvent → List Chat) : Nat → World → List ChatEvent → List Chat
  | _, _, [] => []
  | k, w, e :: es =>
      match chatStep C toAcp w e with
      | none => []
      | some next => f k w e ++ collect f (k + 1) next es

/-- The chat message of the room that a step sends out. -/
def stepProcessed (r : Fin maxRoomCount) (k : Nat) (w : World) (e : ChatEvent) : List Chat :=
  match chatOf w e with
  | none => []
  | some (i, fields) => if i = r then [⟨k, fields⟩] else []

/-- The chat messages of the room that a step has accepted for a session. -/
def stepAccepted (r : Fin maxRoomCount) (sid : SessionID) (k : Nat) (w : World)
    (e : ChatEvent) : List Chat :=
  match chatOf w e with
  | none => []
  | some (i, _) =>
      if i = r then
        ((stepLog C toAcp w e).filter fun x => x.sid = sid && x.ok).map fun x => ⟨k, x.fields⟩
      else []

/-- The chat requests of the users of a room that a run has handled. -/
def processed (r : Fin maxRoomCount) : World → List ChatEvent → List Chat :=
  collect C toAcp (stepProcessed r) 0

/-- The chat messages of a room that a run has put into the queue of a session. -/
def accepted (r : Fin maxRoomCount) (sid : SessionID) : World → List ChatEvent → List Chat :=
  collect C toAcp (stepAccepted C toAcp r sid) 0

end Sequences

section Order

variable {C : Crypto} {toAcp : List UInt16 → List UInt8} {w w' : World} {max : Nat}
  {lost : Multiset PacketRef} {r : Fin maxRoomCount} {sid : SessionID}

theorem filter_sid {log : List SendCall} (hnodup : (log.map SendCall.sid).Nodup)
    {x : SendCall} (hx : x ∈ log) :
    (log.filter fun y => y.sid = x.sid && y.ok) = if x.ok then [x] else [] := by
  induction log with
  | nil => simp at hx
  | cons y log ih =>
      simp only [List.map_cons, List.nodup_cons, List.mem_map, not_exists, not_and] at hnodup
      rcases List.mem_cons.mp hx with rfl | hx
      · have hrest : (log.filter fun y => y.sid = x.sid && y.ok) = [] := by
          apply List.filter_eq_nil_iff.mpr
          intro z hz
          simp [hnodup.1 z hz]
        rw [List.filter_cons, hrest]
        simp
      · have hne : y.sid ≠ x.sid := fun heq => hnodup.1 x hx heq.symm
        rw [List.filter_cons, ih hnodup.2 hx]
        simp [hne]

/-- A member of the room gets the message of a step, or its session is closed. -/
theorem stepAccepted_cases (hmax : max ≤ 65536) (h : WorldOk w max lost) {e : ChatEvent}
    (hstep : chatStep C toAcp w e = some w') (hfresh : Fresh w'.server)
    (hmem : sid ∈ (w.content.rooms r).users) (k : Nat) :
    (Left w.server sid → stepAccepted C toAcp r sid k w e = []) ∧
      (stepAccepted C toAcp r sid k w e = stepProcessed r k w e ∨
        stepAccepted C toAcp r sid k w e = [] ∧ Left w'.server sid) := by
  simp only [stepAccepted, stepProcessed]
  rcases hchat : chatOf w e with _ | ⟨i, fields⟩
  · exact ⟨fun _ => rfl, Or.inl rfl⟩
  · dsimp only
    rcases ne_or_eq i r with hne | rfl
    · rw [if_neg hne, if_neg hne]
      exact ⟨fun _ => rfl, Or.inl rfl⟩
    · rw [if_pos rfl, if_pos rfl]
      obtain ⟨⟨q, hsame⟩, hperm⟩ := stepLog_of_chat C toAcp hchat
      have hlog := chatStep_logOk C toAcp hmax h hstep hfresh
      obtain ⟨x, hx, rfl⟩ := List.mem_map.mp (hperm.mem_iff.mpr hmem)
      rw [filter_sid (hperm.nodup_iff.mpr (w.content.rooms i).nodup) hx]
      refine ⟨?_, ?_⟩
      · intro hleft
        simp [hlog.refused x hx hleft]
      · rcases Bool.eq_false_or_eq_true x.ok with hok | hfalse
        · refine Or.inl ?_
          simp [hok, (hsame x hx).2]
        · exact Or.inr ⟨by simp [hfalse], hlog.closed x hx hfalse⟩

theorem accepted_cases (hmax : max ≤ 65536) (h : WorldOk w max lost)
    {events : List ChatEvent} (hrun : run (chatStep C toAcp) w events = some w')
    (hfresh : Fresh w'.server)
    (hmem : Always (chatStep C toAcp) (fun u => sid ∈ (u.content.rooms r).users) w events)
    (k : Nat) :
    let acc := collect C toAcp (stepAccepted C toAcp r sid) k w events
    let all := collect C toAcp (stepProcessed r) k w events
    (Left w.server sid → acc = []) ∧ (acc = all ∨ acc <+: all ∧ Left w'.server sid) := by
  induction events generalizing w lost k with
  | nil => exact ⟨fun _ => rfl, Or.inl rfl⟩
  | cons e events ih =>
      simp only [run] at hrun
      rcases hstep : chatStep C toAcp w e with _ | next
      · simp [hstep] at hrun
      · simp only [hstep] at hrun
        have hnext := chatStep_worldOk C toAcp hmax h hstep
        have hrest := run_logOk C toAcp hmax hnext hrun hfresh
        have hhere : sid ∈ (w.content.rooms r).users :=
          hmem [] (List.nil_prefix) w rfl
        have hlater : Always (chatStep C toAcp)
            (fun u => sid ∈ (u.content.rooms r).users) next events := by
          intro done hdone u hu
          refine hmem (e :: done) (List.cons_prefix_cons.mpr ⟨rfl, hdone⟩) u ?_
          rwa [run_cons_of_step _ hstep]
        have hfirst := stepAccepted_cases hmax h hstep (hfresh.anti hrest.calls) hhere k
        obtain ⟨hnone, hcases⟩ := ih hnext hrun hlater (k + 1)
        have hkeep := (chatStep_logOk C toAcp hmax h hstep (hfresh.anti hrest.calls)).calls
        simp only [collect, hstep]
        refine ⟨?_, ?_⟩
        · intro hleft
          rw [hfirst.1 hleft, hnone (hleft.mono hkeep), List.append_nil]
        · rcases hfirst.2 with heq | ⟨hempty, hleft⟩
          · rw [heq]
            rcases hcases with hall | ⟨hfront, hleft⟩
            · rw [hall]
              exact Or.inl rfl
            · exact Or.inr ⟨(List.prefix_append_right_inj _).mpr hfront, hleft⟩
          · rw [hempty, hnone hleft, List.append_nil]
            exact Or.inr ⟨List.nil_prefix, hleft.mono hrest.calls⟩

/-- Of two sequences that can only stop early, the shorter one has stopped. -/
theorem prefixes_comparable {α : Type*} {xs ys all : List α} {P Q : Prop}
    (hx : xs = all ∨ xs <+: all ∧ P) (hy : ys = all ∨ ys <+: all ∧ Q) :
    xs <+: all ∧ ys <+: all ∧
      ((xs <+: ys ∧ (xs ≠ ys → P)) ∨ (ys <+: xs ∧ (ys ≠ xs → Q))) := by
  rcases hx with rfl | ⟨hx, hP⟩
  · rcases hy with rfl | ⟨hy, hQ⟩
    · exact ⟨List.prefix_refl _, List.prefix_refl _, Or.inl ⟨List.prefix_refl _, by simp⟩⟩
    · exact ⟨List.prefix_refl _, hy, Or.inr ⟨hy, fun _ => hQ⟩⟩
  · rcases hy with rfl | ⟨hy, hQ⟩
    · exact ⟨hx, List.prefix_refl _, Or.inl ⟨hx, fun _ => hP⟩⟩
    · refine ⟨hx, hy, ?_⟩
      rcases List.prefix_or_prefix_of_prefix hx hy with hle | hle
      · exact Or.inl ⟨hle, fun _ => hP⟩
      · exact Or.inr ⟨hle, fun _ => hQ⟩

end Order

/-- In every run, a chat request goes to every member of its room in one packet; what two
members accept while both stay in the room is in the order of the requests and without
gaps, up to the end of one of the sessions; and a session that `SendPacket` has refused
once is refused ever after. -/
theorem chat_in_order (C : Crypto) (toAcp : List UInt16 → List UInt8) {maxSession : Nat}
    (hmax : maxSession ≤ 2 ^ 16) {before segment : List ChatEvent} {w₁ w₂ : World}
    (hbefore : run (chatStep C toAcp) (World.start maxSession) before = some w₁)
    (hsegment : run (chatStep C toAcp) w₁ segment = some w₂)
    (hfresh : ∀ idx, timesUsed w₂.server idx < 2 ^ 31) :
    (∀ env io sid p rest chatLen text pl r,
      w₁.server.contentQ = .recv sid p :: rest →
      CompleteChat env (w₁.server.packets p) chatLen text →
      w₁.content.players.lookup sid = some pl → pl.state = .inRoom →
      getRoom pl.roomNo = some r →
      chatOf w₁ (.update env io) = some (r, chatFields pl chatLen text) ∧
      (∃ q, ∀ x, x ∈ stepLog C toAcp w₁ (.update env io) →
        x.packet = q ∧ x.fields = chatFields pl chatLen text) ∧
      ((stepLog C toAcp w₁ (.update env io)).map SendCall.sid).Perm
        (w₁.content.rooms r).users) ∧
    (∀ e x, x ∈ stepLog C toAcp w₁ e → IsChat x.fields →
      ∃ r, chatOf w₁ e = some (r, x.fields)) ∧
    (∀ r a b,
      Always (chatStep C toAcp)
        (fun w => a ∈ (w.content.rooms r).users ∧ b ∈ (w.content.rooms r).users) w₁ segment →
      let acceptedA := accepted C toAcp r a w₁ segment
      let acceptedB := accepted C toAcp r b w₁ segment
      acceptedA <+: processed C toAcp r w₁ segment ∧
      acceptedB <+: processed C toAcp r w₁ segment ∧
      ((acceptedA <+: acceptedB ∧ (acceptedA ≠ acceptedB → Left w₂.server a)) ∨
        (acceptedB <+: acceptedA ∧ (acceptedB ≠ acceptedA → Left w₂.server b)))) ∧
    ((runLog C toAcp (World.start maxSession) (before ++ segment)).Pairwise fun x y =>
      x.sid = y.sid → x.ok = false → y.ok = false) ∧
    ∀ x, x ∈ runLog C toAcp (World.start maxSession) (before ++ segment) →
      Issued w₂.server x.sid ∧
      (x.ok = false → ∀ p ok, (w₂.server.sendPacket x.sid p ok).1 = false) := by
  have hrun : run (chatStep C toAcp) (World.start maxSession) (before ++ segment) = some w₂ := by
    rw [run_append, hbefore]
    exact hsegment
  obtain ⟨lost₁, hok₁, -⟩ := run_worldOk C toAcp hmax (start_worldOk maxSession) hbefore
  obtain ⟨lost₂, hok₂, -⟩ := run_worldOk C toAcp hmax (start_worldOk maxSession) hrun
  have hlog := run_logOk C toAcp hmax (start_worldOk maxSession) hrun hfresh
  refine ⟨?_, fun e x hx => chatOf_of_stepLog C toAcp hx, ?_, hlog.lasting, ?_⟩
  · intro env io sid p rest chatLen text pl r hqueue hcomplete hpl hstate hroom
    have hchat : chatOf w₁ (.update env io) = some (r, chatFields pl chatLen text) := by
      simp only [chatOf, hqueue]
      exact chatRequest_of_complete hcomplete hpl hstate hroom
    exact ⟨hchat, stepLog_of_chat C toAcp hchat⟩
  · intro r a b hmem acceptedA acceptedB
    have hcases : ∀ sid, Always (chatStep C toAcp)
        (fun w => sid ∈ (w.content.rooms r).users) w₁ segment →
        accepted C toAcp r sid w₁ segment = processed C toAcp r w₁ segment ∨
          accepted C toAcp r sid w₁ segment <+: processed C toAcp r w₁ segment ∧
            Left w₂.server sid := fun sid hsid =>
      (accepted_cases hmax hok₁ hsegment hfresh hsid 0).2
    have ha := hcases a fun done hdone u hu => (hmem done hdone u hu).1
    have hb := hcases b fun done hdone u hu => (hmem done hdone u hu).2
    exact prefixes_comparable ha hb
  · intro x hx
    refine ⟨hlog.issued x hx, ?_⟩
    intro hfalse p ok
    exact sendPacket_false_of_left hmax hok₂.server.slots hfresh (hlog.issued x hx)
      (hlog.closed x hx hfalse) p ok

def zeroIo : Nat → SendEnv := fun _ => ⟨List.replicate 12 0, fun _ => true⟩

/-- Two clients enter room 1, and one of them writes there. -/
def firstWords : List ChatEvent :=
  [.net (.accept 7 true true), .net (.accept 8 true true),
    .update zeroEnv zeroIo, .update zeroEnv zeroIo,
    .net (.recvDone 0 ([4, 0] ++ List.replicate 28 0 ++ [2, 0, 1, 0]) true),
    .net (.recvDone 1 ([4, 0] ++ List.replicate 28 0 ++ [2, 0, 1, 0]) true),
    .update zeroEnv zeroIo, .update zeroEnv zeroIo,
    .net (.recvDone 0 ([6, 0] ++ List.replicate 28 0 ++ [4, 0, 2, 0, 104, 105]) true)]

def room1 : Fin maxRoomCount := ⟨0, by decide⟩

/-- Both get the text when the request is handled. -/
theorem chat_in_order_after_firstWords :
    ∃ w₁ w₂, run (chatStep Crypto.none fun _ => []) (World.start 2) firstWords = some w₁ ∧
      run (chatStep Crypto.none fun _ => []) w₁ [.update zeroEnv zeroIo] = some w₂ ∧
      accepted Crypto.none (fun _ => []) room1 (sidOf 0 1) w₁ [.update zeroEnv zeroIo] <+:
        processed Crypto.none (fun _ => []) room1 w₁ [.update zeroEnv zeroIo] ∧
      accepted Crypto.none (fun _ => []) room1 (sidOf 1 1) w₁ [.update zeroEnv zeroIo] ≠ [] := by
  have hfacts : ((run (chatStep Crypto.none fun _ => []) (World.start 2) firstWords).bind
      fun w₁ => (run (chatStep Crypto.none fun _ => []) w₁ [.update zeroEnv zeroIo]).map
        fun w₂ => decide ((sidOf 0 1 ∈ (w₁.content.rooms room1).users ∧
            sidOf 1 1 ∈ (w₁.content.rooms room1).users) ∧
          (sidOf 0 1 ∈ (w₂.content.rooms room1).users ∧
            sidOf 1 1 ∈ (w₂.content.rooms room1).users) ∧
          w₂.server.calls.length < 2 ^ 31 ∧
          accepted Crypto.none (fun _ => []) room1 (sidOf 1 1) w₁
            [.update zeroEnv zeroIo] ≠ [])) = some true := by
    decide +kernel
  obtain ⟨w₁, hbefore, hrest⟩ := Option.bind_eq_some_iff.mp hfacts
  obtain ⟨w₂, hsegment, hw⟩ := Option.map_eq_some_iff.mp hrest
  obtain ⟨hfirst, hlast, hcalls, hsome⟩ := of_decide_eq_true hw
  have hordered := chat_in_order Crypto.none (fun _ => []) (by decide) hbefore hsegment
    (fun idx => lt_of_le_of_lt (timesUsed_le w₂.server idx) hcalls)
  refine ⟨w₁, w₂, hbefore, hsegment, ?_, hsome⟩
  refine (hordered.2.2.1 room1 (sidOf 0 1) (sidOf 1 1) ?_).1
  intro done hdone u hu
  rcases List.prefix_cons_iff.mp hdone with rfl | ⟨rest, rfl, hnil⟩
  · have hw : w₁ = u := by simpa using hu
    exact hw ▸ hfirst
  · have hnil : rest = [] := by simpa using hnil
    rw [hnil] at hu
    exact Option.some.inj (hsegment.symm.trans hu) ▸ hlast

end IocpChat.ChatOrder
