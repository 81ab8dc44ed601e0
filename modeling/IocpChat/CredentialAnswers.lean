import IocpChat.ChatOrder
import IocpChat.SessionCounts

namespace IocpChat.CredentialAnswers

open IocpChat.Protocol
open IocpChat.PacketBuffer
open IocpChat.RingWindow
open IocpChat.LanServer
open IocpChat.SlotInvariant
open IocpChat.SlotSteps
open IocpChat.SlotLifecycle
open IocpChat.MessageOrigin
open IocpChat.ContentHandlers
open IocpChat.ChatRuns
open IocpChat.PacketLifetimes
open IocpChat.ContentSteps
open IocpChat.ServerOutline
open IocpChat.SessionBooks
open IocpChat.SessionCounts
open IocpChat.SendResults
open IocpChat.ChatOrder
open IocpChat.LabelledRun

/-- The login or sign-up that `Handle_Recv` finds in a packet. -/
def credential (env : Env) (pkt : CPacket) : Option DBJobType :=
  if (pkt.readWord env.type).1 = PacketType.csLoginReq.code then some .login
  else if (pkt.readWord env.type).1 = PacketType.csSignupReq.code then some .signUp
  else none

/-- The one that a packet answers. -/
def answerOf (fields : List (List UInt8)) : Option DBJobType :=
  if fields.head? = some (wordBytes PacketType.scLoginRes.code) then some .login
  else if fields.head? = some (wordBytes PacketType.scSignupRes.code) then some .signUp
  else none

/-- What a step takes from the content queue as a login or sign-up of a session. -/
def asks (w : World) (sid : SessionID) : ChatEvent → List DBJobType
  | .update env _ =>
      match w.server.contentQ with
      | .recv other p :: _ =>
          if other = sid then (credential env (w.server.packets p)).toList else []
      | _ => []
  | _ => []

/-- What is answered to a session by calls of `SendPacket`. -/
def answers (sid : SessionID) (log : List SendCall) : List DBJobType :=
  log.filterMap fun x => if x.sid = sid then answerOf x.fields else none

/-- The logins and sign-ups of a session that a run handles. -/
def askedLog (C : Crypto) (toAcp : List UInt16 → List UInt8) (sid : SessionID) :
    World → List ChatEvent → List DBJobType
  | _, [] => []
  | w, e :: es =>
      match chatStep C toAcp w e with
      | none => []
      | some next => asks w sid e ++ askedLog C toAcp sid next es

/-- The jobs of a session that the DB worker has not answered yet. -/
def waitingJobs (sid : SessionID) (jobs : List DBJob) : List DBJobType :=
  jobs.filterMap fun job => if job.sid = sid then some job.type else none

theorem answers_append (sid : SessionID) (log more : List SendCall) :
    answers sid (log ++ more) = answers sid log ++ answers sid more := List.filterMap_append

theorem waitingJobs_append (sid : SessionID) (jobs more : List DBJob) :
    waitingJobs sid (jobs ++ more) = waitingJobs sid jobs ++ waitingJobs sid more :=
  List.filterMap_append

section Handlers

variable {env : Env} {c : Content} {sid : SessionID} {pkt : CPacket}

theorem handleRoomEnter_noJob {job : DBJob} :
    Effect.pushJob job ∉ (handleRoomEnter env c sid pkt).2 := by
  simp only [handleRoomEnter]
  split
  · simp
  · split
    · simp
    · split
      · simp
      · split
        · simp
        · simp

theorem handleRoomLeave_noJob {job : DBJob} :
    Effect.pushJob job ∉ (handleRoomLeave env c sid).2 := by
  simp only [handleRoomLeave]
  split
  · simp
  · split
    · simp
    · split
      · simp
      · simp

theorem handleChat_noJob {job : DBJob} :
    Effect.pushJob job ∉ (handleChat env c sid pkt).2 := by
  simp only [handleChat]
  split
  · simp
  · split
    · simp
    · split
      · simp
      · split
        · simp
        · simp

theorem handleChat_fields {fields : List (List UInt8)} {targets : List SessionID}
    (h : Effect.send fields targets ∈ (handleChat env c sid pkt).2) : answerOf fields = none := by
  simp only [handleChat] at h
  split at h
  · simp at h
  · split at h
    · simp at h
    · split at h
      · simp at h
      · split at h
        · simp at h
        · obtain ⟨rfl, -⟩ := Effect.send.inj (List.mem_singleton.mp h)
          rfl

theorem handleRecv_of_credential {t : DBJobType} (h : credential env pkt = some t) {pl : CPlayer}
    (hpl : c.players.lookup sid = some pl) :
    ∃ job : DBJob, (handleRecv env c sid pkt).2 = [.pushJob job] ∧ job.sid = sid ∧
      job.type = t := by
  simp only [credential] at h
  split at h
  · rename_i htype
    obtain rfl := Option.some.inj h
    simp only [handleRecv, htype, if_true, handleLogin, hpl]
    exact ⟨_, rfl, rfl, rfl⟩
  · split at h
    · rename_i hlogin htype
      obtain rfl := Option.some.inj h
      simp only [handleRecv, htype]
      rw [if_neg (by decide), if_pos trivial]
      simp only [handleSignUp, hpl]
      exact ⟨_, rfl, rfl, rfl⟩
    · cases h

theorem handleRecv_effects (hother : credential env pkt = none ∨ c.players.lookup sid = none)
    {effect : Effect} (heffect : effect ∈ (handleRecv env c sid pkt).2) :
    ∃ fields targets, effect = .send fields targets ∧ answerOf fields = none := by
  have hlobby {fields : List (List UInt8)} {targets : List SessionID} {pkt' : CPacket}
      (h : Effect.send fields targets ∈ (handleRoomEnter env c sid pkt').2) :
      answerOf fields = none := by
    rcases fields_of_handleRoomEnter h with ⟨no, rfl⟩ | ⟨pl, rfl⟩
    · rfl
    · rfl
  rcases hother with hnone | hgone
  · cases dispatch env sid pkt with
    | login htype => simp [credential, htype] at hnone
    | signUp htype =>
        rw [credential, htype] at hnone
        exact absurd hnone (by decide)
    | roomEnter htype h =>
        rw [h] at heffect
        cases effect with
        | pushJob job => exact absurd heffect handleRoomEnter_noJob
        | send fields targets => exact ⟨fields, targets, rfl, hlobby heffect⟩
    | roomLeave htype h =>
        rw [h] at heffect
        cases effect with
        | pushJob job => exact absurd heffect handleRoomLeave_noJob
        | send fields targets =>
            obtain ⟨pl, rfl⟩ := fields_of_handleRoomLeave heffect
            exact ⟨_, targets, rfl, rfl⟩
    | chat htype h =>
        rw [h] at heffect
        cases effect with
        | pushJob job => exact absurd heffect handleChat_noJob
        | send fields targets => exact ⟨fields, targets, rfl, handleChat_fields heffect⟩
    | unknown _ _ h =>
        rw [h] at heffect
        simp at heffect
  · rw [handleRecv_of_departed env hgone] at heffect
    simp at heffect

theorem handleDbResult_effects (toAcp : List UInt16 → List UInt8) (c : Content) (r : DBResult) :
    (r.sid ∉ c.players ∧ (handleDbResult toAcp c r).2 = []) ∨
      (r.sid ∈ c.players ∧ ∃ fields, (handleDbResult toAcp c r).2 = [.send fields [r.sid]] ∧
        answerOf fields = some r.type) := by
  simp only [handleDbResult]
  rcases hpl : c.players.lookup r.sid with _ | pl
  · exact .inl ⟨AList.lookup_eq_none.mp hpl, rfl⟩
  · refine .inr ⟨AList.lookup_isSome.mp (by rw [hpl]; rfl), ?_⟩
    rcases htype : r.type with _ | _
    · exact ⟨_, rfl, rfl⟩
    · exact ⟨_, rfl, rfl⟩

end Handlers

/-- No join or leave message of the session has been handled. -/
def Early (o : Outline) (sid : SessionID) : Prop := notices o.calls sid = waiting o.contentQ sid

/-- Every session was announced before its requests: no join stands behind a request of its
session. -/
structure Announced (o : Outline) : Prop where
  joined : ∀ idx sid, .initSession idx sid ∈ o.calls → .onClientJoin idx sid ∈ o.calls
  behind : o.contentQ.Pairwise fun m m' => ∀ sid p, m = .recv sid p → m' ≠ .join sid

section Queue

variable {o o' : Outline} {idx max : Nat} {sid : SessionID} {m : Message} {rest : List Message}

theorem early_append {c : Call} (hsame : told sid c = tells sid m) (calls : List Call)
    (queue : List Message) :
    notices (calls ++ [c]) sid = waiting (queue ++ [m]) sid ↔
      notices calls sid = waiting queue sid := by
  have hnew : notices [c] sid = waiting [m] sid := by
    simp only [notices, waiting, List.filterMap_cons, List.filterMap_nil, hsame]
  rw [notices_append, waiting_append, hnew, List.append_cancel_right_eq]

theorem early_touches (h : Touches idx o o') : Early o' sid ↔ Early o sid := by
  refine h.keeps (P := fun t => Early t sid ↔ Early o sid) Iff.rfl ?_ ?_ ?_
  · intro t p ht
    have hnone : waiting [.recv (t.sid idx) p] sid = [] := rfl
    rw [← ht, Early, Outline.receive, waiting_append, hnone, List.append_nil]
    exact Iff.rfl
  · intro t ht
    have hnone : notices [.releaseSession idx] sid = [] := rfl
    rw [← ht, Early, Outline.free, notices_append, hnone, List.append_nil]
    exact Iff.rfl
  · intro t ht _
    rw [← ht]
    exact early_append rfl t.calls t.contentQ

theorem early_init (o : Outline) (idx : Nat) (sid : SessionID) :
    Early (o.init idx) sid ↔ Early o sid := by
  have hnone : notices [.initSession idx (sessionId idx (o.generation idx + 1))] sid = [] := rfl
  rw [Early, Outline.init, notices_append, hnone, List.append_nil]
  exact Iff.rfl

theorem early_join (o : Outline) (idx : Nat) (sid : SessionID) :
    Early (o.join idx) sid ↔ Early o sid :=
  early_append rfl o.calls o.contentQ

theorem early_survives (E : Prop) : Survives max fun o => Early o sid ↔ E := by
  intro sv held idx o _ _ _ htouched h
  rw [early_touches htouched]
  exact h

theorem early_pop_of_none (hqueue : o.contentQ = m :: rest) (hm : tells sid m = none) :
    Early { o with contentQ := rest } sid ↔ Early o sid := by
  rw [Early, Early, hqueue, Books.waiting_cons_of_none hm]

theorem not_early_pop {players : AList fun _ : SessionID => CPlayer}
    (hbooks : Books o max players) (hqueue : o.contentQ = m :: rest) {n : Notice}
    (hm : tells sid m = some n) : ¬ Early { o with contentQ := rest } sid := by
  intro hearly
  obtain ⟨done, hdone, -⟩ := hbooks.handled sid
  rw [hqueue, Books.waiting_cons_of_some hm] at hdone
  have hlength := congrArg List.length (hdone.symm.trans hearly)
  simp only [List.length_append, List.length_cons] at hlength
  omega

theorem early_of_join {players : AList fun _ : SessionID => CPlayer}
    (hbooks : Books o max players) (hqueue : o.contentQ = .join sid :: rest) : Early o sid := by
  obtain ⟨done, hdone, -⟩ := hbooks.handled sid
  have hself : tells sid (.join sid) = some .join := by simp [tells]
  have hnil : done = [] := by
    rw [hqueue, Books.waiting_cons_of_some hself] at hdone
    exact done_of_join (hdone ▸ hbooks.ordered sid)
  rw [Early, hdone, hnil, List.nil_append]

theorem not_early_of_recv (h : Announced o) {p : PacketRef}
    (hqueue : o.contentQ = .recv sid p :: rest) (hissued : ∃ i, .initSession i sid ∈ o.calls) :
    ¬ Early o sid := by
  intro hearly
  obtain ⟨i, hinit⟩ := hissued
  have hjoin : Notice.join ∈ notices o.calls sid :=
    List.mem_filterMap.mpr ⟨_, h.joined i sid hinit, by simp [told]⟩
  have hnone : Notice.join ∉ waiting rest sid := by
    intro hmem
    obtain ⟨m, hm, hjoin⟩ := List.mem_filterMap.mp hmem
    have hbehind := h.behind
    rw [hqueue, List.pairwise_cons] at hbehind
    cases m with
    | join other =>
        have hsid : other = sid := by simpa [tells] using hjoin
        exact hbehind.1 _ hm sid p rfl (congrArg Message.join hsid)
    | leave other => simp [tells] at hjoin
    | recv other q => simp [tells] at hjoin
  rw [hearly, hqueue, Books.waiting_cons_of_none rfl] at hjoin
  exact hnone hjoin

theorem Announced.pop (h : Announced o) (hqueue : o.contentQ = m :: rest) :
    Announced { o with contentQ := rest } := by
  refine ⟨h.joined, ?_⟩
  have hbehind := h.behind
  rw [hqueue, List.pairwise_cons] at hbehind
  exact hbehind.2

theorem pairwise_push (h : o.contentQ.Pairwise fun m m' => ∀ sid p, m = .recv sid p →
      m' ≠ .join sid) (hm : ∀ sid p, .recv sid p ∈ o.contentQ → m ≠ .join sid) :
    (o.contentQ ++ [m]).Pairwise fun m m' => ∀ sid p, m = .recv sid p → m' ≠ .join sid := by
  refine List.pairwise_append.mpr ⟨h, List.pairwise_singleton _ _, ?_⟩
  rintro m₁ hm₁ m₂ hm₂ sid p rfl
  rw [List.mem_singleton.mp hm₂]
  exact hm sid p hm₁

theorem Announced.touched (h : Announced o) (htouched : Touches idx o o') : Announced o' := by
  refine htouched.keeps h ?_ ?_ ?_
  · intro t p ht
    exact ⟨ht.joined, pairwise_push ht.behind (by simp)⟩
  · intro t ht
    refine ⟨?_, ht.behind⟩
    intro i sid hinit
    simp only [Outline.free, List.mem_append, List.mem_singleton, reduceCtorEq, or_false]
      at hinit ⊢
    exact ht.joined i sid hinit
  · intro t ht _
    refine ⟨?_, pairwise_push ht.behind (by simp)⟩
    intro i sid hinit
    simp only [Outline.close, List.mem_append, List.mem_singleton, reduceCtorEq, or_false]
      at hinit ⊢
    exact ht.joined i sid hinit

theorem announced_survives (max : Nat) : Survives max Announced := by
  intro sv held idx o _ _ _ htouched h
  exact h.touched htouched

theorem Announced.opened (h : Announced o)
    (hnew : ∀ p, .recv (sessionId idx (o.generation idx + 1)) p ∉ o.contentQ) :
    Announced ((o.init idx).join idx) := by
  have hsid : (o.init idx).sid idx = sessionId idx (o.generation idx + 1) := by
    simp [Outline.init]
  refine ⟨?_, ?_⟩
  · intro i sid hinit
    simp only [Outline.join, Outline.init, List.mem_append, List.mem_singleton, reduceCtorEq,
      or_false, Call.initSession.injEq] at hinit
    simp only [Outline.join, Outline.init, Function.update_self, List.mem_append,
      List.mem_singleton, reduceCtorEq, or_false, Call.onClientJoin.injEq]
    rcases hinit with hold | hnow
    · exact .inl (h.joined i sid hold)
    · exact .inr hnow
  · refine pairwise_push (o := o.init idx) h.behind ?_
    rw [hsid]
    rintro sid p hmem heq
    rw [← Message.join.inj heq] at hmem
    exact hnew p hmem

end Queue

section Effects

variable {C : Crypto} {io : Nat → SendEnv} {es : List Effect} {sv : Server} {jobs : List DBJob}

theorem performAll_noJob {P : List (List UInt8) → Prop}
    (h : ∀ e, e ∈ es → ∃ fields targets, e = .send fields targets ∧ P fields) :
    (performAll C io es sv jobs).2 = jobs := by
  induction es generalizing io sv with
  | nil => rfl
  | cons e es ih =>
      obtain ⟨fields, targets, rfl, -⟩ := h e List.mem_cons_self
      exact ih fun e he => h e (List.mem_cons_of_mem _ he)

theorem answers_noAnswer
    (h : ∀ e, e ∈ es → ∃ fields targets, e = .send fields targets ∧ answerOf fields = none)
    (sid : SessionID) : answers sid (performAllLog C io es sv jobs) = [] := by
  refine List.filterMap_eq_nil_iff.mpr ?_
  intro x hx
  obtain ⟨targets, hmem⟩ := mem_performAllLog C hx
  obtain ⟨fields, targets', heq, hnone⟩ := h _ hmem
  rw [(Effect.send.inj heq).1, hnone, ite_self]

theorem answers_single {fields : List (List UInt8)} {other : SessionID} {t : DBJobType}
    (h : answerOf fields = some t) (sid : SessionID) :
    answers sid (performAllLog C io [.send fields [other]] sv jobs) =
      if other = sid then [t] else [] := by
  simp only [performAllLog, performLog, sendAllLog, List.append_nil, answers,
    List.filterMap_cons, List.filterMap_nil, h]
  split
  · rename_i hnone
    split at hnone
    · cases hnone
    · rename_i hne
      rw [if_neg hne]
  · rename_i hsome
    split at hsome
    · rename_i heq
      rw [if_pos heq, ← Option.some.inj hsome]
    · cases hsome

end Effects

/-- What the update thread has taken as logins and sign-ups of a session, against what it has
answered and what the DB worker still has to do. -/
structure Answered (w : World) (asked answered : SessionID → List DBJobType) : Prop where
  early : ∀ sid, Early (outline w.server) sid →
    asked sid = [] ∧ answered sid = [] ∧ waitingJobs sid w.jobs = []
  player : ∀ sid, sid ∈ w.content.players →
    asked sid = answered sid ++ waitingJobs sid w.jobs
  first : ∀ sid, answered sid <+: asked sid

section Steps

variable {w w' : World} {max : Nat} {lost : Multiset PacketRef}
  {asked answered : SessionID → List DBJobType}

theorem start_answered (maxSession : Nat) :
    Answered (World.start maxSession) (fun _ => []) fun _ => [] :=
  ⟨fun _ _ => ⟨rfl, rfl, rfl⟩, fun _ _ => rfl, fun _ => List.nil_prefix⟩

theorem start_announced (maxSession : Nat) : Announced (outline (Server.start maxSession)) := by
  refine ⟨?_, .nil⟩
  intro idx sid hinit
  cases hinit

theorem Answered.congr (h : Answered w asked answered)
    (hearly : ∀ sid, Early (outline w'.server) sid → Early (outline w.server) sid)
    (hplayers : ∀ sid, sid ∈ w'.content.players →
      sid ∈ w.content.players ∨ Early (outline w.server) sid)
    (hjobs : w'.jobs = w.jobs) : Answered w' asked answered := by
  refine ⟨?_, ?_, h.first⟩
  · intro sid hsid
    rw [hjobs]
    exact h.early sid (hearly sid hsid)
  · intro sid hsid
    rw [hjobs]
    rcases hplayers sid hsid with hmem | hfresh
    · exact h.player sid hmem
    · obtain ⟨hasked, hanswered, hwaiting⟩ := h.early sid hfresh
      rw [hasked, hanswered, hwaiting, List.append_nil]

theorem Answered.ask (h : Answered w asked answered) {sid : SessionID} {t : DBJobType}
    {jobs : List DBJob} (hjobs : ∀ other, waitingJobs other w'.jobs =
      waitingJobs other w.jobs ++ waitingJobs other jobs)
    (hown : sid ∈ w.content.players → waitingJobs sid jobs = [t])
    (hother : ∀ other, other ≠ sid → waitingJobs other jobs = [])
    (hlate : ¬ Early (outline w.server) sid)
    (hearly : ∀ other, Early (outline w'.server) other → Early (outline w.server) other)
    (hplayers : ∀ other, other ∈ w'.content.players → other ∈ w.content.players) :
    Answered w' (fun other => asked other ++ if sid = other then [t] else []) answered := by
  refine ⟨?_, ?_, ?_⟩
  · intro other hsid
    have hne : other ≠ sid := by
      rintro rfl
      exact hlate (hearly other hsid)
    obtain ⟨hasked, hanswered, hwaiting⟩ := h.early other (hearly other hsid)
    rw [hasked, hjobs, hwaiting, hother other hne, if_neg hne.symm]
    exact ⟨rfl, hanswered, rfl⟩
  · intro other hmem
    have hold := h.player other (hplayers other hmem)
    rcases eq_or_ne other sid with rfl | hne
    · rw [hjobs, hown (hplayers other hmem), hold, if_pos rfl, List.append_assoc]
    · rw [hjobs, hother other hne, hold, if_neg hne.symm, List.append_nil, List.append_nil]
  · intro other
    exact (h.first other).trans (List.prefix_append _ _)

theorem Answered.answer (h : Answered w asked answered) {job : DBJob}
    (hqueue : w.jobs = job :: w'.jobs) {news : SessionID → List DBJobType}
    (hnews : ∀ sid, news sid = if job.sid = sid ∧ sid ∈ w.content.players then [job.type] else [])
    (hearly : ∀ sid, Early (outline w'.server) sid → Early (outline w.server) sid)
    (hplayers : ∀ sid, sid ∈ w'.content.players → sid ∈ w.content.players) :
    Answered w' asked fun sid => answered sid ++ news sid := by
  have hwaiting (sid : SessionID) : waitingJobs sid w.jobs =
      (if job.sid = sid then [job.type] else []) ++ waitingJobs sid w'.jobs := by
    rw [hqueue, ← List.singleton_append, waitingJobs_append]
    congr 1
    simp only [waitingJobs, List.filterMap_cons, List.filterMap_nil]
    split
    · rename_i hnone
      split at hnone
      · cases hnone
      · rename_i hne
        rw [if_neg hne]
    · rename_i hsome
      split at hsome
      · rename_i heq
        rw [if_pos heq, ← Option.some.inj hsome]
      · cases hsome
  refine ⟨?_, ?_, ?_⟩
  · intro sid hsid
    obtain ⟨hasked, hanswered, hnone⟩ := h.early sid (hearly sid hsid)
    rw [hwaiting, List.append_eq_nil_iff] at hnone
    have hne : job.sid ≠ sid := by
      rintro rfl
      simp at hnone
    rw [hanswered, hnews, if_neg fun hboth => hne hboth.1]
    exact ⟨hasked, rfl, hnone.2⟩
  · intro sid hmem
    have hold := h.player sid (hplayers sid hmem)
    rw [hwaiting] at hold
    rw [hold, hnews, List.append_assoc]
    rcases eq_or_ne job.sid sid with heq | hne
    · rw [if_pos heq, if_pos ⟨heq, hplayers sid hmem⟩]
    · rw [if_neg hne, if_neg fun hboth => hne hboth.1]
  · intro sid
    rw [hnews]
    split
    · rename_i hboth
      rw [h.player sid hboth.2, hwaiting, if_pos hboth.1, ← List.append_assoc]
      exact List.prefix_append _ _
    · rw [List.append_nil]
      exact h.first sid

theorem finishHandler_early (C : Crypto) (toAcp : List UInt16 → List UInt8) (hmax : max ≤ 65536)
    (hworld : WorldOk w max lost) {e : ChatEvent} {hd : Handler}
    (hstart : startHandler toAcp w e = some hd) (io : Nat → SendEnv) (sid : SessionID) :
    Early (outline (finishHandler C io hd).server) sid ↔ Early (outline hd.server) sid := by
  obtain ⟨hserver, -, heffects, hjobs⟩ := startHandler_ok toAcp hworld hstart
  exact finishHandler_survives (early_survives (Early (outline hd.server) sid)) hmax C io hserver
    heffects hjobs Iff.rfl

theorem finishHandler_announced (C : Crypto) (toAcp : List UInt16 → List UInt8)
    (hmax : max ≤ 65536) (hworld : WorldOk w max lost) {e : ChatEvent} {hd : Handler}
    (hstart : startHandler toAcp w e = some hd) (io : Nat → SendEnv)
    (h : Announced (outline w.server)) : Announced (outline (finishHandler C io hd).server) := by
  obtain ⟨hserver, -, heffects, hjobs⟩ := startHandler_ok toAcp hworld hstart
  refine finishHandler_survives (announced_survives max) hmax C io hserver heffects hjobs ?_
  cases e with
  | net e => cases hstart
  | update env io =>
      simp only [startHandler] at hstart
      split at hstart
      · cases hstart
      all_goals
        rename_i hqueue
        obtain rfl := Option.some.inj hstart
        exact h.pop (o := outline w.server) hqueue
  | dbResult result userNo nickname io =>
      simp only [startHandler] at hstart
      split at hstart
      · cases hstart
      · obtain rfl := Option.some.inj hstart
        exact h

theorem mem_of_keys {c c' : Content} (h : c'.players.keys.Perm c.players.keys) (sid : SessionID) :
    sid ∈ c'.players ↔ sid ∈ c.players := by
  rw [AList.mem_keys, AList.mem_keys]
  exact h.mem_iff

theorem early_of_pop (hbooks : Books (outline w.server) max w.content.players) {m : Message}
    {rest : List Message} (hqueue : w.server.contentQ = m :: rest) {sid : SessionID}
    (hsid : Early { outline w.server with contentQ := rest } sid) :
    Early (outline w.server) sid := by
  rcases htells : tells sid m with _ | n
  · exact (early_pop_of_none (o := outline w.server) hqueue htells).mp hsid
  · exact absurd hsid (not_early_pop hbooks hqueue htells)

theorem recv_answered {C : Crypto} {io : Nat → SendEnv} (hworld : WorldOk w max lost)
    (hannounced : Announced (outline w.server)) (h : Answered w asked answered) {env : Env}
    {other : SessionID} {p : PacketRef} {rest : List Message}
    (hqueue : w.server.contentQ = .recv other p :: rest)
    {out : Content × List Effect} (hout : handleRecv env w.content other (w.server.packets p) = out)
    (hcontent : w'.content = out.1)
    (hjobs : w'.jobs = (performAll C io out.2 { w.server with contentQ := rest } w.jobs).2)
    (hearly : ∀ sid, Early (outline w'.server) sid → Early (outline w.server) sid) :
    Answered w' (fun sid => asked sid ++ asks w sid (.update env io)) fun sid => answered sid ++
      answers sid (performAllLog C io out.2 { w.server with contentQ := rest } w.jobs) := by
  have hplayers (sid : SessionID) : sid ∈ w'.content.players → sid ∈ w.content.players := by
    rw [hcontent, ← hout]
    exact (mem_of_keys (keys_of_outcome (handleRecv_outcome env w.content other
      (w.server.packets p)) (by simp) (by simp)) sid).mp
  have hquiet (hnone : credential env (w.server.packets p) = none ∨
      w.content.players.lookup other = none) (e : Effect) (he : e ∈ out.2) :
      ∃ fields targets, e = .send fields targets ∧ answerOf fields = none :=
    handleRecv_effects hnone (hout ▸ he)
  simp only [asks, hqueue]
  rcases hcredential : credential env (w.server.packets p) with _ | t
  · -- nothing is asked for
    have hnone := hquiet (.inl hcredential)
    simp only [answers_noAnswer hnone, Option.toList_none, ite_self, List.append_nil]
    exact h.congr hearly (fun sid hmem => .inl (hplayers sid hmem))
      (hjobs.trans (performAll_noJob hnone))
  · have hlate : ¬ Early (outline w.server) other := by
      obtain ⟨i, hinit⟩ := init_of_issued
        (hworld.server.messages (.recv other p) (by simp [hqueue]))
      exact not_early_of_recv hannounced hqueue ⟨i, (mem_view_calls _ _ _).mp hinit⟩
    simp only [Option.toList_some]
    rcases hpl : w.content.players.lookup other with _ | pl
    · -- its client has left
      have hnone := hquiet (.inr hpl)
      simp only [answers_noAnswer hnone, List.append_nil]
      have hsame (sid : SessionID) : waitingJobs sid w'.jobs =
          waitingJobs sid w.jobs ++ waitingJobs sid [] := by
        rw [hjobs, performAll_noJob hnone]
        exact (List.append_nil _).symm
      refine h.ask hsame ?_ (fun _ _ => rfl) hlate hearly hplayers
      intro hmem
      exact absurd hmem (AList.lookup_eq_none.mp hpl)
    · obtain ⟨job, heffects, hsid, htype⟩ := handleRecv_of_credential hcredential hpl
      rw [hout] at heffects
      simp only [heffects, performAllLog, performLog, List.append_nil, answers,
        List.filterMap_nil]
      have hmore (sid : SessionID) : waitingJobs sid w'.jobs =
          waitingJobs sid w.jobs ++ waitingJobs sid [job] := by
        rw [hjobs, heffects]
        exact waitingJobs_append sid w.jobs [job]
      refine h.ask hmore ?_ ?_ hlate hearly hplayers
      · intro _
        simp [waitingJobs, hsid, htype]
      · intro sid hne
        simp [waitingJobs, hsid, hne.symm]

theorem update_answered (C : Crypto) (toAcp : List UInt16 → List UInt8) (hmax : max ≤ 65536)
    (hworld : WorldOk w max lost) (hbooks : Books (outline w.server) max w.content.players)
    (hannounced : Announced (outline w.server)) (h : Answered w asked answered) {env : Env}
    {io : Nat → SendEnv} (hstep : chatStep C toAcp w (.update env io) = some w') :
    Answered w' (fun sid => asked sid ++ asks w sid (.update env io))
      fun sid => answered sid ++ answers sid (stepLog C toAcp w (.update env io)) := by
  obtain ⟨hd, hstart, rfl⟩ := Option.map_eq_some_iff.mp hstep
  have hearly := finishHandler_early C toAcp hmax hworld hstart io
  rcases hqueue : w.server.contentQ with _ | ⟨m, rest⟩
  · simp [startHandler, hqueue] at hstart
  cases m with
  | join other =>
      simp only [startHandler, hqueue, Option.some.injEq] at hstart
      subst hstart
      simp only [asks, hqueue, stepLog, startHandler, performAllLog, answers, List.filterMap_nil,
        List.append_nil]
      refine h.congr (fun sid hsid => early_of_pop hbooks hqueue ((hearly sid).mp hsid)) ?_ rfl
      intro sid hmem
      obtain ⟨habsent, -⟩ := hbooks.popJoin hqueue
      simp only [finishHandler, handleJoin, AList.lookup_eq_none.mpr habsent,
        AList.mem_insert] at hmem
      rcases hmem with rfl | hmem
      · exact .inr (early_of_join hbooks hqueue)
      · exact .inl hmem
  | leave other =>
      simp only [startHandler, hqueue, Option.some.injEq] at hstart
      subst hstart
      simp only [asks, hqueue, stepLog, startHandler, performAllLog, answers, List.filterMap_nil,
        List.append_nil]
      refine h.congr (fun sid hsid => early_of_pop hbooks hqueue ((hearly sid).mp hsid)) ?_ rfl
      intro sid hmem
      obtain ⟨hpresent, -⟩ := hbooks.popLeave hqueue
      obtain ⟨pl, hpl⟩ := Option.isSome_iff_exists.mp (AList.lookup_isSome.mpr hpresent)
      simp only [finishHandler, handleLeave, hpl, AList.mem_erase] at hmem
      exact .inl hmem.2
  | recv other p =>
      simp only [startHandler, hqueue, Option.some.injEq] at hstart
      subst hstart
      simp only [stepLog, startHandler, hqueue]
      exact recv_answered hworld hannounced h hqueue rfl rfl rfl
        fun sid hsid => early_of_pop hbooks hqueue ((hearly sid).mp hsid)

theorem dbResult_answered (C : Crypto) (toAcp : List UInt16 → List UInt8) (hmax : max ≤ 65536)
    (hworld : WorldOk w max lost) (h : Answered w asked answered) {result : Int}
    {userNo : BitVec 32} {nickname : Nat → UInt16} {io : Nat → SendEnv}
    (hstep : chatStep C toAcp w (.dbResult result userNo nickname io) = some w') :
    Answered w' asked fun sid =>
      answered sid ++ answers sid (stepLog C toAcp w (.dbResult result userNo nickname io)) := by
  obtain ⟨hd, hstart, rfl⟩ := Option.map_eq_some_iff.mp hstep
  have hearly := finishHandler_early C toAcp hmax hworld hstart io
  rcases hqueue : w.jobs with _ | ⟨job, rest⟩
  · simp [startHandler, hqueue] at hstart
  simp only [startHandler, hqueue, Option.some.injEq] at hstart
  subst hstart
  simp only [stepLog, startHandler, hqueue]
  set r : DBResult := { type := job.type, sid := job.sid, result, userNo, nickname }
  have hplayers (sid : SessionID) : sid ∈ (handleDbResult toAcp w.content r).1.players →
      sid ∈ w.content.players :=
    (mem_of_keys (keys_of_outcome (handleDbResult_outcome toAcp w.content r) (by simp)
      (by simp)) sid).mp
  have hjobs : (performAll C io (handleDbResult toAcp w.content r).2 w.server rest).2 = rest := by
    refine performAll_noJob (P := fun _ => True) ?_
    intro e he
    rcases handleDbResult_effects toAcp w.content r with ⟨-, hnone⟩ | ⟨-, fields, hsend, -⟩
    · rw [hnone] at he
      cases he
    · rw [hsend] at he
      exact ⟨fields, [r.sid], List.mem_singleton.mp he, trivial⟩
  have hfirst : w.jobs = job :: (performAll C io (handleDbResult toAcp w.content r).2
      w.server rest).2 := by rw [hqueue, hjobs]
  refine h.answer hfirst ?_ (fun sid hsid => (hearly sid).mp hsid) hplayers
  intro sid
  rcases handleDbResult_effects toAcp w.content r with
    ⟨hgone, hnone⟩ | ⟨hthere, fields, hsend, hanswer⟩
  · rw [hnone, if_neg]
    · rfl
    · rintro ⟨rfl, hmem⟩
      exact hgone hmem
  · rw [hsend, answers_single hanswer]
    refine if_congr ?_ rfl rfl
    constructor
    · rintro rfl
      exact ⟨rfl, hthere⟩
    · rintro ⟨heq, -⟩
      exact heq

theorem netStep_early (C : Crypto) (hmax : max ≤ 65536) {sv sv' : Server}
    (hslots : SlotsOk sv max 0 0) {e : NetEvent} (hstep : netStep C sv e = some sv')
    (sid : SessionID) : Early (outline sv') sid ↔ Early (outline sv) sid := by
  rcases Classical.em (∃ sock registered accepted, e = .accept sock registered accepted) with
    haccept | hother
  · obtain ⟨sock, registered, accepted, rfl⟩ := haccept
    obtain rfl := Option.some.inj hstep
    rcases acceptOne_cases sv sock registered accepted with ⟨-, heq⟩ | ⟨idx, rest, -, htouched⟩
    · rw [heq]
    · rw [early_touches htouched]
      split
      · rw [early_join, early_init]
      · rw [early_init]
  · have hnot : ∀ sock r a, e ≠ .accept sock r a := fun sock r a heq => hother ⟨sock, r, a, heq⟩
    rcases netStep_touches C hslots (.inl hmax) hstep hnot with heq | ⟨idx, -, -, htouched⟩
    · rw [heq]
    · exact early_touches htouched

theorem chatStep_answered (C : Crypto) (toAcp : List UInt16 → List UInt8) (hmax : max ≤ 65536)
    (hworld : WorldOk w max lost) (hbooks : Books (outline w.server) max w.content.players)
    (hannounced : Announced (outline w.server)) (h : Answered w asked answered) {e : ChatEvent}
    (hstep : chatStep C toAcp w e = some w') :
    Answered w' (fun sid => asked sid ++ asks w sid e)
      fun sid => answered sid ++ answers sid (stepLog C toAcp w e) := by
  cases e with
  | net e =>
      obtain ⟨-, sv, hnet, rfl⟩ := chatStep_net hstep
      simp only [asks, stepLog, startHandler, answers, List.filterMap_nil, List.append_nil]
      exact h.congr (fun sid hsid => (netStep_early C hmax hworld.server.slots hnet sid).mp hsid)
        (fun sid hmem => .inl hmem) rfl
  | update env io => exact update_answered C toAcp hmax hworld hbooks hannounced h hstep
  | dbResult result userNo nickname io =>
      simp only [asks, List.append_nil]
      exact dbResult_answered C toAcp hmax hworld h hstep

theorem acceptOne_announced {sv : Server} {held : Multiset PacketRef} (hmax : max ≤ 65536)
    (hserver : ServerOk sv max held) (hworn : Unworn (outline sv)) (h : Announced (outline sv))
    {sock : Nat} {registered accepted : Bool}
    (hsafe : ∀ idx, sv.indexPool.head? = some idx →
      registered = true ∧ timesUsed sv idx + 1 < 2 ^ 31) :
    Announced (outline (sv.acceptOne sock registered accepted)) := by
  rcases acceptOne_cases sv sock registered accepted with ⟨-, heq⟩ | ⟨idx, rest, hpool, htouched⟩
  · rw [heq]
    exact h
  · obtain ⟨hregistered, hroom⟩ := hsafe idx (by simp [hpool])
    rw [if_pos hregistered] at htouched
    refine Announced.touched (h.opened ?_) htouched
    intro p hmem
    obtain ⟨i, hinit⟩ := init_of_issued (hserver.messages _ hmem)
    exact next_sid_fresh hmax hserver.slots hworn hpool hroom i ((mem_view_calls _ _ _).mp hinit)

/-- The condition on a step: a connection for which there is a slot is registered with the
completion port, and its slot is not worn out. -/
def Registers (w : World) (e : ChatEvent) : Prop := CountsSafe ⟨w, none⟩ (.chat e)

instance (w : World) (e : ChatEvent) : Decidable (Registers w e) :=
  inferInstanceAs (Decidable (CountsSafe ⟨w, none⟩ (.chat e)))

/-- The whole of what is known between two steps. -/
structure InOrder (w : World) (max : Nat) : Prop where
  service : ServiceOk ⟨w, none⟩ max
  announced : Announced (outline w.server)

theorem start_inOrder (maxSession : Nat) : InOrder (World.start maxSession) maxSession :=
  ⟨start_serviceOk maxSession, start_announced maxSession⟩

theorem chatStep_inOrder (C : Crypto) (toAcp : List UInt16 → List UInt8) (hmax : max ≤ 65536)
    (h : InOrder w max) {e : ChatEvent} (hsafe : Registers w e)
    (hstep : chatStep C toAcp w e = some w') : InOrder w' max := by
  have hservice : serviceStep C toAcp ⟨w, none⟩ (.chat e) = some ⟨w', none⟩ := by
    simp [serviceStep, hstep]
  refine ⟨serviceStep_ok C toAcp hmax h.service hsafe hservice, ?_⟩
  obtain ⟨lost, hworld⟩ := h.service.world
  cases e with
  | net e =>
      obtain ⟨-, sv, hnet, rfl⟩ := chatStep_net hstep
      rcases Classical.em (∃ sock registered accepted, e = .accept sock registered accepted) with
        haccept | hother
      · obtain ⟨sock, registered, accepted, rfl⟩ := haccept
        obtain rfl := Option.some.inj hnet
        exact acceptOne_announced hmax hworld.server h.service.unworn h.announced hsafe
      · have hnot : ∀ sock r a, e ≠ .accept sock r a :=
          fun sock r a heq => hother ⟨sock, r, a, heq⟩
        rcases netStep_touches C hworld.server.slots (.inl hmax) hnet hnot with
          heq | ⟨idx, -, -, htouched⟩
        · rw [heq]
          exact h.announced
        · exact h.announced.touched htouched
  | update env io =>
      obtain ⟨hd, hstart, rfl⟩ := Option.map_eq_some_iff.mp hstep
      exact finishHandler_announced C toAcp hmax hworld hstart io h.announced
  | dbResult result userNo nickname io =>
      obtain ⟨hd, hstart, rfl⟩ := Option.map_eq_some_iff.mp hstep
      exact finishHandler_announced C toAcp hmax hworld hstart io h.announced

theorem run_answered (C : Crypto) (toAcp : List UInt16 → List UInt8) (hmax : max ≤ 65536)
    (hok : InOrder w max) (h : Answered w asked answered) {events : List ChatEvent}
    (hsafe : Meets (chatStep C toAcp) Registers w events)
    (hrun : run (chatStep C toAcp) w events = some w') :
    Answered w' (fun sid => asked sid ++ askedLog C toAcp sid w events)
      fun sid => answered sid ++ answers sid (runLog C toAcp w events) := by
  induction events generalizing w asked answered with
  | nil =>
      obtain rfl : w = w' := by simpa using hrun
      simp only [askedLog, runLog, answers, List.filterMap_nil, List.append_nil]
      exact h
  | cons e events ih =>
      simp only [run] at hrun
      cases hstep : chatStep C toAcp w e with
      | none => simp [hstep] at hrun
      | some next =>
          simp only [hstep] at hrun
          simp only [Meets, hstep] at hsafe
          obtain ⟨hhere, hrest⟩ := hsafe
          obtain ⟨lost, hworld⟩ := hok.service.world
          have hnext := chatStep_answered C toAcp hmax hworld hok.service.books hok.announced h
            hstep
          simp only [askedLog, runLog, hstep, answers_append, ← List.append_assoc]
          exact ih (chatStep_inOrder C toAcp hmax hok hhere hstep) hnext hrest hrun

end Steps

/-- In every run in which connections are registered, what is answered to a session as logins
and sign-ups is a first part of those it has made, in their order; and as long as its leave
has not been handled, the rest are exactly those that wait for the DB worker. -/
theorem credentials_answered_in_order (C : Crypto) (toAcp : List UInt16 → List UInt8)
    {maxSession : Nat} (hmax : maxSession ≤ 2 ^ 16) {events : List ChatEvent} {w : World}
    (hsafe : Meets (chatStep C toAcp) Registers (World.start maxSession) events)
    (hrun : run (chatStep C toAcp) (World.start maxSession) events = some w) (sid : SessionID) :
    let asked := askedLog C toAcp sid (World.start maxSession) events
    let answered := answers sid (runLog C toAcp (World.start maxSession) events)
    answered <+: asked ∧
      (sid ∈ w.content.players → asked = answered ++ waitingJobs sid w.jobs) := by
  have h := run_answered C toAcp hmax (start_inOrder maxSession) (start_answered maxSession) hsafe
    hrun
  simp only [List.nil_append] at h
  exact ⟨h.first sid, h.player sid⟩

/-- A client asks for a login and a sign-up, and the first is answered. -/
def loginAnswered : List ChatEvent :=
  let io : Nat → SendEnv := fun _ => ⟨List.replicate 12 0, fun _ => true⟩
  [.net (.accept 7 true true), .update zeroEnv io,
    .net (.recvDone 0 ([2, 0] ++ List.replicate 28 0 ++ [1, 0] ++
      [2, 0] ++ List.replicate 28 0 ++ [5, 0]) true),
    .update zeroEnv io, .update zeroEnv io, .dbResult 0 1 (fun _ => 0) io]

theorem credentials_answered_in_order_loginAnswered :
    ∃ w, run (chatStep Crypto.none fun _ => []) (World.start 1) loginAnswered = some w ∧
      askedLog Crypto.none (fun _ => []) (sidOf 0 1) (World.start 1) loginAnswered =
        [.login, .signUp] ∧
      answers (sidOf 0 1) (runLog Crypto.none (fun _ => []) (World.start 1) loginAnswered) =
        [.login] ∧ waitingJobs (sidOf 0 1) w.jobs = [.signUp] := by
  have hfacts : ((run (chatStep Crypto.none fun _ => []) (World.start 1) loginAnswered).map
      fun w => decide ((w.content.players.lookup (sidOf 0 1)).isSome = true ∧
        answers (sidOf 0 1) (runLog Crypto.none (fun _ => []) (World.start 1) loginAnswered) =
          [.login] ∧ waitingJobs (sidOf 0 1) w.jobs = [.signUp])) = some true := by
    decide +kernel
  have hsafe : Meets (chatStep Crypto.none fun _ => []) Registers (World.start 1)
      loginAnswered := by
    decide +kernel
  obtain ⟨w, hrun, hw⟩ := Option.map_eq_some_iff.mp hfacts
  obtain ⟨hplayer, hanswered, hwaiting⟩ := of_decide_eq_true hw
  have hasked := (credentials_answered_in_order Crypto.none (fun _ => []) (by decide) hsafe hrun
    (sidOf 0 1)).2 (AList.lookup_isSome.mp hplayer)
  rw [hanswered, hwaiting] at hasked
  exact ⟨w, hrun, hasked, hanswered, hwaiting⟩

end IocpChat.CredentialAnswers
