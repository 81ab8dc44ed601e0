import IocpChat.ContentSteps

namespace IocpChat.Authentication

open IocpChat.Protocol
open IocpChat.PacketBuffer
open IocpChat.ContentHandlers
open IocpChat.LabelledRun
open IocpChat.RoomMembership
open IocpChat.ContentSteps

/-- The content, and for each session whether a login of it has succeeded since
its player was made. -/
structure Watched where
  content : Content
  authenticated : SessionID → Bool

/-- Nobody has joined. -/
def unwatched : Watched := ⟨Content.initial, fun _ => false⟩

/-- How an event changes what is known of the logins. -/
def noteLogin (w : Watched) : Event → SessionID → Bool
  | .join _ sid =>
      match w.content.players.lookup sid with
      | none => Function.update w.authenticated sid false
      | some _ => w.authenticated
  | .leave _ => w.authenticated
  | .recv _ _ _ => w.authenticated
  | .dbResult r =>
      if r.type = .login ∧ mapLoginResult r.result = .success then
        Function.update w.authenticated r.sid true
      else w.authenticated

/-- The content after an event, and who has been authenticated since it joined. -/
def watch (toAcp : List UInt16 → List UInt8) (w : Watched) (e : Event) : Watched where
  content := handle toAcp w.content e
  authenticated := noteLogin w e

/-- Only authenticated players are past `PS_NOT_LOGIN`, only they are users of a
room, and only they send or receive the chats of a room. -/
structure OnlyAuthenticated (w : Watched) : Prop where
  players : ∀ sid pl, w.content.players.lookup sid = some pl → pl.state ≠ .notLogin →
    w.authenticated sid = true
  users : ∀ i sid, sid ∈ (w.content.rooms i).users → w.authenticated sid = true
  chats : ∀ env sid pkt fields targets,
    Effect.send fields targets ∈ (handleChat env w.content sid pkt).2 →
      w.authenticated sid = true ∧ ∀ target ∈ targets, w.authenticated target = true

/-- No room request that finds a place is handled for a player that has not
logged in, and no player is made for a session that a room still lists. -/
def LoginFirst (w : Watched) : Event → Prop
  | .join _ sid =>
      w.content.players.lookup sid = none → ∀ i, sid ∉ (w.content.rooms i).users
  | .leave _ => True
  | .recv env sid pkt =>
      ∀ no, enterRequest env pkt = some no →
        ∀ pl, w.content.players.lookup sid = some pl → pl.state = .notLogin →
          ∀ i, getRoom no = some i →
            sid ∈ (w.content.rooms i).users ∨
              maxLimitPerson ≤ (w.content.rooms i).users.length
  | .dbResult _ => True

/-- A player that is still in its first state has not been authenticated. -/
def FreshPlayers (w : Watched) : Prop :=
  ∀ sid pl, w.content.players.lookup sid = some pl → pl.state = .notLogin →
    w.authenticated sid = false

theorem handleChat_send {env : Env} {c : Content} {sid : SessionID} {pkt : CPacket}
    {fields : List (List UInt8)} {targets : List SessionID}
    (h : Effect.send fields targets ∈ (handleChat env c sid pkt).2) :
    ∃ pl i, c.players.lookup sid = some pl ∧ pl.state = .inRoom ∧
      targets = env.order (c.rooms i).users := by
  simp only [handleChat] at h
  split at h
  · simp at h
  · split at h
    · simp at h
    · rename_i pl hpl
      split at h
      · simp at h
      · rename_i hroom
        split at h
        · simp at h
        · rename_i i _
          simp only [List.mem_singleton, Effect.send.injEq] at h
          exact ⟨pl, i, hpl, not_not.mp hroom, h.2⟩

theorem onlyAuthenticated_iff (w : Watched) :
    OnlyAuthenticated w ↔
      (∀ sid pl, w.content.players.lookup sid = some pl → pl.state ≠ .notLogin →
        w.authenticated sid = true) ∧
      ∀ i sid, sid ∈ (w.content.rooms i).users → w.authenticated sid = true := by
  constructor
  · intro h
    exact ⟨h.players, h.users⟩
  · rintro ⟨hplayers, husers⟩
    refine ⟨hplayers, husers, ?_⟩
    intro env sid pkt fields targets hsend
    obtain ⟨pl, i, hpl, hroom, rfl⟩ := handleChat_send hsend
    refine ⟨hplayers sid pl hpl (by simp [hroom]), ?_⟩
    intro target htarget
    exact husers i target ((env.order_perm _).mem_iff.mp htarget)

theorem authenticated_dbResult {w : Watched} {r : DBResult} {sid : SessionID}
    (h : w.authenticated sid = true) : noteLogin w (.dbResult r) sid = true := by
  simp only [noteLogin]
  split
  · by_cases hsid : sid = r.sid
    · rw [hsid, Function.update_self]
    · rw [Function.update_of_ne hsid]
      exact h
  · exact h

theorem freshPlayers_outcome {w : Watched} {e : Event} {c' : Content} {effects : List Effect}
    (hw : FreshPlayers w) (hout : Outcome w.content e c' effects) :
    FreshPlayers ⟨c', noteLogin w e⟩ := by
  cases hout with
  | joinKnown env sid pl hpl =>
      simp only [noteLogin, hpl]
      exact hw
  | joined env sid hpl =>
      intro other pl' hlookup hstate
      simp only [noteLogin, hpl]
      rcases lookup_insert_cases hlookup with ⟨rfl, -⟩ | ⟨hother, hold⟩
      · rw [Function.update_self]
      · rw [Function.update_of_ne hother]
        exact hw other pl' hold hstate
  | leaveUnknown => exact hw
  | leftLobby =>
      intro other pl' hlookup
      exact hw other pl' (lookup_erase_of hlookup)
  | leftRoom =>
      intro other pl' hlookup
      exact hw other pl' (lookup_erase_of hlookup)
  | recvQuiet => exact hw
  | roomLeft env sid pkt pl i hrequest hleave hpl hroom hget =>
      intro other pl' hlookup hstate
      rcases lookup_insert_cases hlookup with ⟨-, rfl⟩ | ⟨-, hold⟩
      · simp [CPlayer.leaveRoom, hroom] at hstate
      · exact hw other pl' hold hstate
  | enterRefused => exact hw
  | placeTaken => exact hw
  | entered env sid pkt no pl i room hrequest hpl hget henter hroom =>
      intro other pl' hlookup hstate
      rcases lookup_insert_cases hlookup with ⟨-, rfl⟩ | ⟨-, hold⟩
      · simp at hstate
      · exact hw other pl' hold hstate
  | dbQuiet r effects hfailed hquiet =>
      intro other pl' hlookup hstate
      simp only [noteLogin]
      split
      · rename_i hsuccess
        have hnone := hfailed.resolve_right (not_not.mpr hsuccess)
        have hother : other ≠ r.sid := by
          rintro rfl
          simp [hnone] at hlookup
        rw [Function.update_of_ne hother]
        exact hw other pl' hlookup hstate
      · exact hw other pl' hlookup hstate
  | loggedIn r pl name effects hpl htype hresult hquiet =>
      intro other pl' hlookup hstate
      simp only [noteLogin, htype, hresult, and_self, if_true]
      rcases lookup_insert_cases hlookup with ⟨-, rfl⟩ | ⟨hother, hold⟩
      · simp [CPlayer.setNickname] at hstate
      · rw [Function.update_of_ne hother]
        exact hw other pl' hold hstate

/-- A step keeps all players authenticated exactly if it asks for the login
first. -/
theorem onlyAuthenticated_outcome {w : Watched} {e : Event} {c' : Content}
    {effects : List Effect} (hfresh : FreshPlayers w) (hw : OnlyAuthenticated w)
    (hout : Outcome w.content e c' effects) :
    OnlyAuthenticated ⟨c', noteLogin w e⟩ ↔ LoginFirst w e := by
  obtain ⟨hplayers, husers⟩ := (onlyAuthenticated_iff w).mp hw
  rw [onlyAuthenticated_iff]
  cases hout with
  | joinKnown env sid pl hpl =>
      simp only [noteLogin, LoginFirst, hpl]
      exact iff_of_true ⟨hplayers, husers⟩ nofun
  | joined env sid hpl =>
      simp only [noteLogin, LoginFirst, hpl, forall_const]
      constructor
      · rintro ⟨-, hmembers⟩ i hmem
        have hfalse := hmembers i sid hmem
        simp at hfalse
      · intro hunlisted
        refine ⟨?_, ?_⟩
        · intro other pl' hlookup hstate
          rcases lookup_insert_cases hlookup with ⟨-, rfl⟩ | ⟨hother, hold⟩
          · simp [CPlayer.new] at hstate
          · rw [Function.update_of_ne hother]
            exact hplayers other pl' hold hstate
        · intro i other hmem
          have hother : other ≠ sid := by
            rintro rfl
            exact hunlisted i hmem
          rw [Function.update_of_ne hother]
          exact husers i other hmem
  | leaveUnknown => exact iff_of_true ⟨hplayers, husers⟩ trivial
  | leftLobby =>
      refine iff_of_true ⟨?_, husers⟩ trivial
      intro other pl' hlookup
      exact hplayers other pl' (lookup_erase_of hlookup)
  | leftRoom sid pl i =>
      refine iff_of_true ⟨?_, ?_⟩ trivial
      · intro other pl' hlookup
        exact hplayers other pl' (lookup_erase_of hlookup)
      · intro j other hmem
        exact husers j other ((mem_update_leaveRoom w.content sid other i j).mp hmem).1
  | recvQuiet env sid pkt effects hrequest _ _ =>
      exact iff_of_true ⟨hplayers, husers⟩ (by simp [LoginFirst, hrequest])
  | roomLeft env sid pkt pl i hrequest hleave hpl hroom hget =>
      refine iff_of_true ⟨?_, ?_⟩ (by simp [LoginFirst, hrequest])
      · intro other pl' hlookup hstate
        rcases lookup_insert_cases hlookup with ⟨rfl, -⟩ | ⟨-, hold⟩
        · exact hplayers other pl hpl (by simp [hroom])
        · exact hplayers other pl' hold hstate
      · intro j other hmem
        exact husers j other ((mem_update_leaveRoom w.content sid other i j).mp hmem).1
  | enterRefused env sid pkt no hrequest hrefused =>
      refine iff_of_true ⟨hplayers, husers⟩ ?_
      intro no' hno' pl hpl _ i hi
      have hno : no = no' := Option.some.inj (hrequest.symm.trans hno')
      subst hno
      exact hrefused pl hpl i hi
  | placeTaken env sid pkt no pl i room hrequest hpl hget henter hroom =>
      refine iff_of_true ⟨hplayers, ?_⟩ ?_
      · intro j other hmem
        rcases mem_update_enterRoom henter hmem with rfl | hold
        · exact hplayers other pl hpl (by simp [hroom])
        · exact husers j other hold
      · intro no' _ pl' hpl' hstate
        have hsame : pl = pl' := Option.some.inj (hpl.symm.trans hpl')
        rw [← hsame, hroom] at hstate
        cases hstate
  | entered env sid pkt no pl i room hrequest hpl hget henter hroom =>
      obtain ⟨hroomy, hnew⟩ := (enterRoom_fst (w.content.rooms i) sid).mp (by rw [henter])
      by_cases hstate : pl.state = .notLogin
      · -- the player is in a room now, and no login of it has succeeded
        refine iff_of_false ?_ ?_
        · rintro ⟨hafter, -⟩
          have htrue := hafter sid _ (AList.lookup_insert _) (by simp)
          have hfalse := hfresh sid pl hpl hstate
          simp [noteLogin, hfalse] at htrue
        · intro hfirst
          rcases hfirst no hrequest pl hpl hstate i hget with hmem | hfull
          · exact hnew hmem
          · omega
      · have hsid := hplayers sid pl hpl hstate
        refine iff_of_true ⟨?_, ?_⟩ ?_
        · intro other pl' hlookup hstate'
          rcases lookup_insert_cases hlookup with ⟨rfl, -⟩ | ⟨-, hold⟩
          · exact hsid
          · exact hplayers other pl' hold hstate'
        · intro j other hmem
          rcases mem_update_enterRoom henter hmem with rfl | hold
          · exact hsid
          · exact husers j other hold
        · intro no' _ pl' hpl' hstate'
          have hsame : pl = pl' := Option.some.inj (hpl.symm.trans hpl')
          exact absurd (hsame ▸ hstate') hstate
  | dbQuiet r effects hfailed hquiet =>
      refine iff_of_true ⟨?_, ?_⟩ trivial
      · intro other pl' hlookup hstate
        exact authenticated_dbResult (hplayers other pl' hlookup hstate)
      · intro j other hmem
        exact authenticated_dbResult (husers j other hmem)
  | loggedIn r pl name effects hpl htype hresult hquiet =>
      refine iff_of_true ⟨?_, ?_⟩ trivial
      · intro other pl' hlookup hstate
        rcases lookup_insert_cases hlookup with ⟨rfl, -⟩ | ⟨-, hold⟩
        · simp [noteLogin, htype, hresult]
        · exact authenticated_dbResult (hplayers other pl' hold hstate)
      · intro j other hmem
        exact authenticated_dbResult (husers j other hmem)

/-- The step function of the watched content. -/
def watchStep (toAcp : List UInt16 → List UInt8) (w : Watched) (e : Event) : Option Watched :=
  some (watch toAcp w e)

theorem watch_outcome (toAcp : List UInt16 → List UInt8) (w : Watched) (e : Event) :
    Outcome w.content e (watch toAcp w e).content (outcome toAcp w.content e).2 := by
  have hout := outcome_cases toAcp w.content e
  rwa [outcome_fst] at hout

/-- Along every sequence of messages and DB results only authenticated sessions
are past the login, in a room or part of its chats, in each state passed through,
exactly if every step asks for the login first. -/
theorem only_authenticated_iff_loginFirst (toAcp : List UInt16 → List UInt8)
    (events : List Event) :
    Always (watchStep toAcp) OnlyAuthenticated unwatched events ↔
      Meets (watchStep toAcp) LoginFirst unwatched events := by
  apply always_iff_meets (J := FreshPlayers)
  · intro w e v hfresh hstep
    rw [← Option.some.inj hstep]
    exact freshPlayers_outcome hfresh (watch_outcome toAcp w e)
  · intro w e v hfresh hw hstep
    rw [← Option.some.inj hstep]
    exact onlyAuthenticated_outcome hfresh hw (watch_outcome toAcp w e)
  · intro sid pl hlookup
    simp [unwatched, Content.initial] at hlookup
  · rw [onlyAuthenticated_iff]
    refine ⟨?_, ?_⟩
    · intro sid pl hlookup
      simp [unwatched, Content.initial] at hlookup
    · intro i sid hmem
      simp [unwatched, Content.initial, CRoom.empty] at hmem

/-- A client that enters room 1 without logging in. -/
def strangerEnters : List Event :=
  [.join zeroEnv 1#64, .recv zeroEnv 1#64 (CPacket.new.attachRaw [2, 0, 1, 0])]

theorem stranger_in_room_after_strangerEnters :
    ∃ w, run (watchStep fun _ => []) unwatched strangerEnters = some w ∧
      w.authenticated 1#64 = false ∧
      (w.content.players.lookup 1#64).map (fun pl => pl.state) = some .inRoom ∧
      1#64 ∈ (w.content.rooms ⟨0, by decide⟩).users ∧ ¬ OnlyAuthenticated w := by
  refine ⟨_, rfl, by decide, by decide, by decide, ?_⟩
  intro h
  exact absurd (h.users ⟨0, by decide⟩ 1#64 (by decide)) (by decide)

end IocpChat.Authentication
