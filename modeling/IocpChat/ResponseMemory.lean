import Mathlib.Data.List.TakeWhile
import IocpChat.DbWorker
import IocpChat.StaleMemory

/-!
The nickname fields of the responses are copied whole from arrays of which a string
copy has only written a part.  Two runs of the content layer are compared that differ
in what stood in memory when their players and DB results were made.
-/

namespace IocpChat.ResponseMemory

open IocpChat.Protocol
open IocpChat.RingWindow
open IocpChat.PacketBuffer
open IocpChat.ContentHandlers
open IocpChat.LabelledRun
open IocpChat.RoomMembership
open IocpChat.ContentSteps
open IocpChat.DbWorker
open IocpChat.StaleMemory

/-- The memory that a new player and a new `DBResult` are made in. -/
structure Memory where
  player : Nat → UInt8
  result : Nat → UInt16

/-- A message, or a job with what the database says to it. -/
inductive Step where
  | join (sid : SessionID)
  | leave (sid : SessionID)
  | recv (env : Env) (sid : SessionID) (pkt : CPacket)
  | dbReply (job : DBJob) (reply : Option DbReply)

/-- The event that a step is in a run with the given memory. -/
def event : Step × Memory → Event
  | (.join sid, m) => .join { zeroEnv with playerMemory := m.player } sid
  | (.leave sid, _) => .leave sid
  | (.recv env sid pkt, _) => .recv env sid pkt
  | (.dbReply job reply, m) => .dbResult (process m.result job reply)

/-- The content with, for each player, how many bytes of its nickname have been
written since it was made. -/
structure Watched where
  content : Content
  filled : SessionID → Nat

/-- Nobody has joined, and nothing has been written. -/
def unwatched : Watched := ⟨Content.initial, fun _ => 0⟩

/-- How much of each nickname array has been written. -/
def noteFilled (toAcp : List UInt16 → List UInt8) (w : Watched) :
    Step × Memory → SessionID → Nat
  | (.join sid, _) =>
      match w.content.players.lookup sid with
      | none => Function.update w.filled sid 1
      | some _ => w.filled
  | (.leave _, _) => w.filled
  | (.recv _ _ _, _) => w.filled
  | (.dbReply job reply, m) =>
      let r := process m.result job reply
      if r.type = .login ∧ mapLoginResult r.result = .success then
        Function.update w.filled r.sid
          (max (w.filled r.sid) ((CPlayer.cString (acpNickname toAcp r)).length + 1))
      else w.filled

/-- The content and the notes after a step. -/
def watch (toAcp : List UInt16 → List UInt8) (w : Watched) (e : Step × Memory) : Watched where
  content := (outcome toAcp w.content (event e)).1
  filled := noteFilled toAcp w e

/-- The characters of the nickname that the database has returned. -/
def nicknameChars : Option DbReply → List UInt16
  | some out => (slice out.nickname 0 maxNicknameLen).takeWhile (· ≠ 0)
  | none => []

/-- `HandleChat` takes the packet, and its length is allowed. -/
def ChatRequest (env : Env) (pkt : CPacket) : Prop :=
  (pkt.readWord env.type).1 = PacketType.csChatReq.code ∧
    ((pkt.readWord env.type).2.readWord env.chatLen).1.toNat ≤ maxChatLen

/-- The nickname of the player goes to somebody: to the users of a room that it enters
or leaves, or in which it says something. -/
def Announced (c : Content) (env : Env) (sid : SessionID) (pkt : CPacket) (pl : CPlayer) :
    Prop :=
  (pl.state ≠ .inRoom ∧ ∃ no i, enterRequest env pkt = some no ∧ getRoom no = some i ∧
    ((c.rooms i).enterRoom sid).1 = true ∧ (c.rooms i).users ≠ []) ∨
  (pl.state = .inRoom ∧ ∃ i, getRoom pl.roomNo = some i ∧
    ((LeaveRequest env pkt ∧ ((c.rooms i).leaveRoom sid).users ≠ []) ∨
      (ChatRequest env pkt ∧ (c.rooms i).users ≠ [])))

/-- All of a nickname field that is sent has been written: the database has returned a
nickname of 31 characters at least to whoever gets a login response, and a player whose
nickname goes to somebody has been given one that fills its 32 bytes. -/
def FieldsFilled (w : Watched) : Step × Memory → Prop
  | (.join _, _) => True
  | (.leave _, _) => True
  | (.recv env sid pkt, _) => ∀ pl, w.content.players.lookup sid = some pl →
      Announced w.content env sid pkt pl → maxNicknameLen ≤ w.filled sid
  | (.dbReply job reply, _) => job.type = .login →
      (w.content.players.lookup job.sid).isSome → maxNicknameLen ≤ (nicknameChars reply).length + 1

/-- The plaintext of every packet that is sent along a run, with its recipient. -/
def sent (toAcp : List UInt16 → List UInt8) (events : List (Step × Memory)) :
    List (List UInt8 × SessionID) :=
  outputs (fun c e => (outcome toAcp c (event e)).1)
    (fun c e => deliveries (outcome toAcp c (event e)).2) Content.initial events

section Results

variable (m m' : Nat → UInt16) {job : DBJob} (reply : Option DbReply)

theorem process_answer_eq : (process m' job reply).result = (process m job reply).result ∧
    (process m' job reply).userNo = (process m job reply).userNo := by
  unfold process
  cases job.type <;> cases reply <;> exact ⟨rfl, rfl⟩

theorem process_nickname (hjob : job.type = .login) :
    ∃ dest, (process m job reply).nickname = blit dest 0 (nicknameChars reply ++ [0]) := by
  unfold process
  rw [hjob]
  cases reply with
  | none => exact ⟨m, rfl⟩
  | some out => exact ⟨_, rfl⟩

theorem nicknameChars_length : (nicknameChars reply).length ≤ maxNicknameLen := by
  cases reply with
  | none => exact Nat.zero_le _
  | some out =>
      have hle : (nicknameChars (some out)).length ≤ _ := (List.takeWhile_prefix _).length_le
      rwa [slice_length] at hle

theorem nicknameChars_ne_zero : ∀ w ∈ nicknameChars reply, w ≠ 0 := by
  cases reply with
  | none => simp [nicknameChars]
  | some out =>
      intro w hw
      simpa using List.mem_takeWhile_imp hw

theorem wideString_process (hjob : job.type = .login) :
    wideString (process m job reply).nickname = nicknameChars reply := by
  obtain ⟨dest, hnickname⟩ := process_nickname m reply hjob
  have hlength := nicknameChars_length reply
  have hzero := nicknameChars_ne_zero reply
  rw [wideString, hnickname]
  generalize nicknameChars reply = name at *
  have hsplit : slice (blit dest 0 (name ++ [0])) 0 (maxNicknameLen + 1) =
      name ++ ([0] ++ slice (blit dest 0 (name ++ [0])) (0 + (name ++ [0]).length)
        (maxNicknameLen - name.length)) := by
    rw [show maxNicknameLen + 1 = (name ++ [0]).length + (maxNicknameLen - name.length) by
      rw [List.length_append, List.length_singleton]; omega, slice_add, slice_blit_self,
      List.append_assoc]
  rw [hsplit, List.takeWhile_append_of_pos (by simpa using hzero)]
  simp

theorem acpNickname_process (toAcp : List UInt16 → List UInt8) (hjob : job.type = .login) :
    acpNickname toAcp (process m' job reply) = acpNickname toAcp (process m job reply) := by
  simp only [acpNickname, wideString_process _ reply hjob]

theorem field_process (hjob : job.type = .login)
    (hfull : maxNicknameLen ≤ (nicknameChars reply).length + 1) :
    slice (process m' job reply).nickname 0 maxNicknameLen =
      slice (process m job reply).nickname 0 maxNicknameLen := by
  obtain ⟨dest, hnickname⟩ := process_nickname m reply hjob
  obtain ⟨dest', hnickname'⟩ := process_nickname m' reply hjob
  have hfit : 0 + maxNicknameLen ≤ (nicknameChars reply ++ [0]).length := by
    rw [List.length_append, List.length_singleton]
    omega
  rw [hnickname, hnickname', slice_blit_zero _ _ hfit, slice_blit_zero _ _ hfit]

end Results

/-- Two records of a player that differ in the unwritten part of the nickname only. -/
structure Agree (k : Nat) (pl pl' : CPlayer) : Prop where
  userNo : pl'.userNo = pl.userNo
  roomNo : pl'.roomNo = pl.roomNo
  state : pl'.state = pl.state
  nickname : ∀ i, i < k → pl'.nickname i = pl.nickname i

/-- The contents agree but for what has not been written. -/
structure Alike (filled : SessionID → Nat) (c c' : Content) : Prop where
  rooms : c'.rooms = c.rooms
  players : ∀ sid, (c.players.lookup sid = none ∧ c'.players.lookup sid = none) ∨
    ∃ pl pl', c.players.lookup sid = some pl ∧ c'.players.lookup sid = some pl' ∧
      Agree (filled sid) pl pl'

theorem blit_congr {α : Type*} {m m' : Nat → α} {xs : List α} {i : Nat}
    (h : m' i = m i ∨ i < xs.length) : blit m' 0 xs i = blit m 0 xs i := by
  rcases Nat.lt_or_ge i xs.length with hlt | hge
  · simp [blit, hlt]
  · rw [blit_of_ge _ _ (by omega), blit_of_ge _ _ (by omega)]
    exact h.resolve_right (by omega)

namespace Agree

variable {k : Nat} {pl pl' : CPlayer}

theorem nicknameField (h : Agree k pl pl') (hk : maxNicknameLen ≤ k) :
    pl'.nicknameField = pl.nicknameField := by
  apply slice_congr
  intro i _ hi
  exact h.nickname i (by omega)

theorem new (sid : SessionID) (m m' : Nat → UInt8) :
    Agree 1 (CPlayer.new sid m) (CPlayer.new sid m') := by
  refine ⟨rfl, rfl, rfl, ?_⟩
  intro i hi
  exact blit_congr (.inr hi)

theorem login (h : Agree k pl pl') (no : BitVec 32) (name : List UInt8) :
    Agree (max k ((CPlayer.cString name).length + 1)) ((pl.setUserNo no).setNickname name)
      ((pl'.setUserNo no).setNickname name) := by
  refine ⟨rfl, h.roomNo, rfl, ?_⟩
  intro i hi
  apply blit_congr
  rcases Nat.lt_or_ge i k with hold | hnew
  · exact .inl (h.nickname i hold)
  · right
    rw [List.length_append, List.length_singleton]
    omega

theorem enter (h : Agree k pl pl') (no : UInt16) :
    Agree k { pl with roomNo := no, state := .inRoom }
      { pl' with roomNo := no, state := .inRoom } :=
  ⟨h.userNo, rfl, rfl, h.nickname⟩

theorem leave (h : Agree k pl pl') : Agree k pl.leaveRoom.2 pl'.leaveRoom.2 := by
  simp only [CPlayer.leaveRoom, h.state]
  split
  · exact h
  · exact ⟨h.userNo, rfl, rfl, h.nickname⟩

end Agree

namespace Alike

variable {filled : SessionID → Nat} {c c' : Content}

theorem insert (h : Alike filled c c') (sid : SessionID) {k : Nat} {pl pl' : CPlayer}
    (hpl : Agree k pl pl') (rooms : Fin maxRoomCount → CRoom) :
    Alike (Function.update filled sid k) ⟨c.players.insert sid pl, rooms⟩
      ⟨c'.players.insert sid pl', rooms⟩ := by
  refine ⟨rfl, ?_⟩
  intro other
  rcases eq_or_ne other sid with rfl | hne
  · right
    refine ⟨pl, pl', AList.lookup_insert _, AList.lookup_insert _, ?_⟩
    rwa [Function.update_self]
  · simp only [AList.lookup_insert_ne hne, Function.update_of_ne hne]
    exact h.players other

theorem insert_same (h : Alike filled c c') (sid : SessionID) {pl pl' : CPlayer}
    (hpl : Agree (filled sid) pl pl') (rooms : Fin maxRoomCount → CRoom) :
    Alike filled ⟨c.players.insert sid pl, rooms⟩ ⟨c'.players.insert sid pl', rooms⟩ := by
  have hinsert := h.insert sid hpl rooms
  rwa [Function.update_eq_self] at hinsert

theorem erase (h : Alike filled c c') (sid : SessionID) (rooms : Fin maxRoomCount → CRoom) :
    Alike filled ⟨c.players.erase sid, rooms⟩ ⟨c'.players.erase sid, rooms⟩ := by
  refine ⟨rfl, ?_⟩
  intro other
  rcases eq_or_ne other sid with rfl | hne
  · exact .inl ⟨AList.lookup_erase _ _, AList.lookup_erase _ _⟩
  · simp only [AList.lookup_erase_ne hne]
    exact h.players other

theorem withRooms (h : Alike filled c c') (rooms : Fin maxRoomCount → CRoom) :
    Alike filled ⟨c.players, rooms⟩ ⟨c'.players, rooms⟩ :=
  ⟨rfl, h.players⟩

theorem initial (filled : SessionID → Nat) : Alike filled Content.initial Content.initial :=
  ⟨rfl, fun _ => .inl ⟨rfl, rfl⟩⟩

end Alike

theorem deliveries_cons_congr {fields fields' : List (List UInt8)} {targets : List SessionID}
    (h : targets ≠ [] → fields' = fields) (es : List Effect) :
    deliveries (.send fields' targets :: es) = deliveries (.send fields targets :: es) := by
  rcases eq_or_ne targets [] with rfl | hne
  · simp [deliveries]
  · rw [h hne]

section Handlers

variable {filled : SessionID → Nat} {c c' : Content} (env : Env) {sid : SessionID}
  {pkt : CPacket}

/-- What a handler does in the one run and in the other. -/
structure SameStep (filled : SessionID → Nat) (out out' : Content × List Effect) : Prop where
  deliveries : deliveries out'.2 = deliveries out.2
  alike : Alike filled out.1 out'.1

theorem Alike.quiet (h : Alike filled c c') : SameStep filled (c, []) (c', []) := ⟨rfl, h⟩

theorem users_ne_nil_of_order {users : List SessionID} (h : env.order users ≠ []) :
    users ≠ [] := by
  rintro rfl
  exact h (List.perm_nil.mp (env.order_perm []))

theorem targets_nil_of_empty {i : Fin maxRoomCount} {room : CRoom}
    (henter : (c.rooms i).enterRoom sid = (true, room)) (hempty : (c.rooms i).users = []) :
    (env.order room.users).filter (· ≠ sid) = [] := by
  rw [List.filter_eq_nil_iff]
  intro other hother
  have hmem := (mem_enterRoom henter other).mp ((env.order_perm _).mem_iff.mp hother)
  rw [hempty] at hmem
  rcases hmem with rfl | hnone
  · simp
  · cases hnone

theorem handleLogin_deliveries (c : Content) (pkt : CPacket) :
    deliveries (handleLogin env c sid pkt).2 = [] := by
  unfold handleLogin
  split <;> rfl

theorem handleSignUp_deliveries (c : Content) (pkt : CPacket) :
    deliveries (handleSignUp env c sid pkt).2 = [] := by
  unfold handleSignUp
  split <;> rfl

theorem handleRoomEnter_same (h : Alike filled c c')
    (hfilled : ∀ pl i, c.players.lookup sid = some pl → pl.state ≠ .inRoom →
      getRoom (pkt.readWord env.no).1 = some i → ((c.rooms i).enterRoom sid).1 = true →
      (c.rooms i).users ≠ [] → maxNicknameLen ≤ filled sid) :
    SameStep filled (handleRoomEnter env c sid pkt) (handleRoomEnter env c' sid pkt) := by
  rcases h.players sid with ⟨hc, hc'⟩ | ⟨pl, pl', hc, hc', hagree⟩
  · simp only [handleRoomEnter, hc, hc']
    exact h.quiet
  · cases hget : getRoom (pkt.readWord env.no).1 with
    | none =>
        simp only [handleRoomEnter, hc, hc', hget]
        exact h.quiet
    | some i =>
        rcases henter : (c.rooms i).enterRoom sid with ⟨_ | _, room⟩
        · simp only [handleRoomEnter, hc, hc', hget, h.rooms, henter]
          exact h.quiet
        · by_cases hroom : pl.state = .inRoom
          · simp only [handleRoomEnter, hc, hc', hget, h.rooms, henter, CPlayer.enterRoom,
              hagree.state, hroom, if_true]
            exact (h.withRooms _).quiet
          · simp only [handleRoomEnter, hc, hc', hget, h.rooms, henter, CPlayer.enterRoom,
              hagree.state, hroom, if_false]
            refine ⟨?_, h.insert_same sid (hagree.enter _) _⟩
            have hnotice : deliveries [.send [wordBytes PacketType.scUserJoin.code,
                  pl'.nicknameField] ((env.order room.users).filter (· ≠ sid))] =
                deliveries [.send [wordBytes PacketType.scUserJoin.code, pl.nicknameField]
                  ((env.order room.users).filter (· ≠ sid))] := by
              apply deliveries_cons_congr
              intro htargets
              have husers : (c.rooms i).users ≠ [] :=
                fun hempty => htargets (targets_nil_of_empty env henter hempty)
              rw [hagree.nicknameField (hfilled pl i hc hroom hget (by rw [henter]) husers)]
            exact congrArg (deliveries [.send [wordBytes PacketType.scRoomEnterRes.code,
              [ResultCode.success.code], wordBytes (pkt.readWord env.no).1] [sid]] ++ ·) hnotice

theorem handleRoomLeave_same (h : Alike filled c c')
    (hfilled : ∀ pl i, c.players.lookup sid = some pl → pl.state = .inRoom →
      getRoom pl.roomNo = some i → ((c.rooms i).leaveRoom sid).users ≠ [] →
      maxNicknameLen ≤ filled sid) :
    SameStep filled (handleRoomLeave env c sid) (handleRoomLeave env c' sid) := by
  rcases h.players sid with ⟨hc, hc'⟩ | ⟨pl, pl', hc, hc', hagree⟩
  · simp only [handleRoomLeave, hc, hc']
    exact h.quiet
  · by_cases hroom : pl.state = .inRoom
    · cases hget : getRoom pl.roomNo with
      | none =>
          simp only [handleRoomLeave, hc, hc', hagree.state, hagree.roomNo, hroom, hget, ne_eq,
            not_true_eq_false, if_false]
          exact h.quiet
      | some i =>
          simp only [handleRoomLeave, hc, hc', hagree.state, hagree.roomNo, hroom, hget, h.rooms,
            ne_eq, not_true_eq_false, if_false]
          refine ⟨?_, h.insert_same sid hagree.leave _⟩
          apply deliveries_cons_congr
          intro htargets
          rw [hagree.leave.nicknameField
            (hfilled pl i hc hroom hget (users_ne_nil_of_order env htargets))]
    · simp only [handleRoomLeave, hc, hc', hagree.state, hroom, ne_eq, not_false_eq_true,
        if_true]
      exact h.quiet

theorem handleChat_same (h : Alike filled c c')
    (hfilled : ∀ pl i, (pkt.readWord env.chatLen).1.toNat ≤ maxChatLen →
      c.players.lookup sid = some pl → pl.state = .inRoom → getRoom pl.roomNo = some i →
      (c.rooms i).users ≠ [] → maxNicknameLen ≤ filled sid) :
    SameStep filled (handleChat env c sid pkt) (handleChat env c' sid pkt) := by
  refine ⟨?_, by rwa [handleChat_content, handleChat_content]⟩
  rcases Nat.lt_or_ge maxChatLen (pkt.readWord env.chatLen).1.toNat with hlong | hshort
  · rw [handleChat_of_long env hlong, handleChat_of_long env hlong]
  · rcases h.players sid with ⟨hc, hc'⟩ | ⟨pl, pl', hc, hc', hagree⟩
    · simp only [handleChat, hc, hc', ite_self]
    · rcases em (pl.state = .inRoom → getRoom pl.roomNo = none) with hunheard | hheard
      · have hunheard' : pl'.state = .inRoom → getRoom pl'.roomNo = none := by
          rwa [hagree.state, hagree.roomNo]
        rw [handleChat_of_unheard env hc hunheard, handleChat_of_unheard env hc' hunheard']
      · push Not at hheard
        obtain ⟨hroom, hsome⟩ := hheard
        obtain ⟨i, hget⟩ := Option.ne_none_iff_exists'.mp hsome
        rw [handleChat_of_heard env hc hroom hget hshort,
          handleChat_of_heard env hc' (hagree.state.trans hroom) (hagree.roomNo ▸ hget) hshort,
          h.rooms]
        apply deliveries_cons_congr
        intro htargets
        rw [hagree.nicknameField
          (hfilled pl i hshort hc hroom hget (users_ne_nil_of_order env htargets))]

theorem handleRecv_same (h : Alike filled c c') {pkt : CPacket}
    (hfilled : ∀ pl, c.players.lookup sid = some pl → Announced c env sid pkt pl →
      maxNicknameLen ≤ filled sid) :
    SameStep filled (handleRecv env c sid pkt) (handleRecv env c' sid pkt) := by
  cases dispatch env sid pkt with
  | login _ hlogin =>
      rw [hlogin, hlogin]
      refine ⟨?_, by rwa [handleLogin_content, handleLogin_content]⟩
      rw [handleLogin_deliveries, handleLogin_deliveries]
  | signUp _ hsignUp =>
      rw [hsignUp, hsignUp]
      refine ⟨?_, by rwa [handleSignUp_content, handleSignUp_content]⟩
      rw [handleSignUp_deliveries, handleSignUp_deliveries]
  | roomEnter htype henter =>
      have hrequest : enterRequest env pkt =
          some ((pkt.readWord env.type).2.readWord env.no).1 := if_pos htype
      rw [henter, henter]
      apply handleRoomEnter_same env h
      intro pl i hpl hroom hget hentered husers
      exact hfilled pl hpl (.inl ⟨hroom, _, i, hrequest, hget, hentered, husers⟩)
  | roomLeave htype hleave =>
      rw [hleave, hleave]
      apply handleRoomLeave_same env h
      intro pl i hpl hroom hget husers
      exact hfilled pl hpl (.inr ⟨hroom, i, hget, .inl ⟨htype, husers⟩⟩)
  | chat htype hchat =>
      rw [hchat, hchat]
      apply handleChat_same env h
      intro pl i hshort hpl hroom hget husers
      exact hfilled pl hpl (.inr ⟨hroom, i, hget, .inr ⟨⟨htype, hshort⟩, husers⟩⟩)
  | unknown _ _ hunknown =>
      rw [hunknown, hunknown]
      exact h.quiet

end Handlers

section Steps

variable {filled : SessionID → Nat} {c c' : Content}

theorem handleJoin_alike (h : Alike filled c c') (sid : SessionID) (env env' : Env) :
    Alike (if c.players.lookup sid = none then Function.update filled sid 1 else filled)
      (handleJoin env c sid) (handleJoin env' c' sid) := by
  rcases h.players sid with ⟨hc, hc'⟩ | ⟨pl, pl', hc, hc', -⟩
  · simp only [handleJoin, hc, hc', if_true, h.rooms]
    exact h.insert sid (Agree.new sid env.playerMemory env'.playerMemory) c.rooms
  · simp only [handleJoin, hc, hc', reduceCtorEq, if_false]
    exact h

theorem handleLeave_alike (h : Alike filled c c') (sid : SessionID) :
    Alike filled (handleLeave c sid) (handleLeave c' sid) := by
  rcases h.players sid with ⟨hc, hc'⟩ | ⟨pl, pl', hc, hc', hagree⟩
  · simp only [handleLeave, hc, hc']
    exact h
  · simp only [handleLeave, hc, hc', hagree.state, hagree.roomNo, h.rooms]
    exact h.erase sid _

theorem Alike.refill (h : Alike filled c c') {sid : SessionID}
    (hgone : c.players.lookup sid = none) (k : Nat) :
    Alike (Function.update filled sid k) c c' := by
  refine ⟨h.rooms, ?_⟩
  intro other
  rcases h.players other with hnone | ⟨pl, pl', hc, hc', hagree⟩
  · exact .inl hnone
  · have hne : other ≠ sid := by
      rintro rfl
      cases hgone.symm.trans hc
    refine .inr ⟨pl, pl', hc, hc', ?_⟩
    rwa [Function.update_of_ne hne]

/-- Two results that differ in what has not been written of the nickname. -/
structure SameResult (toAcp : List UInt16 → List UInt8) (r r' : DBResult) : Prop where
  sid : r'.sid = r.sid
  type : r'.type = r.type
  result : r'.result = r.result
  userNo : r'.userNo = r.userNo
  acpNickname : r.type = .login → acpNickname toAcp r' = acpNickname toAcp r

theorem sameResult_process (toAcp : List UInt16 → List UInt8) (m m' : Nat → UInt16)
    (job : DBJob) (reply : Option DbReply) :
    SameResult toAcp (process m job reply) (process m' job reply) := by
  obtain ⟨hsid, htype⟩ := process_answers m job reply
  obtain ⟨hsid', htype'⟩ := process_answers m' job reply
  obtain ⟨hresult, huserNo⟩ : (process m' job reply).result = (process m job reply).result ∧
      (process m' job reply).userNo = (process m job reply).userNo := process_answer_eq m m' reply
  refine ⟨hsid'.trans hsid.symm, htype'.trans htype.symm, hresult, huserNo, ?_⟩
  intro hlogin
  exact acpNickname_process m m' reply toAcp (htype.symm.trans hlogin)

theorem handleDbResult_same (toAcp : List UInt16 → List UInt8) (h : Alike filled c c')
    {r r' : DBResult} (hr : SameResult toAcp r r')
    (hfield : r.type = .login → (c.players.lookup r.sid).isSome →
      slice r'.nickname 0 maxNicknameLen = slice r.nickname 0 maxNicknameLen) :
    SameStep (if r.type = .login ∧ mapLoginResult r.result = .success then
        Function.update filled r.sid
          (max (filled r.sid) ((CPlayer.cString (acpNickname toAcp r)).length + 1))
      else filled) (handleDbResult toAcp c r) (handleDbResult toAcp c' r') := by
  obtain ⟨_, _, _, _, nickname⟩ := r
  obtain ⟨type, sid, result, userNo, nickname'⟩ := r'
  obtain ⟨hsid, htype, hresult, huserNo, hacp⟩ := hr
  dsimp only at hsid htype hresult huserNo hfield ⊢
  subst hsid htype hresult huserNo
  rcases h.players sid with ⟨hc, hc'⟩ | ⟨pl, pl', hc, hc', hagree⟩
  · simp only [handleDbResult, hc, hc']
    split
    · exact (h.refill hc _).quiet
    · exact h.quiet
  · cases type with
    | signUp =>
        simp only [handleDbResult, hc, hc', reduceCtorEq, false_and, if_false]
        exact ⟨rfl, h⟩
    | login =>
        have hnickname := hfield rfl (by rw [hc]; rfl)
        simp only [handleDbResult, hc, hc', true_and, hnickname, hacp rfl]
        refine ⟨rfl, ?_⟩
        split
        · rw [h.rooms]
          exact h.insert sid (hagree.login _ _) c.rooms
        · exact h

theorem outcome_same (toAcp : List UInt16 → List UInt8) {w : Watched}
    (h : Alike w.filled w.content c') {e e' : Step × Memory} (he : e.1 = e'.1)
    (hfilled : FieldsFilled w e) :
    SameStep (noteFilled toAcp w e) (outcome toAcp w.content (event e))
      (outcome toAcp c' (event e')) := by
  obtain ⟨step, m⟩ := e
  obtain ⟨_, m'⟩ := e'
  obtain rfl : step = _ := he
  cases step with
  | join sid =>
      refine ⟨rfl, ?_⟩
      have halike := handleJoin_alike h sid { zeroEnv with playerMemory := m.player }
        { zeroEnv with playerMemory := m'.player }
      simp only [noteFilled]
      cases hpl : w.content.players.lookup sid with
      | none => rwa [if_pos hpl] at halike
      | some pl => rwa [if_neg (by rw [hpl]; exact nofun)] at halike
  | leave sid => exact ⟨rfl, handleLeave_alike h sid⟩
  | recv env sid pkt => exact handleRecv_same env h hfilled
  | dbReply job reply =>
      obtain ⟨hsid, htype⟩ := process_answers m.result job reply
      apply handleDbResult_same toAcp h (sameResult_process toAcp m.result m'.result job reply)
      intro hlogin hlive
      rw [htype] at hlogin
      rw [hsid] at hlive
      exact field_process m.result m'.result reply hlogin (hfilled hlogin hlive)

end Steps

theorem sent_eq_outputs_watch (toAcp : List UInt16 → List UInt8) (w : Watched)
    (events : List (Step × Memory)) :
    outputs (fun c e => (outcome toAcp c (event e)).1)
        (fun c e => deliveries (outcome toAcp c (event e)).2) w.content events =
      outputs (watch toAcp) (fun w e => deliveries (outcome toAcp w.content (event e)).2) w
        events := by
  induction events generalizing w with
  | nil => rfl
  | cons e events ih =>
      rw [outputs, outputs]
      exact congrArg _ (ih (watch toAcp w e))

/-- In a run that only sends nickname fields that have been written whole, what is sent
does not depend on what stood in memory. -/
theorem sent_eq_of_filled (toAcp : List UInt16 → List UInt8)
    {events events' : List (Step × Memory)}
    (hsame : events.map Prod.fst = events'.map Prod.fst)
    (hfilled : Meets (fun w e => some (watch toAcp w e)) FieldsFilled unwatched events) :
    sent toAcp events' = sent toAcp events := by
  have hpairs : List.Forall₂ (fun e e' : Step × Memory => e.1 = e'.1) events events' := by
    rw [← List.forall₂_eq_eq_eq] at hsame
    exact List.forall₂_map_right_iff.mp (List.forall₂_map_left_iff.mp hsame)
  rw [sent, sent, show Content.initial = unwatched.content from rfl,
    sent_eq_outputs_watch toAcp unwatched events]
  refine outputs_eq_of_unwinding (R := fun w c' => Alike w.filled w.content c') ?_
    (Alike.initial _) hpairs hfilled
  rintro w c' e e' halike he hguard
  obtain ⟨hout, hnext⟩ := outcome_same toAcp halike he hguard
  exact ⟨hout, hnext⟩

def wideNickname (length : Nat) : Nat → UInt16 := fun i => if i < length then 65 else 0

def loginJob (sid : SessionID) : DBJob :=
  ⟨.login, sid, fun _ => 0, fun _ => 0, fun _ => 0⟩

def enterFirstRoom (sid : SessionID) : Step :=
  .recv zeroEnv sid (CPacket.new.attachRaw [2, 0, 1, 0])

/-- Two players log in under nicknames of 31 characters and meet in a room. -/
def longNicknames : List Step :=
  [.join 1#64, .join 2#64, .dbReply (loginJob 1#64) (some ⟨0, 7, wideNickname 31⟩),
    .dbReply (loginJob 2#64) (some ⟨0, 8, wideNickname 31⟩), enterFirstRoom 1#64,
    enterFirstRoom 2#64]

/-- A player fails to log in, and two players who never did meet in a room. -/
def strangers : List Step :=
  [.join 1#64, .join 2#64, .dbReply (loginJob 1#64) none, enterFirstRoom 1#64,
    enterFirstRoom 2#64]

/-- Memory that happens to hold the same value throughout. -/
def filledWith (x : Nat) : Memory where
  player := fun _ => x.toUInt8
  result := fun _ => x.toUInt16

def narrow (name : List UInt16) : List UInt8 := name.map UInt16.toUInt8

theorem sent_eq_of_filled_longNicknames :
    (sent narrow (longNicknames.map (·, filledWith 7))).length = 5 ∧
    sent narrow (longNicknames.map (·, filledWith 8)) =
      sent narrow (longNicknames.map (·, filledWith 7)) := by
  refine ⟨by decide, sent_eq_of_filled narrow (by simp [List.map_map]) ?_⟩
  refine ⟨trivial, trivial, ?_, ?_, ?_, ?_, trivial⟩
  · exact fun _ _ => by decide
  · exact fun _ _ => by decide
  · exact fun _ _ _ => by decide
  · exact fun _ _ _ => by decide

/-- Both the login response and the join notice show the memory. -/
theorem strangers_see_memory :
    sent narrow (strangers.map (·, filledWith 8)) ≠ sent narrow (strangers.map (·, filledWith 7)) ∧
    sent narrow (strangers.map (·, filledWith 7)) =
      [([101, 0, 6, 0, 0, 0, 0, 0, 0] ++ (List.replicate 31 [7, 0]).flatten, 1#64),
        ([102, 0, 0, 1, 0], 1#64), ([102, 0, 0, 1, 0], 2#64),
        ([104, 0, 0] ++ List.replicate 31 7, 1#64)] := by
  decide

end IocpChat.ResponseMemory
