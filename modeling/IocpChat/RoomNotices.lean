import IocpChat.ContentSteps

namespace IocpChat.RoomNotices

open IocpChat.Protocol
open IocpChat.PacketBuffer
open IocpChat.ContentHandlers
open IocpChat.LabelledRun
open IocpChat.RoomMembership
open IocpChat.ContentSteps

/-- What a user of a room has seen since it entered: the notices about each
session, and the users there were. -/
structure View where
  joins : SessionID → Nat
  leaves : SessionID → Nat
  present : SessionID → Bool

/-- The content, and what every session has seen of every room. -/
structure Observed where
  content : Content
  view : Fin maxRoomCount → SessionID → View

/-- Nobody has joined. -/
def unobserved : Observed where
  content := Content.initial
  view := fun _ _ => ⟨fun _ => 0, fun _ => 0, fun _ => false⟩

/-- The session an event is about, and so are the notices its handler sends. -/
def subject : Event → SessionID
  | .join _ sid => sid
  | .leave sid => sid
  | .recv _ sid _ => sid
  | .dbResult r => r.sid

/-- A user of the room counts the notices sent to it; any other session would
enter with a view of the users there are. -/
def observe (toAcp : List UInt16 → List UInt8) (w : Observed) (e : Event) : Observed where
  content := handle toAcp w.content e
  view := fun r o =>
    if o ∈ (w.content.rooms r).users then
      { joins := fun x => (w.view r o).joins x +
          if x = subject e then (allSentTo .scUserJoin (outcome toAcp w.content e).2).count o
          else 0
        leaves := fun x => (w.view r o).leaves x +
          if x = subject e then (allSentTo .scUserLeave (outcome toAcp w.content e).2).count o
          else 0
        present := (w.view r o).present }
    else
      { joins := fun _ => 0
        leaves := fun _ => 0
        present := fun x => decide (x ∈ ((handle toAcp w.content e).rooms r).users) }

/-- As a step function, which takes every event. -/
def observeStep (toAcp : List UInt16 → List UInt8) (w : Observed) (e : Event) :
    Option Observed :=
  some (observe toAcp w e)

/-- 1 if `x` is a user of the room. -/
def listed (c : Content) (r : Fin maxRoomCount) (x : SessionID) : Int :=
  if x ∈ (c.rooms r).users then 1 else 0

/-- Every user of a room has been told of every change among the others since it
entered. -/
def RosterRight (w : Observed) : Prop :=
  ∀ r o, o ∈ (w.content.rooms r).users → ∀ x, x ≠ o →
    ((w.view r o).joins x : Int) - (w.view r o).leaves x =
      listed w.content r x - if (w.view r o).present x then 1 else 0

/-- The session is a user of no other room. -/
def OnlyIn (c : Content) (i : Fin maxRoomCount) (o : SessionID) : Prop :=
  ∀ j, o ∈ (c.rooms j).users → j = i

/-- No player disconnects out of a room with other users; no player that is in a
room takes a place among others; and where a player enters or leaves a room, its
other users are users of no other room. -/
def RosterSafe (c : Content) : Event → Prop
  | .join _ _ => True
  | .leave sid =>
      ∀ pl i, c.players.lookup sid = some pl → pl.state = .inRoom →
        getRoom pl.roomNo = some i → ∀ o ∈ (c.rooms i).users, o = sid
  | .recv env sid pkt =>
      (∀ no pl i, enterRequest env pkt = some no → c.players.lookup sid = some pl →
        getRoom no = some i → ((c.rooms i).enterRoom sid).1 = true →
          ∀ o ∈ (c.rooms i).users, pl.state ≠ .inRoom ∧ OnlyIn c i o) ∧
      (∀ pl i, LeaveRequest env pkt → c.players.lookup sid = some pl → pl.state = .inRoom →
        getRoom pl.roomNo = some i → ∀ o ∈ (c.rooms i).users, o ≠ sid → OnlyIn c i o)
  | .dbResult _ => True

/-- The notices of a step match the changes of the rooms, as each user that stays
sees them. -/
def Announced (c c' : Content) (sid : SessionID) (effects : List Effect) : Prop :=
  ∀ r o, o ∈ (c.rooms r).users → o ∈ (c'.rooms r).users → ∀ x, x ≠ o →
    listed c' r x - listed c r x =
      if x = sid then
        ((allSentTo .scUserJoin effects).count o : Int) -
          (allSentTo .scUserLeave effects).count o
      else 0

theorem rosterRight_observe_iff (toAcp : List UInt16 → List UInt8) {w : Observed}
    (hw : RosterRight w) (e : Event) :
    RosterRight (observe toAcp w e) ↔
      Announced w.content (handle toAcp w.content e) (subject e)
        (outcome toAcp w.content e).2 := by
  constructor
  · intro hright r o hbefore hafter x hx
    have hold := hw r o hbefore x hx
    have hnew := hright r o hafter x hx
    simp only [observe, if_pos hbefore] at hnew
    by_cases hsubject : x = subject e
    · simp only [if_pos hsubject] at hnew ⊢
      push_cast at hnew
      omega
    · simp only [if_neg hsubject] at hnew ⊢
      push_cast at hnew
      omega
  · intro hannounced r o hafter x hx
    by_cases hbefore : o ∈ (w.content.rooms r).users
    · have hold := hw r o hbefore x hx
      have hstep := hannounced r o hbefore hafter x hx
      simp only [observe, if_pos hbefore]
      by_cases hsubject : x = subject e
      · simp only [if_pos hsubject] at hstep ⊢
        push_cast
        omega
      · simp only [if_neg hsubject] at hstep ⊢
        push_cast
        omega
    · simp only [observe, if_neg hbefore, listed]
      by_cases hmem : x ∈ ((handle toAcp w.content e).rooms r).users <;> simp [hmem]

/-- A player in a room is a user of the room it names. -/
def Listed (c : Content) : Prop :=
  ∀ sid pl i, c.players.lookup sid = some pl → pl.state = .inRoom →
    getRoom pl.roomNo = some i → sid ∈ (c.rooms i).users

theorem mem_update_of_mem {c : Content} {i j : Fin maxRoomCount} {room : CRoom}
    {sid other : SessionID} (henter : (c.rooms i).enterRoom sid = (true, room))
    (hmem : other ∈ (c.rooms j).users) :
    other ∈ (Function.update c.rooms i room j).users := by
  by_cases hj : j = i
  · subst hj
    rw [Function.update_self]
    exact (mem_enterRoom henter other).mpr (.inr hmem)
  · rwa [Function.update_of_ne hj]

theorem listed_outcome {c c' : Content} {e : Event} {effects : List Effect} (hc : Listed c)
    (hout : Outcome c e c' effects) : Listed c' := by
  cases hout with
  | joinKnown => exact hc
  | joined env sid hpl =>
      intro other pl' i hlookup hstate hget
      rcases lookup_insert_cases hlookup with ⟨-, rfl⟩ | ⟨-, hold⟩
      · simp [CPlayer.new] at hstate
      · exact hc other pl' i hold hstate hget
  | leaveUnknown => exact hc
  | leftLobby =>
      intro other pl' i hlookup hstate hget
      exact hc other pl' i (lookup_erase_of hlookup) hstate hget
  | leftRoom sid pl j hpl hroom hget =>
      intro other pl' i hlookup hstate hget'
      have hother : other ≠ sid := by
        rintro rfl
        simp at hlookup
      rw [mem_update_leaveRoom]
      exact ⟨hc other pl' i (lookup_erase_of hlookup) hstate hget', fun h => hother h.1⟩
  | recvQuiet => exact hc
  | roomLeft env sid pkt pl j hrequest hleave hpl hroom hget =>
      intro other pl' i hlookup hstate hget'
      rcases lookup_insert_cases hlookup with ⟨-, rfl⟩ | ⟨hother, hold⟩
      · simp [CPlayer.leaveRoom, hroom] at hstate
      · rw [mem_update_leaveRoom]
        exact ⟨hc other pl' i hold hstate hget', fun h => hother h.1⟩
  | enterRefused => exact hc
  | placeTaken env sid pkt no pl j room hrequest hpl hget henter hroom =>
      intro other pl' i hlookup hstate hget'
      exact mem_update_of_mem henter (hc other pl' i hlookup hstate hget')
  | entered env sid pkt no pl j room hrequest hpl hget henter hroom =>
      intro other pl' i hlookup hstate hget'
      rcases lookup_insert_cases hlookup with ⟨rfl, rfl⟩ | ⟨-, hold⟩
      · have hij : j = i := Option.some.inj (hget.symm.trans hget')
        subst hij
        change other ∈ (Function.update c.rooms j room j).users
        rw [Function.update_self]
        exact (mem_enterRoom henter other).mpr (.inl rfl)
      · exact mem_update_of_mem henter (hc other pl' i hold hstate hget')
  | dbQuiet => exact hc
  | loggedIn r pl name effects hpl htype hresult hquiet =>
      intro other pl' i hlookup hstate hget
      rcases lookup_insert_cases hlookup with ⟨-, rfl⟩ | ⟨-, hold⟩
      · simp [CPlayer.setNickname] at hstate
      · exact hc other pl' i hold hstate hget

theorem announced_of_noNotice {c c' : Content} {sid : SessionID} {effects : List Effect}
    (hrooms : c'.rooms = c.rooms) (hquiet : NoNotice effects) : Announced c c' sid effects := by
  intro r o _ _ x _
  simp [listed, hrooms, hquiet.1, hquiet.2]

theorem count_order (env : Env) {users : List SessionID} (hnodup : users.Nodup)
    (o : SessionID) : (env.order users).count o = if o ∈ users then 1 else 0 := by
  rw [(env.order_perm users).count_eq o]
  split
  · rename_i hmem
    exact List.count_eq_one_of_mem hnodup hmem
  · rename_i hmem
    exact List.count_eq_zero.mpr hmem

theorem announced_removed_iff {c : Content} {players : AList fun _ : SessionID => CPlayer}
    {i : Fin maxRoomCount} {sid : SessionID} (hmem : sid ∈ (c.rooms i).users) :
    Announced c ⟨players, Function.update c.rooms i ((c.rooms i).leaveRoom sid)⟩ sid [] ↔
      ∀ o ∈ (c.rooms i).users, o = sid := by
  constructor
  · intro hannounced o ho
    by_contra hne
    have hstays : o ∈ (Function.update c.rooms i ((c.rooms i).leaveRoom sid) i).users := by
      rw [mem_update_leaveRoom]
      exact ⟨ho, fun h => hne h.1⟩
    have h := hannounced i o ho hstays sid (Ne.symm hne)
    simp [listed, hmem, allSentTo] at h
  · intro halone r o hbefore hafter x hx
    rw [mem_update_leaveRoom] at hafter
    have hother : ∀ y, y ∈ (Function.update c.rooms i ((c.rooms i).leaveRoom sid) r).users ↔
        y ∈ (c.rooms r).users := by
      intro y
      rw [mem_update_leaveRoom]
      have hr : r ≠ i := by
        rintro rfl
        exact hafter.2 ⟨halone o hbefore, rfl⟩
      simp [Ne.symm hr]
    simp [listed, hother, allSentTo]

theorem announced_added_iff {c : Content} {players : AList fun _ : SessionID => CPlayer}
    {i : Fin maxRoomCount} {room : CRoom} {sid : SessionID}
    (henter : (c.rooms i).enterRoom sid = (true, room)) :
    Announced c ⟨players, Function.update c.rooms i room⟩ sid [] ↔ (c.rooms i).users = [] := by
  obtain ⟨-, hnew⟩ := (enterRoom_fst (c.rooms i) sid).mp (by rw [henter])
  constructor
  · intro hannounced
    rw [List.eq_nil_iff_forall_not_mem]
    intro o ho
    have hne : sid ≠ o := by
      rintro rfl
      exact hnew ho
    have h := hannounced i o ho (mem_update_of_mem henter ho) sid hne
    simp [listed, allSentTo, hnew, (mem_enterRoom henter sid).mpr (.inl rfl)] at h
  · intro hempty r o hbefore _ x _
    have hr : r ≠ i := by
      rintro rfl
      simp [hempty] at hbefore
    simp [listed, allSentTo, Function.update_of_ne hr]

theorem listed_eq_one {c : Content} {r : Fin maxRoomCount} {x : SessionID} :
    listed c r x = 1 ↔ x ∈ (c.rooms r).users := by
  simp [listed]

/-- A room changes by one session, and every other user of it gets one notice:
the count is right for all who see it exactly if none of them is in another room,
where nothing has changed. -/
theorem announced_noticed_iff {c c' : Content} {i : Fin maxRoomCount} {sid : SessionID}
    {effects : List Effect} (change : Int) (hchange : change ≠ 0)
    (hrooms : ∀ r x, listed c' r x = listed c r x + if r = i ∧ x = sid then change else 0)
    (hcount : ∀ o, ((allSentTo .scUserJoin effects).count o : Int) -
      (allSentTo .scUserLeave effects).count o =
        if o ∈ (c.rooms i).users ∧ o ≠ sid then change else 0) :
    Announced c c' sid effects ↔ ∀ o ∈ (c.rooms i).users, o ≠ sid → OnlyIn c i o := by
  constructor
  · intro hannounced o ho hne j hj
    by_contra hji
    have hstays : o ∈ (c'.rooms j).users := by
      rw [← listed_eq_one, hrooms, if_neg (fun h => hji h.1), add_zero, listed_eq_one]
      exact hj
    have h := hannounced j o hj hstays sid (Ne.symm hne)
    rw [if_pos rfl, hcount, if_pos ⟨ho, hne⟩, hrooms, if_neg (fun h => hji h.1)] at h
    omega
  · intro honly r o hbefore _ x hx
    rw [hrooms, hcount]
    by_cases hsid : x = sid
    · subst hsid
      by_cases hr : r = i
      · subst hr
        rw [if_pos ⟨rfl, rfl⟩, if_pos rfl, if_pos ⟨hbefore, Ne.symm hx⟩]
        omega
      · have hout : ¬ (o ∈ (c.rooms i).users ∧ o ≠ x) :=
          fun h => hr (honly o h.1 h.2 r hbefore)
        rw [if_neg (fun h => hr h.1), if_pos rfl, if_neg hout]
        omega
    · rw [if_neg (fun h => hsid h.2), if_neg hsid]
      omega

theorem listed_leaveRoom {c : Content} {players : AList fun _ : SessionID => CPlayer}
    {i : Fin maxRoomCount} {sid : SessionID} (hmem : sid ∈ (c.rooms i).users)
    (r : Fin maxRoomCount) (x : SessionID) :
    listed ⟨players, Function.update c.rooms i ((c.rooms i).leaveRoom sid)⟩ r x =
      listed c r x + if r = i ∧ x = sid then -1 else 0 := by
  simp only [listed, mem_update_leaveRoom]
  by_cases hchanged : r = i ∧ x = sid
  · obtain ⟨rfl, rfl⟩ := hchanged
    simp [hmem]
  · have hsame : ¬ (x = sid ∧ i = r) := fun h => hchanged ⟨h.2.symm, h.1⟩
    simp [hchanged, hsame]

theorem listed_enterRoom {c : Content} {players : AList fun _ : SessionID => CPlayer}
    {i : Fin maxRoomCount} {room : CRoom} {sid : SessionID}
    (henter : (c.rooms i).enterRoom sid = (true, room)) (r : Fin maxRoomCount) (x : SessionID) :
    listed ⟨players, Function.update c.rooms i room⟩ r x =
      listed c r x + if r = i ∧ x = sid then 1 else 0 := by
  obtain ⟨-, hnew⟩ := (enterRoom_fst (c.rooms i) sid).mp (by rw [henter])
  simp only [listed]
  by_cases hr : r = i
  · subst hr
    simp only [Function.update_self, mem_enterRoom henter]
    by_cases hx : x = sid
    · subst hx
      simp [hnew]
    · simp [hx]
  · simp [hr]

section Sent

variable (field answer : List UInt8) (targets asker : List SessionID) (no : UInt16)

theorem allSentTo_leave :
    allSentTo .scUserLeave [.send [wordBytes PacketType.scUserLeave.code, field] targets] =
      targets :=
  List.append_nil targets

theorem allSentTo_join_of_leave :
    allSentTo .scUserJoin [.send [wordBytes PacketType.scUserLeave.code, field] targets] = [] :=
  rfl

theorem allSentTo_join :
    allSentTo .scUserJoin
      [.send [wordBytes PacketType.scRoomEnterRes.code, answer, wordBytes no] asker,
        .send [wordBytes PacketType.scUserJoin.code, field] targets] = targets :=
  List.append_nil targets

theorem allSentTo_leave_of_join :
    allSentTo .scUserLeave
      [.send [wordBytes PacketType.scRoomEnterRes.code, answer, wordBytes no] asker,
        .send [wordBytes PacketType.scUserJoin.code, field] targets] = [] :=
  rfl

end Sent

theorem rosterSafe_enter_iff {c : Content} {env : Env} {sid : SessionID} {pkt : CPacket}
    {no : UInt16} {pl : CPlayer} {i : Fin maxRoomCount} {room : CRoom}
    (hrequest : enterRequest env pkt = some no) (hpl : c.players.lookup sid = some pl)
    (hget : getRoom no = some i) (henter : (c.rooms i).enterRoom sid = (true, room)) :
    RosterSafe c (.recv env sid pkt) ↔
      ∀ o ∈ (c.rooms i).users, pl.state ≠ .inRoom ∧ OnlyIn c i o := by
  constructor
  · intro hsafe
    exact hsafe.1 no pl i hrequest hpl hget (by rw [henter])
  · intro hsafe
    refine ⟨?_, ?_⟩
    · intro no' pl' j hno' hpl' hget' _
      have hno : no = no' := Option.some.inj (hrequest.symm.trans hno')
      subst hno
      have hij : i = j := Option.some.inj (hget.symm.trans hget')
      subst hij
      have hsame : pl = pl' := Option.some.inj (hpl.symm.trans hpl')
      exact hsame ▸ hsafe
    · intro pl' j hleave
      exact absurd hleave (not_leaveRequest hrequest)

theorem announced_outcome_iff {c c' : Content} {e : Event} {effects : List Effect}
    (hc : Listed c) (hout : Outcome c e c' effects) :
    Announced c c' (subject e) effects ↔ RosterSafe c e := by
  cases hout with
  | joinKnown => exact iff_of_true (announced_of_noNotice rfl noNotice_nil) trivial
  | joined => exact iff_of_true (announced_of_noNotice rfl noNotice_nil) trivial
  | leaveUnknown sid hpl =>
      exact iff_of_true (announced_of_noNotice rfl noNotice_nil) (by simp [RosterSafe, hpl])
  | leftLobby sid pl hpl hroom =>
      refine iff_of_true (announced_of_noNotice rfl noNotice_nil) ?_
      intro pl' i hpl' hstate hget
      have hsame : pl = pl' := Option.some.inj (hpl.symm.trans hpl')
      subst hsame
      simp [hroom hstate] at hget
  | leftRoom sid pl i hpl hroom hget =>
      have hmem := hc sid pl i hpl hroom hget
      refine (announced_removed_iff hmem).trans ?_
      constructor
      · intro halone pl' j hpl' _ hget'
        have hsame : pl = pl' := Option.some.inj (hpl.symm.trans hpl')
        subst hsame
        have hij : i = j := Option.some.inj (hget.symm.trans hget')
        exact hij ▸ halone
      · intro hsafe
        exact hsafe pl i hpl hroom hget
  | recvQuiet env sid pkt effects hrequest hstay hquiet =>
      refine iff_of_true (announced_of_noNotice rfl hquiet) ⟨by simp [hrequest], ?_⟩
      intro pl i hleave hpl hstate hget
      simp [hstay hleave pl hpl hstate] at hget
  | roomLeft env sid pkt pl i hrequest hleave hpl hroom hget =>
      have hmem := hc sid pl i hpl hroom hget
      refine (announced_noticed_iff (-1) (by decide) (listed_leaveRoom hmem) ?_).trans ?_
      · intro o
        have hcount := count_order env ((c.rooms i).leaveRoom sid).nodup o
        rw [allSentTo_join_of_leave, allSentTo_leave, List.count_nil, hcount]
        simp only [CRoom.mem_leaveRoom, and_comm]
        split <;> simp
      · constructor
        · intro honly
          refine ⟨by simp [hrequest], ?_⟩
          intro pl' j _ hpl' _ hget'
          have hsame : pl = pl' := Option.some.inj (hpl.symm.trans hpl')
          subst hsame
          have hij : i = j := Option.some.inj (hget.symm.trans hget')
          exact hij ▸ honly
        · intro hsafe
          exact hsafe.2 pl i hleave hpl hroom hget
  | enterRefused env sid pkt no hrequest hrefused =>
      refine iff_of_true (announced_of_noNotice rfl noNotice_nil) ⟨?_, ?_⟩
      · intro no' pl i hno' hpl hget hfits
        have hno : no = no' := Option.some.inj (hrequest.symm.trans hno')
        subst hno
        obtain ⟨hroomy, hnew⟩ := (enterRoom_fst (c.rooms i) sid).mp hfits
        rcases hrefused pl hpl i hget with hmem | hfull
        · exact absurd hmem hnew
        · omega
      · intro pl i hleave
        exact absurd hleave (not_leaveRequest hrequest)
  | placeTaken env sid pkt no pl i room hrequest hpl hget henter hroom =>
      refine (announced_added_iff henter).trans ?_
      rw [rosterSafe_enter_iff hrequest hpl hget henter, List.eq_nil_iff_forall_not_mem]
      simp [hroom]
  | entered env sid pkt no pl i room hrequest hpl hget henter hroom =>
      obtain ⟨-, hnew⟩ := (enterRoom_fst (c.rooms i) sid).mp (by rw [henter])
      rw [rosterSafe_enter_iff hrequest hpl hget henter]
      refine (announced_noticed_iff 1 (by decide) (listed_enterRoom henter) ?_).trans ?_
      · intro o
        have hcount := count_order env room.nodup o
        rw [allSentTo_leave_of_join, allSentTo_join, List.count_nil]
        by_cases ho : o = sid
        · subst ho
          have hself : o ∉ (env.order room.users).filter (· ≠ o) := by simp
          simp only [List.count_eq_zero.mpr hself]
          simp
        · rw [List.count_filter (by simpa using ho), hcount]
          simp [mem_enterRoom henter, ho]
      · constructor
        · intro honly o ho
          exact ⟨hroom, honly o ho fun h => hnew (h ▸ ho)⟩
        · intro hsafe o ho _
          exact (hsafe o ho).2
  | dbQuiet r effects hfailed hquiet =>
      exact iff_of_true (announced_of_noNotice rfl hquiet) trivial
  | loggedIn r pl name effects hpl htype hresult hquiet =>
      exact iff_of_true (announced_of_noNotice rfl hquiet) trivial

/-- Along every sequence of messages and DB results every user's roster is right
in each state passed through exactly if every step is safe for the rosters. -/
theorem roster_right_iff_safe (toAcp : List UInt16 → List UInt8) (events : List Event) :
    Always (observeStep toAcp) RosterRight unobserved events ↔
      Meets (observeStep toAcp) (fun w => RosterSafe w.content) unobserved events := by
  have hout : ∀ (w : Observed) e, Outcome w.content e (handle toAcp w.content e)
      (outcome toAcp w.content e).2 := by
    intro w e
    have h := outcome_cases toAcp w.content e
    rwa [outcome_fst] at h
  apply always_iff_meets (J := fun w => Listed w.content)
  · intro w e v hlisted hstep
    rw [← Option.some.inj hstep]
    exact listed_outcome hlisted (hout w e)
  · intro w e v hlisted hright hstep
    rw [← Option.some.inj hstep, rosterRight_observe_iff toAcp hright]
    exact announced_outcome_iff hlisted (hout w e)
  · intro sid pl i hlookup
    simp [unobserved, Content.initial] at hlookup
  · intro r o hmem
    simp [unobserved, Content.initial, CRoom.empty] at hmem

/-- Two clients enter room 1, and the second one's connection drops. -/
def memberDrops : List Event :=
  [.join zeroEnv 1#64, .join zeroEnv 2#64,
    .recv zeroEnv 1#64 (CPacket.new.attachRaw [2, 0, 1, 0]),
    .recv zeroEnv 2#64 (CPacket.new.attachRaw [2, 0, 1, 0]),
    .leave 2#64]

theorem roster_wrong_after_memberDrops :
    ∃ w, run (observeStep fun _ => []) unobserved memberDrops = some w ∧
      (w.view ⟨0, by decide⟩ 1#64).joins 2#64 = 1 ∧
      (w.view ⟨0, by decide⟩ 1#64).leaves 2#64 = 0 ∧
      2#64 ∉ (w.content.rooms ⟨0, by decide⟩).users ∧ ¬ RosterRight w := by
  refine ⟨_, rfl, by decide, by decide, by decide, ?_⟩
  intro h
  exact absurd (h ⟨0, by decide⟩ 1#64 (by decide) 2#64 (by decide)) (by decide)

end IocpChat.RoomNotices
