import IocpChat.ServerOutline

namespace IocpChat.SessionBooks

open IocpChat.Protocol
open IocpChat.PacketBuffer
open IocpChat.ContentHandlers
open IocpChat.LanServer
open IocpChat.MessageOrigin
open IocpChat.ServerOutline

/-- What the content layer is told about a session. -/
inductive Notice where
  | join
  | leave
  deriving DecidableEq, Repr

/-- What a callback tells about `sid`. -/
def told (sid : SessionID) : Call → Option Notice
  | .onClientJoin _ other => if other = sid then some .join else none
  | .onClientLeave _ other => if other = sid then some .leave else none
  | .initSession _ _ => none
  | .releaseSession _ => none

/-- What a message tells about `sid`. -/
def tells (sid : SessionID) : Message → Option Notice
  | .join other => if other = sid then some .join else none
  | .leave other => if other = sid then some .leave else none
  | .recv _ _ => none

/-- The calls of `OnClientJoin` and `OnClientLeave` for this identifier. -/
def notices (calls : List Call) (sid : SessionID) : List Notice := calls.filterMap (told sid)

/-- Those of them whose messages the update thread has not taken yet. -/
def waiting (queue : List Message) (sid : SessionID) : List Notice :=
  queue.filterMap (tells sid)

/-- The message tells of a join. -/
def isJoin : Message → Bool
  | .join _ => true
  | _ => false

/-- The message tells of a leave. -/
def isLeave : Message → Bool
  | .leave _ => true
  | _ => false

section Lists

variable {calls : List Call} {sid : SessionID}

theorem notices_append (calls more : List Call) (sid : SessionID) :
    notices (calls ++ more) sid = notices calls sid ++ notices more sid :=
  List.filterMap_append

theorem waiting_append (queue more : List Message) (sid : SessionID) :
    waiting (queue ++ more) sid = waiting queue sid ++ waiting more sid :=
  List.filterMap_append

theorem join_of_notices {rest : List Notice} (h : notices calls sid = .join :: rest) :
    ∃ idx, .onClientJoin idx sid ∈ calls := by
  have hmem : Notice.join ∈ notices calls sid := by simp [h]
  obtain ⟨c, hc, hjoin⟩ := List.mem_filterMap.mp hmem
  cases c with
  | onClientJoin idx other =>
      have hsid : other = sid := by simpa [told] using hjoin
      exact ⟨idx, hsid ▸ hc⟩
  | onClientLeave idx other => simp [told] at hjoin
  | initSession idx other => simp [told] at hjoin
  | releaseSession idx => simp [told] at hjoin

theorem slot_unique {i j : Nat} (h : notices calls sid = [.join])
    (hi : .onClientJoin i sid ∈ calls) (hj : .onClientJoin j sid ∈ calls) : i = j := by
  obtain ⟨before, c, after, hcalls, hbefore, hc, hafter⟩ := List.filterMap_eq_cons_iff.mp h
  have honly : ∀ k, .onClientJoin k sid ∈ calls → .onClientJoin k sid = c := by
    intro k hk
    rw [hcalls, List.mem_append, List.mem_cons] at hk
    rcases hk with hk | hk | hk
    · exact absurd (hbefore _ hk) (by simp [told])
    · exact hk
    · have hnone := List.filterMap_eq_nil_iff.mp hafter _ hk
      exact absurd hnone (by simp [told])
  exact (Call.onClientJoin.inj ((honly i hi).trans (honly j hj).symm)).1

theorem done_of_join {done rest : List Notice}
    (h : done ++ .join :: rest <+: [.join, .leave]) : done = [] := by
  rcases done with _ | ⟨first, _ | ⟨second, done⟩⟩
  · rfl
  · simp [List.cons_prefix_cons] at h
  · simp [List.cons_prefix_cons] at h

theorem done_of_leave {done rest : List Notice}
    (h : done ++ .leave :: rest <+: [.join, .leave]) : done = [.join] := by
  rcases done with _ | ⟨first, _ | ⟨second, done⟩⟩
  · simp [List.cons_prefix_cons] at h
  · simp only [List.cons_append, List.cons_prefix_cons] at h
    rw [h.1]
  · simp [List.cons_prefix_cons] at h

end Lists

/-- The slots with a session that was joined and is not yet closed. -/
def openAt (o : Outline) (max : Nat) : Finset Nat :=
  (Finset.range max).filter fun idx =>
    o.closed idx = false ∧ .onClientJoin idx (o.sid idx) ∈ o.calls

/-- The books of the server agree with each other and with the players: every
session in use was announced before anything else was done with it, and of what
was announced about an identifier the update thread has handled a first part. -/
structure Books (o : Outline) (max : Nat) (players : AList fun _ : SessionID => CPlayer) :
    Prop where
  joined : ∀ idx, .initSession idx (o.sid idx) ∈ o.calls → o.closed idx = false →
    .onClientJoin idx (o.sid idx) ∈ o.calls
  issued : ∀ idx sid, .onClientJoin idx sid ∈ o.calls → .initSession idx sid ∈ o.calls
  once : ∀ idx, o.closed idx = false → .onClientJoin idx (o.sid idx) ∈ o.calls →
    notices o.calls (o.sid idx) = [.join]
  ordered : ∀ sid, notices o.calls sid <+: [.join, .leave]
  handled : ∀ sid, ∃ done, notices o.calls sid = done ++ waiting o.contentQ sid ∧
    (sid ∈ players ↔ done = [.join])
  sessions : o.totalAccept - o.totalDisconn = (openAt o max).card
  players : o.joinCnt - o.leaveCnt =
    players.keys.length + o.contentQ.countP isJoin - o.contentQ.countP isLeave

namespace Books

variable {o : Outline} {max idx : Nat} {players : AList fun _ : SessionID => CPlayer}

theorem receive (h : Books o max players) (p : PacketRef) :
    Books (o.receive idx p) max players := by
  refine ⟨h.joined, h.issued, h.once, h.ordered, ?_, h.sessions, ?_⟩
  · intro sid
    obtain ⟨done, hdone, hmem⟩ := h.handled sid
    refine ⟨done, ?_, hmem⟩
    have hnone : waiting [.recv (o.sid idx) p] sid = [] := rfl
    rwa [Outline.receive, waiting_append, hnone, List.append_nil]
  · simpa [Outline.receive, isJoin, isLeave] using h.players

theorem free (h : Books o max players) : Books (o.free idx) max players := by
  have hcalls (sid : SessionID) : notices (o.free idx).calls sid = notices o.calls sid := by
    rw [Outline.free, notices_append]
    simp [notices, told]
  have hopen : openAt (o.free idx) max = openAt o max := by
    simp [openAt, Outline.free]
  refine ⟨?_, ?_, ?_, ?_, ?_, ?_, h.players⟩
  · intro i hinit hclosed
    have hjoin := h.joined i (by simpa [Outline.free] using hinit) hclosed
    exact List.mem_append_left _ hjoin
  · intro i sid hjoin
    exact List.mem_append_left _ (h.issued i sid (by simpa [Outline.free] using hjoin))
  · intro i hclosed hjoin
    rw [hcalls]
    exact h.once i hclosed (by simpa [Outline.free] using hjoin)
  · intro sid
    rw [hcalls]
    exact h.ordered sid
  · intro sid
    rw [hcalls]
    exact h.handled sid
  · rw [hopen]
    exact h.sessions

theorem close (h : Books o max players) (hidx : idx < max)
    (hinit : .initSession idx (o.sid idx) ∈ o.calls) (hopen : o.closed idx = false) :
    Books (o.close idx) max players := by
  have hjoin := h.joined idx hinit hopen
  have honce := h.once idx hopen hjoin
  have hself : notices (o.close idx).calls (o.sid idx) = [.join, .leave] := by
    rw [Outline.close, notices_append, honce]
    simp [notices, told]
  have hother {sid : SessionID} (hne : sid ≠ o.sid idx) :
      notices (o.close idx).calls sid = notices o.calls sid := by
    rw [Outline.close, notices_append]
    simp [notices, told, hne.symm]
  have hset : openAt (o.close idx) max = (openAt o max).erase idx := by
    ext i
    rcases eq_or_ne i idx with rfl | hne
    · simp [openAt, Outline.close]
    · simp [openAt, Outline.close, hne]
  have hmem : idx ∈ openAt o max := by
    simp [openAt, hidx, hopen, hjoin]
  refine ⟨?_, ?_, ?_, ?_, ?_, ?_, ?_⟩
  · intro i hinit hclosed
    rcases eq_or_ne i idx with rfl | hne
    · simp [Outline.close] at hclosed
    · have hold := h.joined i (by simpa [Outline.close] using hinit)
        (by simpa [Outline.close, hne] using hclosed)
      exact List.mem_append_left _ hold
  · intro i sid hjoin
    exact List.mem_append_left _ (h.issued i sid (by simpa [Outline.close] using hjoin))
  · intro i hclosed hjoini
    rcases eq_or_ne i idx with rfl | hne
    · simp [Outline.close] at hclosed
    · have hjoini : .onClientJoin i (o.sid i) ∈ o.calls := by
        simpa [Outline.close] using hjoini
      have honcei := h.once i (by simpa [Outline.close, hne] using hclosed) hjoini
      have hsid : o.sid i ≠ o.sid idx := by
        intro heq
        exact hne (slot_unique honcei hjoini (heq ▸ hjoin))
      exact (hother hsid).trans honcei
  · intro sid
    rcases eq_or_ne sid (o.sid idx) with rfl | hne
    · rw [hself]
    · rw [hother hne]
      exact h.ordered sid
  · intro sid
    obtain ⟨done, hdone, hplayer⟩ := h.handled sid
    refine ⟨done, ?_, hplayer⟩
    rcases eq_or_ne sid (o.sid idx) with rfl | hne
    · rw [honce] at hdone
      rw [hself, Outline.close, waiting_append, ← List.append_assoc, ← hdone]
      simp [waiting, tells]
    · rw [hother hne, hdone, Outline.close, waiting_append]
      simp [waiting, tells, hne.symm]
  · have hcard := Finset.card_erase_add_one hmem
    have hold := h.sessions
    rw [hset]
    simp only [Outline.close]
    omega
  · have hold := h.players
    simp only [Outline.close, List.countP_append, List.countP_singleton, isJoin, isLeave,
      Bool.false_eq_true, if_true, if_false]
    omega

theorem openSession (h : Books o max players) (hidx : idx < max)
    (hfree : idx ∉ openAt o max)
    (hfresh : ∀ i, .initSession i (sessionId idx (o.generation idx + 1)) ∉ o.calls) :
    Books ((o.init idx).join idx) max players := by
  generalize hsid : sessionId idx (o.generation idx + 1) = sid at hfresh
  have hcalls : ((o.init idx).join idx).calls =
      o.calls ++ [.initSession idx sid, .onClientJoin idx sid] := by
    simpa [Outline.join, Outline.init] using hsid
  have hqueue : ((o.init idx).join idx).contentQ = o.contentQ ++ [.join sid] := by
    simpa [Outline.join, Outline.init] using hsid
  have hself : ((o.init idx).join idx).sid idx = sid := by
    simpa [Outline.join, Outline.init] using hsid
  have hsids {i : Nat} (hne : i ≠ idx) : ((o.init idx).join idx).sid i = o.sid i := by
    simp [Outline.join, Outline.init, hne]
  have hflags {i : Nat} (hne : i ≠ idx) :
      ((o.init idx).join idx).closed i = o.closed i := by
    simp [Outline.join, Outline.init, hne]
  have hnone : notices o.calls sid = [] := by
    cases hnotices : notices o.calls sid with
    | nil => rfl
    | cons first rest =>
        have hfirst : first = .join := by
          have hprefix := h.ordered sid
          rw [hnotices] at hprefix
          exact (List.cons_prefix_cons.mp hprefix).1
        obtain ⟨i, hi⟩ := join_of_notices (hfirst ▸ hnotices)
        exact absurd (h.issued i sid hi) (hfresh i)
  have honce : notices ((o.init idx).join idx).calls sid = [.join] := by
    rw [hcalls, notices_append, hnone]
    simp [notices, told, List.filterMap_cons]
  have hother {other : SessionID} (hne : other ≠ sid) :
      notices ((o.init idx).join idx).calls other = notices o.calls other := by
    rw [hcalls, notices_append]
    simp [notices, told, List.filterMap_cons, hne.symm]
  have hset : openAt ((o.init idx).join idx) max = insert idx (openAt o max) := by
    ext i
    rcases eq_or_ne i idx with rfl | hne
    · simp [openAt, Outline.join, Outline.init, hidx]
    · simp [openAt, hcalls, hsids hne, hflags hne, hne]
  refine ⟨?_, ?_, ?_, ?_, ?_, ?_, ?_⟩
  · intro i hinit hclosed
    rcases eq_or_ne i idx with rfl | hne
    · rw [hself, hcalls]
      simp
    · rw [hsids hne, hcalls] at hinit ⊢
      rw [hflags hne] at hclosed
      exact List.mem_append_left _ (h.joined i (by simpa [hne] using hinit) hclosed)
  · intro i other hjoin
    rw [hcalls] at hjoin ⊢
    rcases List.mem_append.mp hjoin with hold | hnew
    · exact List.mem_append_left _ (h.issued i other hold)
    · obtain ⟨rfl, rfl⟩ : i = idx ∧ other = sid := by simpa using hnew
      simp
  · intro i hclosed hjoin
    rcases eq_or_ne i idx with rfl | hne
    · rw [hself]
      exact honce
    · rw [hsids hne, hcalls] at hjoin
      rw [hflags hne] at hclosed
      have hold : .onClientJoin i (o.sid i) ∈ o.calls := by simpa [hne] using hjoin
      have hsid : o.sid i ≠ sid := by
        intro heq
        exact hfresh i (heq ▸ h.issued i (o.sid i) hold)
      rw [hsids hne, hother hsid]
      exact h.once i hclosed hold
  · intro other
    rcases eq_or_ne other sid with rfl | hne
    · rw [honce]
      simp
    · rw [hother hne]
      exact h.ordered other
  · intro other
    obtain ⟨done, hdone, hplayer⟩ := h.handled other
    refine ⟨done, ?_, hplayer⟩
    rw [hqueue, waiting_append, ← List.append_assoc, ← hdone]
    rcases eq_or_ne other sid with rfl | hne
    · rw [honce, hnone]
      simp [waiting, tells]
    · rw [hother hne]
      simp [waiting, tells, hne.symm]
  · have hcard := Finset.card_insert_of_notMem hfree
    have hold := h.sessions
    rw [hset, hcard]
    simp only [Outline.join, Outline.init]
    push_cast
    omega
  · have hold := h.players
    rw [hqueue]
    simp only [Outline.join, Outline.init, List.countP_append, List.countP_singleton, isJoin,
      isLeave, Bool.false_eq_true, if_true, if_false]
    push_cast
    omega

section Messages

variable {sid : SessionID} {rest : List Message}

theorem waiting_cons_of_none {m : Message} {queue : List Message} {other : SessionID}
    (h : tells other m = none) : waiting (m :: queue) other = waiting queue other := by
  rw [waiting, List.filterMap_cons_none h]
  rfl

theorem waiting_cons_of_some {m : Message} {queue : List Message} {other : SessionID}
    {notice : Notice} (h : tells other m = some notice) :
    waiting (m :: queue) other = notice :: waiting queue other := by
  rw [waiting, List.filterMap_cons_some h]
  rfl

theorem popJoin (h : Books o max players) (hqueue : o.contentQ = .join sid :: rest) :
    sid ∉ players ∧ ∀ pl, Books { o with contentQ := rest } max (players.insert sid pl) := by
  have hself : tells sid (.join sid) = some .join := by simp [tells]
  obtain ⟨done, hdone, hplayer⟩ := h.handled sid
  rw [hqueue, waiting_cons_of_some hself] at hdone
  have hnil : done = [] := done_of_join (hdone ▸ h.ordered sid)
  have habsent : sid ∉ players := by simp [hplayer, hnil]
  refine ⟨habsent, fun pl => ⟨h.joined, h.issued, h.once, h.ordered, ?_, h.sessions, ?_⟩⟩
  · intro other
    rcases eq_or_ne other sid with rfl | hne
    · exact ⟨[.join], by rw [hdone, hnil]; rfl, by simp⟩
    · obtain ⟨done, hdone, hplayer⟩ := h.handled other
      rw [hqueue, waiting_cons_of_none (by simp [tells, hne.symm])] at hdone
      exact ⟨done, hdone, by simpa [hne] using hplayer⟩
  · have hold := h.players
    have hkeys : (players.insert sid pl).keys.length = players.keys.length + 1 := by
      rw [AList.keys_insert, List.length_cons, List.erase_of_not_mem]
      simpa [AList.mem_keys] using habsent
    rw [hqueue] at hold
    simp only [List.countP_cons, isJoin, isLeave, Bool.false_eq_true, if_true, if_false] at hold
    rw [hkeys]
    push_cast at hold ⊢
    omega

theorem popLeave (h : Books o max players) (hqueue : o.contentQ = .leave sid :: rest) :
    sid ∈ players ∧ Books { o with contentQ := rest } max (players.erase sid) := by
  have hself : tells sid (.leave sid) = some .leave := by simp [tells]
  obtain ⟨done, hdone, hplayer⟩ := h.handled sid
  rw [hqueue, waiting_cons_of_some hself] at hdone
  have hjoin : done = [.join] := done_of_leave (hdone ▸ h.ordered sid)
  have hpresent : sid ∈ players := hplayer.mpr hjoin
  refine ⟨hpresent, h.joined, h.issued, h.once, h.ordered, ?_, h.sessions, ?_⟩
  · intro other
    rcases eq_or_ne other sid with rfl | hne
    · exact ⟨[.join, .leave], by rw [hdone, hjoin]; rfl, by simp⟩
    · obtain ⟨done, hdone, hplayer⟩ := h.handled other
      rw [hqueue, waiting_cons_of_none (by simp [tells, hne.symm])] at hdone
      exact ⟨done, hdone, by simpa [AList.mem_erase, hne] using hplayer⟩
  · have hold := h.players
    have hkeys : (players.erase sid).keys.length + 1 = players.keys.length := by
      rw [AList.keys_erase]
      exact List.length_erase_add_one (AList.mem_keys.mp hpresent)
    rw [hqueue] at hold
    simp only [List.countP_cons, isJoin, isLeave, Bool.false_eq_true, if_true, if_false] at hold
    push_cast at hold ⊢
    omega

theorem popRecv {p : PacketRef} (h : Books o max players)
    (hqueue : o.contentQ = .recv sid p :: rest) :
    Books { o with contentQ := rest } max players := by
  refine ⟨h.joined, h.issued, h.once, h.ordered, ?_, h.sessions, ?_⟩
  · intro other
    obtain ⟨done, hdone, hplayer⟩ := h.handled other
    rw [hqueue, waiting_cons_of_none rfl] at hdone
    exact ⟨done, hdone, hplayer⟩
  · simpa [hqueue, isJoin, isLeave] using h.players

theorem congr_players (h : Books o max players)
    {players' : AList fun _ : SessionID => CPlayer}
    (hkeys : players'.keys.Perm players.keys) : Books o max players' := by
  refine ⟨h.joined, h.issued, h.once, h.ordered, ?_, h.sessions, ?_⟩
  · intro other
    obtain ⟨done, hdone, hplayer⟩ := h.handled other
    have hmem : other ∈ players' ↔ other ∈ players := by
      rw [AList.mem_keys, AList.mem_keys]
      exact hkeys.mem_iff
    exact ⟨done, hdone, hmem.trans hplayer⟩
  · rw [hkeys.length_eq]
    exact h.players

end Messages

theorem touched {o' : Outline} (h : Books o max players) (hidx : idx < max)
    (hinit : .initSession idx (o.sid idx) ∈ o.calls) (htouched : Touches idx o o') :
    Books o' max players := by
  have hboth : Books o' max players ∧ .initSession idx (o'.sid idx) ∈ o'.calls := by
    refine htouched.keeps
      (P := fun t => Books t max players ∧ .initSession idx (t.sid idx) ∈ t.calls)
      ⟨h, hinit⟩ ?_ ?_ ?_
    · rintro t p ⟨ht, hmem⟩
      exact ⟨ht.receive p, hmem⟩
    · rintro t ⟨ht, hmem⟩
      exact ⟨ht.free, List.mem_append_left _ hmem⟩
    · rintro t ⟨ht, hmem⟩ hopen
      exact ⟨ht.close hidx hmem hopen, List.mem_append_left _ hmem⟩
  exact hboth.1

theorem survives (players : AList fun _ : SessionID => CPlayer) (max : Nat) :
    Survives max fun o => Books o max players := by
  intro sv held idx o hsv hidx hlive htouched hbooks
  exact hbooks.touched hidx
    (initSession_of_init (init_of_live (hsv.slots.of_zero idx) hidx hlive)) htouched

end Books

end IocpChat.SessionBooks
