import IocpChat.ContentSteps
import IocpChat.SessionBooks

namespace IocpChat.SessionCounts

open IocpChat.Protocol
open IocpChat.PacketBuffer
open IocpChat.ContentHandlers
open IocpChat.LanServer
open IocpChat.SlotInvariant
open IocpChat.SlotSteps
open IocpChat.SlotLifecycle
open IocpChat.MessageOrigin
open IocpChat.PacketOwnership
open IocpChat.ChatRuns
open IocpChat.PacketLifetimes
open IocpChat.RoomMembership
open IocpChat.ContentSteps
open IocpChat.ServerOutline
open IocpChat.SessionBooks
open IocpChat.LabelledRun

/-- The server from `Start` to `Stop`.  Once `Stop` has ended the accept thread,
`closing` is the next slot its loop closes. -/
structure Service where
  world : World
  closing : Option Nat

/-- The server has just started. -/
def Service.start (maxSession : Nat) : Service where
  world := World.start maxSession
  closing := none

/-- A step of the server, or of `Stop`, which closes the slots one by one. -/
inductive ServiceEvent where
  | chat (e : ChatEvent)
  | stop
  | closeNext

/-- The step is that of `AcceptThread`. -/
def accepts : ChatEvent → Bool
  | .net (.accept _ _ _) => true
  | _ => false

/-- The other threads go on while `Stop` closes one slot after the other. -/
def serviceStep (C : Crypto) (toAcp : List UInt16 → List UInt8) (s : Service) :
    ServiceEvent → Option Service
  | .chat e =>
      if accepts e ∧ s.closing ≠ none then none
      else (chatStep C toAcp s.world e).map fun w => { s with world := w }
  | .stop => if s.closing = none then some { s with closing := some 0 } else none
  | .closeNext =>
      match s.closing with
      | none => none
      | some idx =>
          if idx < s.world.server.maxSession then
            some
              { world := { s.world with server := s.world.server.closeSession idx }
                closing := some (idx + 1) }
          else none

/-- The slots with a session that was joined and is not yet closed. -/
def openSessions (sv : Server) : Finset Nat :=
  (Finset.range sv.maxSession).filter fun idx =>
    (sv.sessions idx).closeFlag = false ∧
      .onClientJoin idx (sv.sessions idx).sID ∈ sv.calls

/-- `OnClientLeave` is called at most once for an identifier, and only after
`OnClientJoin`. -/
def LeavesPaired (sv : Server) : Prop :=
  ∀ sid, (notices sv.calls sid).count .leave ≤ 1 ∧
    ∀ done idx rest, sv.calls = done ++ .onClientLeave idx sid :: rest →
      ∃ i, .onClientJoin i sid ∈ done

/-- The players there are and those about to come, less those about to go. -/
def expectedPlayers (w : World) : Int :=
  w.content.players.keys.length + w.server.contentQ.countP isJoin -
    w.server.contentQ.countP isLeave

/-- The counters say how many sessions are open and how many players there will be. -/
structure CountsRight (w : World) : Prop where
  paired : LeavesPaired w.server
  sessions : w.server.getSessionCount = (openSessions w.server).card
  players : w.server.joinCnt - w.server.leaveCnt = expectedPlayers w

/-- The condition on a step: a connection for which there is a slot is registered
with the completion port, in a slot used fewer than `2 ^ 31 - 1` times before;
and `Stop` closes only slots that have been used. -/
def CountsSafe (s : Service) : ServiceEvent → Prop
  | .chat (.net (.accept _ registered _)) =>
      ∀ idx, s.world.server.indexPool.head? = some idx →
        registered = true ∧ timesUsed s.world.server idx + 1 < 2 ^ 31
  | .chat _ => True
  | .stop => True
  | .closeNext => ∀ idx, s.closing = some idx → 0 < timesUsed s.world.server idx

instance (s : Service) : DecidablePred (CountsSafe s)
  | .chat (.net (.accept _ registered _)) =>
      inferInstanceAs (Decidable (∀ idx ∈ s.world.server.indexPool.head?,
        registered = true ∧ timesUsed s.world.server idx + 1 < 2 ^ 31))
  | .chat (.net (.recvDone _ _ _)) => isTrue trivial
  | .chat (.net (.recvFailed _)) => isTrue trivial
  | .chat (.net (.sendDone _ _)) => isTrue trivial
  | .chat (.net (.sendFailed _)) => isTrue trivial
  | .chat (.net (.sendPacket _ _ _)) => isTrue trivial
  | .chat (.net (.disconnect _)) => isTrue trivial
  | .chat (.update _ _) => isTrue trivial
  | .chat (.dbResult _ _ _ _) => isTrue trivial
  | .stop => isTrue trivial
  | .closeNext => inferInstanceAs (Decidable (∀ idx ∈ s.closing,
      0 < timesUsed s.world.server idx))

theorem leavesPaired_of_ordered {sv : Server}
    (h : ∀ sid, notices sv.calls sid <+: [.join, .leave]) : LeavesPaired sv := by
  intro sid
  refine ⟨?_, ?_⟩
  · exact (h sid).sublist.count_le .leave
  · intro done idx rest hcalls
    have hsid := h sid
    rw [hcalls, notices_append] at hsid
    have hleave : notices (.onClientLeave idx sid :: rest) sid = .leave :: notices rest sid := by
      simp [notices, told]
    rw [hleave] at hsid
    cases hdone : notices done sid with
    | nil =>
        rw [hdone] at hsid
        simp at hsid
    | cons first more =>
        rw [hdone] at hsid
        have hfirst : first = .join := (List.cons_prefix_cons.mp hsid).1
        exact join_of_notices (hfirst ▸ hdone)

/-- `timesUsed` by the history of calls. -/
def uses (calls : List Call) (idx : Nat) : Nat :=
  (calls.filterMap (slotCall idx)).countP fun c => match c with
    | .init _ => true
    | _ => false

/-- No slot has been used `2 ^ 31` times. -/
def Unworn (o : Outline) : Prop := ∀ idx, uses o.calls idx < 2 ^ 31

theorem uses_append (calls more : List Call) (idx : Nat) :
    uses (calls ++ more) idx = uses calls idx + uses more idx := by
  rw [uses, List.filterMap_append, List.countP_append]
  rfl

theorem uses_onClientJoin (i : Nat) (sid : SessionID) (idx : Nat) :
    uses [.onClientJoin i sid] idx = 0 := rfl

theorem uses_initSession (i : Nat) (sid : SessionID) (idx : Nat) :
    uses [.initSession i sid] idx = if i = idx then 1 else 0 := by
  rcases eq_or_ne i idx with rfl | hne
  · simp [uses, slotCall]
  · simp [uses, slotCall, hne]

theorem uses_of_touches {idx : Nat} {o o' : Outline} (h : Touches idx o o') (i : Nat) :
    uses o'.calls i = uses o.calls i := by
  refine h.keeps (P := fun t => uses t.calls i = uses o.calls i) rfl (fun _ _ ht => ht) ?_ ?_
  · intro t ht
    rw [Outline.free, uses_append, ht]
    rcases eq_or_ne idx i with rfl | hne
    · simp [uses, slotCall]
    · simp [uses, slotCall, hne]
  · intro t ht _
    rw [Outline.close, uses_append, ht]
    rcases eq_or_ne idx i with rfl | hne
    · simp [uses, slotCall]
    · simp [uses, slotCall, hne]

theorem unworn_survives (max : Nat) : Survives max Unworn := by
  intro sv held idx o _ _ _ htouched hworn i
  rw [uses_of_touches htouched i]
  exact hworn i

theorem next_sid_fresh {sv : Server} {max idx : Nat} {rest : List Nat} (hmax : max ≤ 65536)
    (h : SlotsOk sv max 0 0) (hworn : Unworn (outline sv))
    (hpool : sv.indexPool = idx :: rest) (hroom : timesUsed sv idx + 1 < 2 ^ 31) (i : Nat) :
    .initSession i (sessionId idx ((outline sv).generation idx + 1)) ∉ sv.calls := by
  intro hmem
  obtain ⟨hidx, -, -, n, hcalls, hgen, -⟩ := free_of_pool_head h hpool
  have hn : timesUsed sv idx = n := by
    rw [timesUsed, hcalls, countP_completed]
  have hnext : sessionId idx ((outline sv).generation idx + 1) = sidOf idx (n + 1) := by
    have hsucc : (sv.sessions idx).generation + 1 = BitVec.ofNat 32 (n + 1) := by
      rw [hgen, BitVec.ofNat_add]
      rfl
    simp only [outline, hsucc, sidOf]
  rw [hnext] at hmem
  have hinit : .init (sidOf idx (n + 1)) ∈ (view sv i).calls :=
    (mem_view_calls _ _ _).mpr hmem
  obtain ⟨hi, k, -, hk, hsid⟩ := sidOf_of_init (h.of_zero i) hinit
  have hki : k < 2 ^ 31 := lt_of_le_of_lt hk (hworn i)
  obtain ⟨rfl, hkn⟩ := sidOf_inj (by omega) (by omega) (by omega) hki hsid
  omega

theorem notMem_openAt {sv : Server} {max idx : Nat} {rest : List Nat}
    {players : AList fun _ : SessionID => CPlayer} (h : SlotsOk sv max 0 0)
    (hbooks : Books (outline sv) max players) (hpool : sv.indexPool = idx :: rest) :
    idx ∉ openAt (outline sv) max := by
  obtain ⟨-, -, -, n, hcalls, -, hclosed⟩ := free_of_pool_head h hpool
  simp only [openAt, Finset.mem_filter, not_and]
  intro _ hopen hjoin
  rcases hclosed with hclosed | rfl
  · simp [outline, hclosed] at hopen
  · have hmem := hbooks.issued idx _ hjoin
    have hinit : .init ((outline sv).sid idx) ∈ (view sv idx).calls :=
      (mem_view_calls _ _ _).mpr hmem
    rw [hcalls] at hinit
    simp [completed] at hinit

/-- Everything is in order from `Start` on. -/
structure ServiceOk (s : Service) (max : Nat) : Prop where
  world : ∃ lost, WorldOk s.world max lost
  books : Books (outline s.world.server) max s.world.content.players
  unworn : Unworn (outline s.world.server)

section Steps

variable {s s' : Service} {w : World} {max : Nat}

theorem start_serviceOk (maxSession : Nat) :
    ServiceOk (Service.start maxSession) maxSession := by
  refine ⟨⟨0, start_worldOk maxSession⟩, ?_, ?_⟩
  · refine ⟨?_, ?_, ?_, ?_, ?_, ?_, ?_⟩
    · intro idx hinit
      simp [outline, Service.start, World.start, Server.start] at hinit
    · intro idx sid hjoin
      simp [outline, Service.start, World.start, Server.start] at hjoin
    · intro idx _ hjoin
      simp [outline, Service.start, World.start, Server.start] at hjoin
    · intro sid
      exact List.nil_prefix
    · intro sid
      refine ⟨[], rfl, ?_⟩
      simp [Service.start, World.start, Content.initial]
    · have hnone : openAt (outline (Service.start maxSession).world.server) maxSession = ∅ := by
        simp [openAt, outline, Service.start, World.start, Server.start]
      rw [hnone]
      rfl
    · simp [Service.start, World.start, Content.initial, outline, Server.start]
  · intro idx
    exact Nat.two_pow_pos 31

theorem acceptOne_books {sv : Server} {players : AList fun _ : SessionID => CPlayer}
    (hmax : max ≤ 65536) (hslots : SlotsOk sv max 0 0)
    (hbooks : Books (outline sv) max players) (hworn : Unworn (outline sv))
    {sock : Nat} {registered accepted : Bool}
    (hsafe : ∀ idx, sv.indexPool.head? = some idx →
      registered = true ∧ timesUsed sv idx + 1 < 2 ^ 31) :
    Books (outline (sv.acceptOne sock registered accepted)) max players ∧
      Unworn (outline (sv.acceptOne sock registered accepted)) := by
  rcases acceptOne_cases sv sock registered accepted with ⟨-, heq⟩ | ⟨idx, rest, hpool, htouched⟩
  · rw [heq]
    exact ⟨hbooks, hworn⟩
  · obtain ⟨hregistered, hroom⟩ := hsafe idx (by simp [hpool])
    rw [if_pos hregistered] at htouched
    have hidx := (free_of_pool_head hslots hpool).1
    have hopened := hbooks.openSession hidx (notMem_openAt hslots hbooks hpool)
      (next_sid_fresh hmax hslots hworn hpool hroom)
    refine ⟨hopened.touched hidx ?_ htouched, ?_⟩
    · simp [Outline.join, Outline.init]
    · intro i
      have hold : uses (outline sv).calls i < 2 ^ 31 := hworn i
      rw [uses_of_touches htouched, Outline.join, Outline.init, uses_append, uses_append,
        uses_initSession, uses_onClientJoin]
      rcases eq_or_ne idx i with rfl | hne
      · have hsame : timesUsed sv idx = uses (outline sv).calls idx := rfl
        rw [if_pos rfl]
        omega
      · rw [if_neg hne]
        omega

theorem keys_insert_perm {players : AList fun _ : SessionID => CPlayer} {sid : SessionID}
    {pl : CPlayer} (h : players.lookup sid = some pl) (new : CPlayer) :
    (players.insert sid new).keys.Perm players.keys := by
  have hmem : sid ∈ players.keys := by
    rw [← AList.mem_keys, ← AList.lookup_isSome, h]
    rfl
  rw [AList.keys_insert]
  exact (List.perm_cons_erase hmem).symm

theorem keys_of_outcome {c c' : Content} {e : Event} {effects : List Effect}
    (h : Outcome c e c' effects) (hjoin : ∀ env sid, e ≠ .join env sid)
    (hleave : ∀ sid, e ≠ .leave sid) : c'.players.keys.Perm c.players.keys := by
  cases h with
  | joinKnown env sid => exact absurd rfl (hjoin env sid)
  | joined env sid => exact absurd rfl (hjoin env sid)
  | leaveUnknown sid => exact absurd rfl (hleave sid)
  | leftLobby sid => exact absurd rfl (hleave sid)
  | leftRoom sid => exact absurd rfl (hleave sid)
  | recvQuiet => exact List.Perm.refl _
  | roomLeft env sid pkt pl i _ _ hpl => exact keys_insert_perm hpl _
  | enterRefused => exact List.Perm.refl _
  | placeTaken => exact List.Perm.refl _
  | entered env sid pkt no pl i room _ hpl => exact keys_insert_perm hpl _
  | dbQuiet => exact List.Perm.refl _
  | loggedIn r pl name effects hpl => exact keys_insert_perm hpl _

theorem startHandler_books (toAcp : List UInt16 → List UInt8)
    (h : Books (outline w.server) max w.content.players) {e : ChatEvent} {hd : Handler}
    (hstart : startHandler toAcp w e = some hd) :
    Books (outline hd.server) max hd.content.players := by
  cases e with
  | net e => simp [startHandler] at hstart
  | update env io =>
      simp only [startHandler] at hstart
      split at hstart
      · simp at hstart
      · rename_i sid rest hqueue
        have hhd := Option.some.inj hstart
        subst hhd
        obtain ⟨habsent, hbooks⟩ := h.popJoin hqueue
        simp only [handleJoin, AList.lookup_eq_none.mpr habsent]
        exact hbooks _
      · rename_i sid rest hqueue
        have hhd := Option.some.inj hstart
        subst hhd
        obtain ⟨hpresent, hbooks⟩ := h.popLeave hqueue
        obtain ⟨pl, hpl⟩ := Option.isSome_iff_exists.mp (AList.lookup_isSome.mpr hpresent)
        simp only [handleLeave, hpl]
        exact hbooks
      · rename_i sid pkt rest hqueue
        have hhd := Option.some.inj hstart
        subst hhd
        exact (h.popRecv hqueue).congr_players
          (keys_of_outcome (handleRecv_outcome env w.content sid _) (by simp) (by simp))
  | dbResult result userNo nickname io =>
      simp only [startHandler] at hstart
      split at hstart
      · simp at hstart
      · have hhd := Option.some.inj hstart
        subst hhd
        exact h.congr_players
          (keys_of_outcome (handleDbResult_outcome toAcp w.content _) (by simp) (by simp))

theorem handler_books (C : Crypto) (toAcp : List UInt16 → List UInt8) (hmax : max ≤ 65536)
    {lost : Multiset PacketRef} (hworld : WorldOk w max lost)
    (hbooks : Books (outline w.server) max w.content.players)
    (hworn : Unworn (outline w.server)) {e : ChatEvent} {hd : Handler}
    (hstart : startHandler toAcp w e = some hd) (io : Nat → SendEnv) :
    Books (outline (finishHandler C io hd).server) max
        (finishHandler C io hd).content.players ∧
      Unworn (outline (finishHandler C io hd).server) := by
  obtain ⟨hserver, -, heffects, hjobs⟩ := startHandler_ok toAcp hworld hstart
  obtain ⟨queue, hqueue⟩ := startHandler_server hstart
  have hworn' : Unworn (outline hd.server) := by
    intro i
    change uses hd.server.calls i < 2 ^ 31
    rw [hqueue]
    exact hworn i
  exact ⟨finishHandler_survives (Books.survives _ max) hmax C io hserver heffects hjobs
      (startHandler_books toAcp hbooks hstart),
    finishHandler_survives (unworn_survives max) hmax C io hserver heffects hjobs hworn'⟩

theorem chatStep_books (C : Crypto) (toAcp : List UInt16 → List UInt8) (hmax : max ≤ 65536)
    {w' : World} {lost : Multiset PacketRef} (hworld : WorldOk w max lost)
    (hbooks : Books (outline w.server) max w.content.players)
    (hworn : Unworn (outline w.server)) {e : ChatEvent}
    (hsafe : ∀ sock registered accepted, e = .net (.accept sock registered accepted) →
      ∀ idx, w.server.indexPool.head? = some idx →
        registered = true ∧ timesUsed w.server idx + 1 < 2 ^ 31)
    (hstep : chatStep C toAcp w e = some w') :
    Books (outline w'.server) max w'.content.players ∧ Unworn (outline w'.server) := by
  cases e with
  | net e =>
      obtain ⟨-, sv, hnet, rfl⟩ := chatStep_net hstep
      by_cases haccept : ∃ sock registered accepted, e = .accept sock registered accepted
      · obtain ⟨sock, registered, accepted, rfl⟩ := haccept
        have hsv := Option.some.inj hnet
        subst hsv
        exact acceptOne_books hmax hworld.server.slots hbooks hworn
          (hsafe sock registered accepted rfl)
      · have hother : ∀ sock r a, e ≠ .accept sock r a :=
          fun sock r a heq => haccept ⟨sock, r, a, heq⟩
        rcases netStep_touches C hworld.server.slots (Or.inl hmax) hnet hother with
          heq | ⟨idx, hidx, hlive, htouched⟩
        · rw [heq]
          exact ⟨hbooks, hworn⟩
        · exact ⟨Books.survives _ max _ _ idx _ hworld.server hidx hlive htouched hbooks,
            unworn_survives max _ _ idx _ hworld.server hidx hlive htouched hworn⟩
  | update env io =>
      obtain ⟨hd, hstart, rfl⟩ := Option.map_eq_some_iff.mp hstep
      exact handler_books C toAcp hmax hworld hbooks hworn hstart io
  | dbResult result userNo nickname io =>
      obtain ⟨hd, hstart, rfl⟩ := Option.map_eq_some_iff.mp hstep
      exact handler_books C toAcp hmax hworld hbooks hworn hstart io

theorem live_of_used {sv : Server} {idx : Nat} (h : SlotsOk sv max 0 0) (hidx : idx < max)
    (hused : 0 < timesUsed sv idx) (hopen : (sv.sessions idx).closeFlag = false) :
    0 < (sv.sessions idx).ioRefCount := by
  cases (h.of_zero idx).here hidx with
  | used _ _ _ _ _ _ hpos => exact hpos
  | free n hcalls _ _ hclosed =>
      rw [timesUsed, hcalls, countP_completed] at hused
      rcases hclosed with hclosed | hn
      · have hclosed : (sv.sessions idx).closeFlag = true := hclosed
        simp [hopen] at hclosed
      · omega

theorem closeSession_worldOk {lost : Multiset PacketRef} (h : WorldOk w max lost) {idx : Nat}
    (hidx : idx < max) (hlive : 0 < (w.server.sessions idx).ioRefCount) :
    WorldOk { w with server := w.server.closeSession idx } max lost := by
  have hgrows := closeSession_grows w.server idx
  have hslots := closeSession_slotsOk (h.server.slots.of_zero idx) hidx fun _ => hlive
  have hissued := issued_sID (h.server.slots.of_zero idx) hidx hlive
  refine ⟨⟨hslots.of_zero 0, closeSession_owned h.server.owned hidx,
    hgrows.messagesIssued h.server.messages hissued⟩, ?_, h.jobs.mono hgrows.calls⟩
  exact fun i sid hsid => Issued.mono (h.rooms i sid hsid) hgrows.calls

theorem closeNext_serviceOk (h : ServiceOk s max) {idx : Nat}
    (hidx : idx < s.world.server.maxSession) (hused : 0 < timesUsed s.world.server idx) :
    ServiceOk
      { world := { s.world with server := s.world.server.closeSession idx }
        closing := some (idx + 1) } max := by
  obtain ⟨lost, hworld⟩ := h.world
  rw [hworld.server.slots.size] at hidx
  rcases Bool.eq_false_or_eq_true (s.world.server.sessions idx).closeFlag with hclosed | hopen
  · have hsame : s.world.server.closeSession idx = s.world.server := by
      simp [Server.closeSession, hclosed]
    rw [hsame]
    exact ⟨⟨lost, hworld⟩, h.books, h.unworn⟩
  · have hlive := live_of_used hworld.server.slots hidx hused hopen
    have htouched := closeSession_touches s.world.server idx
    exact ⟨⟨lost, closeSession_worldOk hworld hidx hlive⟩,
      Books.survives _ max _ _ idx _ hworld.server hidx hlive htouched h.books,
      unworn_survives max _ _ idx _ hworld.server hidx hlive htouched h.unworn⟩

theorem serviceStep_ok (C : Crypto) (toAcp : List UInt16 → List UInt8) (hmax : max ≤ 65536)
    (h : ServiceOk s max) {e : ServiceEvent} (hsafe : CountsSafe s e)
    (hstep : serviceStep C toAcp s e = some s') : ServiceOk s' max := by
  cases e with
  | chat e =>
      simp only [serviceStep, Option.ite_none_left_eq_some] at hstep
      obtain ⟨w', hchat, rfl⟩ := Option.map_eq_some_iff.mp hstep.2
      obtain ⟨lost, hworld⟩ := h.world
      obtain ⟨hbooks, hworn⟩ := chatStep_books C toAcp hmax hworld h.books h.unworn (by
        rintro sock registered accepted rfl
        exact hsafe) hchat
      exact ⟨⟨_, chatStep_worldOk C toAcp hmax hworld hchat⟩, hbooks, hworn⟩
  | stop =>
      simp only [serviceStep, Option.ite_none_right_eq_some] at hstep
      obtain rfl := Option.some.inj hstep.2
      exact ⟨h.world, h.books, h.unworn⟩
  | closeNext =>
      simp only [serviceStep] at hstep
      split at hstep
      · simp at hstep
      · rename_i idx hclosing
        simp only [Option.ite_none_right_eq_some] at hstep
        obtain ⟨hidx, hs⟩ := hstep
        obtain rfl := Option.some.inj hs
        exact closeNext_serviceOk h hidx (hsafe idx hclosing)

theorem ServiceOk.countsRight (h : ServiceOk s max) : CountsRight s.world := by
  obtain ⟨lost, hworld⟩ := h.world
  refine ⟨leavesPaired_of_ordered h.books.ordered, ?_, h.books.players⟩
  rw [openSessions, hworld.server.slots.size]
  exact h.books.sessions

end Steps

/-- Along every run from `Start` up to and including `Stop` in which connections
are registered and only used slots are closed, joins, leaves and the counters
pair up in every state. -/
theorem counts_right_of_safe (C : Crypto) (toAcp : List UInt16 → List UInt8)
    {maxSession : Nat} (hmax : maxSession ≤ 2 ^ 16) {events : List ServiceEvent}
    (hsafe : Meets (serviceStep C toAcp) CountsSafe (Service.start maxSession) events) :
    Always (serviceStep C toAcp) (fun s => CountsRight s.world) (Service.start maxSession)
      events := by
  have hstep : ∀ s e t, ServiceOk s maxSession → CountsSafe s e →
      serviceStep C toAcp s e = some t → ServiceOk t maxSession :=
    fun s e t hs hguard hstep => serviceStep_ok C toAcp hmax hs hguard hstep
  intro done hdone s hrun
  have hok : ServiceOk s maxSession :=
    always_of_meets (serviceStep C toAcp) hstep (start_serviceOk maxSession) hsafe done hdone
      s hrun
  exact hok.countsRight

/-- A client connects and its join is handled; `Stop` closes its slot while its
receive is still outstanding, and the cancelled receive and the leave message are
handled. -/
def oneClient : List ServiceEvent :=
  let io : Nat → SendEnv := fun _ => ⟨[], fun _ => true⟩
  [.chat (.net (.accept 7 true true)), .chat (.update zeroEnv io), .stop, .closeNext,
    .chat (.net (.recvFailed 0)), .chat (.update zeroEnv io)]

theorem counts_right_after_oneClient :
    ∃ s, run (serviceStep Crypto.none fun _ => []) (Service.start 1) oneClient = some s ∧
      s.world.server.leaveCnt = 1 ∧ CountsRight s.world := by
  have hleft : ((run (serviceStep Crypto.none fun _ => []) (Service.start 1) oneClient).map
      fun s => s.world.server.leaveCnt) = some 1 := by
    decide +kernel
  have hsafe : Meets (serviceStep Crypto.none fun _ => []) CountsSafe (Service.start 1)
      oneClient := by
    decide +kernel
  obtain ⟨s, hrun, hs⟩ := Option.map_eq_some_iff.mp hleft
  exact ⟨s, hrun, hs, counts_right_of_safe Crypto.none _ (by decide) hsafe oneClient
    (List.prefix_refl _) s hrun⟩

/-- A connection cannot be registered with the completion port, and the leave
message of its session is handled. -/
def failedRegistration : List ServiceEvent :=
  [.chat (.net (.accept 7 false true)),
    .chat (.update zeroEnv fun _ => ⟨[], fun _ => true⟩)]

/-- After `failedRegistration` a session has left that never joined, and all
counters are off by one; so they are when `Stop` closes a slot that was never
used. -/
theorem counts_wrong_after_failedRegistration :
    (∃ s, run (serviceStep Crypto.none fun _ => []) (Service.start 1) failedRegistration =
        some s ∧ ¬ LeavesPaired s.world.server ∧
      s.world.server.getSessionCount ≠ (openSessions s.world.server).card ∧
      s.world.server.joinCnt - s.world.server.leaveCnt ≠ expectedPlayers s.world) ∧
    ∃ s, run (serviceStep Crypto.none fun _ => []) (Service.start 1) [.stop, .closeNext] =
        some s ∧ ¬ LeavesPaired s.world.server ∧
      s.world.server.getSessionCount ≠ (openSessions s.world.server).card := by
  have hunpaired {sv : Server} {done rest : List Call} {sid : SessionID}
      (hcalls : sv.calls = done ++ .onClientLeave 0 sid :: rest)
      (hnone : ∀ i, .onClientJoin i sid ∉ done) : ¬ LeavesPaired sv := by
    intro hpaired
    obtain ⟨i, hi⟩ := (hpaired sid).2 done 0 rest hcalls
    exact hnone i hi
  refine ⟨?_, ?_⟩
  · have hwrong : ((run (serviceStep Crypto.none fun _ => []) (Service.start 1)
        failedRegistration).map fun s => decide (
          s.world.server.calls = [.initSession 0 (sidOf 0 1)] ++
            .onClientLeave 0 (sidOf 0 1) :: [.releaseSession 0] ∧
          s.world.server.getSessionCount ≠ ((openSessions s.world.server).card : Int) ∧
          s.world.server.joinCnt - s.world.server.leaveCnt ≠ expectedPlayers s.world)) =
        some true := by
      decide +kernel
    obtain ⟨s, hrun, hs⟩ := Option.map_eq_some_iff.mp hwrong
    obtain ⟨hcalls, hcounts⟩ := of_decide_eq_true hs
    exact ⟨s, hrun, hunpaired hcalls (by simp), hcounts⟩
  · have hwrong : ((run (serviceStep Crypto.none fun _ => []) (Service.start 1)
        [.stop, .closeNext]).map fun s => decide (
          s.world.server.calls = [] ++ .onClientLeave 0 0#64 :: [] ∧
          s.world.server.getSessionCount ≠ ((openSessions s.world.server).card : Int))) =
        some true := by
      decide +kernel
    obtain ⟨s, hrun, hs⟩ := Option.map_eq_some_iff.mp hwrong
    obtain ⟨hcalls, hcounts⟩ := of_decide_eq_true hs
    exact ⟨s, hrun, hunpaired hcalls (by simp), hcounts⟩

end IocpChat.SessionCounts
