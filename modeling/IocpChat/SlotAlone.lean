import IocpChat.SendQueue
import IocpChat.SlotInterleaving
import IocpChat.SlotInvariant

namespace IocpChat.SlotAlone

open IocpChat.Protocol
open IocpChat.LanServer
open IocpChat.SlotInvariant
open IocpChat.LabelledRun
open IocpChat.ThreadPool
open IocpChat.SlotInterleaving

variable {n : Nat}

/-- A thread makes these steps, and those they put in their place, one after the
other. -/
inductive Alone (idx : Nat) (t : Fin n) : Shared n → List Instr → Shared n → Prop
  | done (sh : Shared n) : Alone idx t sh [] sh
  | step {sh sh₁ sh₂ : Shared n} {i : Instr} {new rest : List Instr} (choice : Bool)
      (hexec : exec idx t choice sh i = some (sh₁, new))
      (hrest : Alone idx t sh₁ (new ++ rest) sh₂) : Alone idx t sh (i :: rest) sh₂

section Runs

variable {idx : Nat} {t : Fin n} {sh sh₁ sh₂ : Shared n}

theorem Alone.append {is js : List Instr} (h : Alone idx t sh is sh₁)
    (k : Alone idx t sh₁ js sh₂) : Alone idx t sh (is ++ js) sh₂ := by
  induction h with
  | done sh => exact k
  | step choice hexec _ ih =>
      have hrest := ih k
      rw [List.append_assoc] at hrest
      exact .step choice hexec hrest

theorem Alone.run {is : List Instr} (h : Alone idx t sh is sh₁)
    (threads : Fin n → List Instr) :
    ∃ choices : List Bool, run (slotStep idx) ⟨sh, Function.update threads t is⟩
        (choices.map (.run t)) = some ⟨sh₁, Function.update threads t []⟩ := by
  induction h with
  | done sh => exact ⟨[], rfl⟩
  | step choice hexec _ ih =>
      obtain ⟨choices, hchoices⟩ := ih
      refine ⟨choice :: choices, ?_⟩
      rw [List.map_cons, run_cons_of_step, hchoices]
      simp [slotStep, ThreadPool.step, hexec]

end Runs

/-- Two sessions differ in what they have received at most. -/
def Agrees (s s' : Session) : Prop :=
  ∃ buffer received delivered,
    s = { s' with recvBuffer := buffer, received := received, delivered := delivered }

theorem Agrees.trans {s s' s'' : Session} (h : Agrees s s') (k : Agrees s' s'') :
    Agrees s s'' := by
  obtain ⟨buffer, received, delivered, rfl⟩ := h
  obtain ⟨_, _, _, rfl⟩ := k
  exact ⟨buffer, received, delivered, rfl⟩

theorem Agrees.init {s s' : Session} (h : Agrees s s') (idx sock : Nat) :
    Agrees (s.init idx sock) (s'.init idx sock) := by
  obtain ⟨buffer, received, delivered, rfl⟩ := h
  exact ⟨buffer.clear, [], [], rfl⟩

/-- A change of the session that leaves what was received alone. -/
def Local (f : Session → Session) : Prop :=
  ∀ s buffer received delivered,
    f { s with recvBuffer := buffer, received := received, delivered := delivered } =
      { f s with recvBuffer := buffer, received := received, delivered := delivered }

theorem Agrees.map {f : Session → Session} (hf : Local f) {s s' : Session}
    (h : Agrees s s') : Agrees (f s) (f s') := by
  obtain ⟨buffer, received, delivered, rfl⟩ := h
  exact ⟨buffer, received, delivered, hf s' buffer received delivered⟩

theorem takeQueue_received (limit : Nat) (s : Session) (buffer : RingBuffer.CRingBuffer)
    (received : List UInt8) (delivered : List (List UInt8)) :
    Session.takeQueue limit
        { s with recvBuffer := buffer, received := received, delivered := delivered } =
      ((s.takeQueue limit).1, { (s.takeQueue limit).2 with
        recvBuffer := buffer, received := received, delivered := delivered }) := by
  induction limit generalizing s with
  | zero => rfl
  | succ limit ih =>
      simp only [Session.takeQueue]
      split
      · rw [ih { s with sqHead := (s.sqHead + 1) % qsize, sqCount := s.sqCount - 1 }]
      · rfl

/-- The session that the call announces in slot `idx`. -/
def announcedFor (idx : Nat) : Call → Option SessionID
  | .onClientJoin i sid => if i = idx then some sid else none
  | _ => none

/-- The identifiers `OnClientJoin` has announced for the slot, the last one first. -/
def announced (sv : Server) (idx : Nat) : List SessionID :=
  (sv.calls.filterMap (announcedFor idx)).reverse

@[simp] theorem announced_release (sv : Server) (p : PacketRef) (idx : Nat) :
    announced (sv.release p) idx = announced sv idx := by
  simp only [Server.release]
  split <;> rfl

@[simp] theorem announced_releaseAll (sv : Server) (ps : List PacketRef) (idx : Nat) :
    announced (sv.releaseAll ps) idx = announced sv idx := by
  induction ps generalizing sv with
  | nil => rfl
  | cons p ps ih => exact (ih (sv.release p)).trans (announced_release sv p idx)

@[simp] theorem announced_alloc (sv : Server) (idx : Nat) :
    announced sv.alloc.2 idx = announced sv idx := by
  simp only [Server.alloc]
  split <;> rfl

@[simp] theorem announced_onClientLeave (sv : Server) (i : Nat) (sid : SessionID) (idx : Nat) :
    announced (sv.onClientLeave i sid) idx = announced sv idx := by
  simp [announced, Server.onClientLeave, announcedFor]

@[simp] theorem announced_releaseSession (sv : Server) (i idx : Nat) :
    announced (sv.releaseSession i) idx = announced sv idx := by
  simp [announced, Server.releaseSession, announcedFor]

/-- The slot of the server as the threads see it. -/
structure Shows (idx : Nat) (sh : Shared n) (sv : Server) : Prop where
  session : Agrees sh.s (view sv idx).session
  pool : sh.inPool = (view sv idx).inPool
  sids : sh.sids = announced sv idx

/-- The steps, made alone, take the slot to where the server is in the end. -/
def Does (idx : Nat) (t : Fin n) (sh : Shared n) (is : List Instr) (sv : Server) : Prop :=
  ∃ sh', Alone idx t sh is sh' ∧ Shows idx sh' sv ∧ sh'.lock = sh.lock

section Steps

variable {idx : Nat} {t : Fin n} {sh sh₁ : Shared n} {sv sv₁ sv₂ : Server}

theorem Shows.update {f : Session → Session} (hf : Local f) (h : Shows idx sh sv)
    (hs : sh₁.s = f sh.s) (hsv : (view sv₁ idx).session = f (sv.sessions idx))
    (hpool : sh₁.inPool = sh.inPool) (hindex : (view sv₁ idx).inPool = (view sv idx).inPool)
    (hsids : sh₁.sids = sh.sids) (hknown : announced sv₁ idx = announced sv idx) :
    Shows idx sh₁ sv₁ := by
  refine ⟨?_, ?_, ?_⟩
  · rw [hs, hsv]
    exact h.session.map hf
  · rw [hpool, hindex, h.pool]
  · rw [hsids, hknown, h.sids]

theorem Does.done (h : Shows idx sh sv) : Does idx t sh [] sv :=
  ⟨sh, .done sh, h, rfl⟩

theorem Does.step {i : Instr} {new rest : List Instr} (choice : Bool)
    (hexec : exec idx t choice sh i = some (sh₁, new)) (hlock : sh₁.lock = sh.lock)
    (h : Does idx t sh₁ (new ++ rest) sv) : Does idx t sh (i :: rest) sv := by
  obtain ⟨sh₂, halone, hshows, hsame⟩ := h
  exact ⟨sh₂, .step choice hexec halone, hshows, hsame.trans hlock⟩

theorem Does.seq {is js : List Instr} (h : Does idx t sh is sv₁)
    (k : ∀ sh₁ : Shared n, Shows idx sh₁ sv₁ → sh₁.lock = sh.lock →
      Does idx t sh₁ js sv₂) : Does idx t sh (is ++ js) sv₂ := by
  obtain ⟨sh₁, halone, hshows, hlock⟩ := h
  obtain ⟨sh₂, halone', hshows', hlock'⟩ := k sh₁ hshows hlock
  exact ⟨sh₂, halone.append halone', hshows', hlock'.trans hlock⟩

theorem Agrees.reads {α : Type*} (f : Session → α)
    (hf : ∀ s buffer received delivered, f { s with
      recvBuffer := buffer, received := received, delivered := delivered } = f s)
    {s s' : Session} (h : Agrees s s') : f s = f s' := by
  obtain ⟨buffer, received, delivered, rfl⟩ := h
  exact hf s' buffer received delivered

theorem decRef_does (h : Shows idx sh sv) :
    Does idx t sh [.decRef] (sv.ioRelease idx) := by
  have hcount := h.session.reads Session.ioRefCount fun _ _ _ _ => rfl
  change sh.s.ioRefCount = (sv.sessions idx).ioRefCount at hcount
  set dropped : Shared n := { sh with s := { sh.s with ioRefCount := sh.s.ioRefCount - 1 } }
  set left := sv.setSession idx
    { sv.sessions idx with ioRefCount := (sv.sessions idx).ioRefCount - 1 }
  have hdropped : Shows idx dropped left :=
    h.update (f := fun s => { s with ioRefCount := s.ioRefCount - 1 })
      (fun _ _ _ _ => rfl) rfl (Function.update_self _ _ _) rfl rfl rfl rfl
  rcases eq_or_ne ((sv.sessions idx).ioRefCount - 1) 0 with hzero | hne
  · have hdrop : exec idx t false sh .decRef = some (dropped, [.pushIndex]) :=
      congrArg (fun new => some (dropped, new)) (if_pos (by rw [hcount, hzero]))
    have hlast : sv.ioRelease idx = left.releaseSession idx := if_pos hzero
    rw [hlast]
    refine .step false hdrop rfl (.step false rfl rfl (.done ⟨?_, ?_, ?_⟩))
    · rw [view_releaseSession_self]
      exact hdropped.session
    · rw [view_releaseSession_self]
      exact congrArg (· + 1) hdropped.pool
    · rw [announced_releaseSession]
      exact hdropped.sids
  · have hdrop : exec idx t false sh .decRef = some (dropped, []) :=
      congrArg (fun new => some (dropped, new)) (if_neg (by rwa [hcount]))
    have hlast : sv.ioRelease idx = left := if_neg hne
    rw [hlast]
    exact .step false hdrop rfl (.done hdropped)

/-- What `CloseSession` does to an open session before it gives up its reference. -/
def closing (s : Session) : Session :=
  (Session.takeQueue s.sqCount { s with closeFlag := true, sock := none }).2

theorem closing_local : Local closing := by
  intro s buffer received delivered
  have h := takeQueue_received s.sqCount { s with closeFlag := true, sock := none } buffer
    received delivered
  exact congrArg Prod.snd h

theorem closeSession_open (hopen : ¬ (sv.sessions idx).closeFlag = true) :
    ∃ sv₁, sv.closeSession idx = sv₁.ioRelease idx ∧
      (view sv₁ idx).session = closing (sv.sessions idx) ∧
      (view sv₁ idx).inPool = (view sv idx).inPool ∧ announced sv₁ idx = announced sv idx := by
  refine ⟨_, if_neg hopen, ?_, ?_, ?_⟩
  · change (view (((sv.setSession idx (closing (sv.sessions idx))).releaseAll _).onClientLeave
      idx _) idx).session = _
    rw [view_onClientLeave_self, view_releaseAll, view_setSession_self]
  · change (view (((sv.setSession idx (closing (sv.sessions idx))).releaseAll _).onClientLeave
      idx _) idx).inPool = _
    rw [view_onClientLeave_self, view_releaseAll, view_setSession_self]
  · change announced (((sv.setSession idx (closing (sv.sessions idx))).releaseAll _).onClientLeave
      idx _) idx = _
    rw [announced_onClientLeave, announced_releaseAll]
    rfl

theorem exchangeClose_does (h : Shows idx sh sv) (hlock : sh.MayEnter t) (cause : Cause) :
    Does idx t sh [.exchangeClose cause] (sv.closeSession idx) := by
  have hflag := h.session.reads Session.closeFlag fun _ _ _ _ => rfl
  change sh.s.closeFlag = (sv.sessions idx).closeFlag at hflag
  rcases Bool.eq_false_or_eq_true (sv.sessions idx).closeFlag with hclosed | hopen
  · have hexec : exec idx t false sh (.exchangeClose cause) = some (sh, []) :=
      congrArg some (if_pos (hflag.trans hclosed))
    have hsame : sv.closeSession idx = sv := if_pos hclosed
    rw [hsame]
    exact .step false hexec rfl (.done h)
  · set marked : Shared n := { sh with s := { sh.s with closeFlag := true } }
    have hexec : exec idx t false sh (.exchangeClose cause) =
        some (marked, [.closeSocket]) := by
      have hopen' : ¬ sh.s.closeFlag = true := by simp [hflag, hopen]
      exact congrArg some (if_neg hopen')
    refine .step false hexec rfl (.step false rfl rfl ?_)
    set unbound : Shared n := { marked with s := { marked.s with sock := none } }
    set drained : Shared n :=
      { unbound with s := (unbound.s.takeQueue unbound.s.sqCount).2, queuedFor := [] }
    have hdrain : exec idx t false unbound .drain = some (drained, [.decRef]) :=
      if_pos hlock
    refine .step false hdrain rfl ?_
    obtain ⟨sv₁, hclose, hsession, hpool, hknown⟩ := closeSession_open
      (show ¬ (sv.sessions idx).closeFlag = true by simp [hopen])
    rw [hclose]
    exact decRef_does (h.update closing_local rfl hsession rfl hpool rfl hknown)

theorem releaseBatch_does (h : Shows idx sh sv) :
    Does idx t sh [.releaseBatch, .clearPending] (sv.releaseBatch idx) := by
  refine .step false rfl rfl (.step false rfl rfl (.done ?_))
  refine h.update (f := fun s => { s with sendPkts := [], sendPending := false })
    (fun _ _ _ _ => rfl) rfl ?_ rfl ?_ rfl ?_
  · rw [Server.releaseBatch, view_setSession_self]
    have hsession := congrArg SlotView.session
      (view_releaseAll sv (sv.sessions idx).sendPkts idx)
    change (sv.releaseAll (sv.sessions idx).sendPkts).sessions idx = sv.sessions idx at hsession
    simp only [hsession]
  · rw [Server.releaseBatch, view_setSession_self]
    have hpool := congrArg SlotView.inPool
      (view_releaseAll sv (sv.sessions idx).sendPkts idx)
    exact hpool
  · exact announced_releaseAll sv (sv.sessions idx).sendPkts idx

/-- What `FlushSend` does to a session before it posts the batch. -/
def batched (s : Session) : Session :=
  let rest := Session.takeQueue qsize { s with sendPending := true }
  { rest.2 with sendPkts := rest.1, ioRefCount := rest.2.ioRefCount + 1 }

theorem batched_local : Local batched := by
  intro s buffer received delivered
  have h := takeQueue_received qsize { s with sendPending := true } buffer received delivered
  simp only [batched, h]

theorem exchangePending_does (h : Shows idx sh sv) (hlock : sh.MayEnter t) {accepted : Bool}
    (haccepted : accepted = true → (sv.sessions idx).sock.isSome = true) (caller : Caller) :
    Does idx t sh [.exchangePending caller] (sv.flushSend idx accepted) := by
  have hpending := h.session.reads Session.sendPending fun _ _ _ _ => rfl
  change sh.s.sendPending = (sv.sessions idx).sendPending at hpending
  rcases Bool.eq_false_or_eq_true (sv.sessions idx).sendPending with hshut | hopen
  · have hexec : exec idx t accepted sh (.exchangePending caller) = some (sh, []) :=
      if_pos (hpending.trans hshut)
    have hsame : sv.flushSend idx accepted = sv := if_pos hshut
    rw [hsame]
    exact .step accepted hexec rfl (.done h)
  · set taken : Shared n := { sh with s := { sh.s with sendPending := true } }
    have hexec : exec idx t accepted sh (.exchangePending caller) =
        some (taken, [.dequeue caller]) := if_neg (by simp [hpending, hopen])
    refine .step accepted hexec rfl ?_
    set batch := taken.s.takeQueue qsize
    set dequeued : Shared n := { taken with
      s := { batch.2 with sendPkts := batch.1 }
      queuedFor := sh.queuedFor.drop batch.1.length
      batchFor := sh.queuedFor.take batch.1.length }
    have hdequeue : exec idx t accepted taken (.dequeue caller) =
        some (dequeued, [.addRefSend caller]) := if_pos hlock
    refine .step accepted hdequeue rfl (.step accepted rfl rfl ?_)
    set posting : Shared n :=
      { dequeued with s := { dequeued.s with ioRefCount := dequeued.s.ioRefCount + 1 } }
    set sv₁ := (sv.setSession idx { (Session.takeQueue qsize
      { sv.sessions idx with sendPending := true }).2 with sendPkts := (Session.takeQueue qsize
      { sv.sessions idx with sendPending := true }).1 }).ioAddRef idx with hsv₁
    have hposting : Shows idx posting sv₁ := by
      refine h.update batched_local rfl ?_ rfl ?_ rfl rfl
      · rw [hsv₁, Server.ioAddRef, view_setSession_self]
        simp [Server.setSession, batched]
      · rw [hsv₁, Server.ioAddRef, view_setSession_self, view_setSession_self]
    have hflush : sv.flushSend idx accepted =
        if accepted then
          sv₁.setSession idx { sv₁.sessions idx with sendsOut := (sv₁.sessions idx).sendsOut + 1 }
        else ((sv₁.releaseBatch idx).closeSession idx).ioRelease idx :=
      if_neg (by simp [hopen])
    have hsock : posting.s.sock = (sv.sessions idx).sock := by
      have hkept : (batched sh.s).sock = sh.s.sock :=
        SendQueue.takeQueue_frame Session.sock (fun _ _ _ => rfl) qsize _
      exact hkept.trans (h.session.reads Session.sock fun _ _ _ _ => rfl)
    rw [hflush]
    cases accepted with
    | true =>
        have hsend : exec idx t true posting (.wsaSend caller) = some ({ posting with
            s := { posting.s with sendsOut := posting.s.sendsOut + 1 }
            handed := posting.handed ++ posting.s.sendPkts }, []) :=
          if_pos ⟨rfl, by rw [hsock]; exact haccepted rfl⟩
        refine .step true hsend rfl (.done ?_)
        refine hposting.update (f := fun s => { s with sendsOut := s.sendsOut + 1 })
          (fun _ _ _ _ => rfl) rfl ?_ rfl ?_ rfl rfl
        · rw [if_pos rfl, view_setSession_self]
        · rw [if_pos rfl, view_setSession_self]
    | false =>
        have hsend : exec idx t false posting (.wsaSend caller) = some
            ({ posting with refused := posting.refused || posting.s.sock.isSome },
              [.releaseBatch, .clearPending,
                .exchangeClose (.refusal caller posting.batchFor), .decRef]) :=
          by rw [exec, if_neg (by simp)]
        have hrefused : Shows idx
            { posting with refused := posting.refused || posting.s.sock.isSome } sv₁ :=
          ⟨hposting.session, hposting.pool, hposting.sids⟩
        refine .step false hsend rfl ?_
        change Does idx t _ ([.releaseBatch, .clearPending] ++
          ([.exchangeClose (.refusal caller posting.batchFor)] ++ [.decRef])) _
        refine (releaseBatch_does hrefused).seq ?_
        intro sh₂ hshows hlock₂
        have henter : sh₂.MayEnter t := by
          rw [Shared.MayEnter, hlock₂]
          exact hlock
        refine (exchangeClose_does hshows henter _).seq ?_
        intro sh₃ hshows₃ _
        exact decRef_does hshows₃

theorem addRefRecv_does (h : Shows idx sh sv) (hlock : sh.MayEnter t) {accepted : Bool}
    (haccepted : accepted = true → (sv.sessions idx).sock.isSome = true) (first : Bool) :
    Does idx t sh [.addRefRecv first] (sv.postRecv idx accepted) := by
  set posting : Shared n := { sh with s := { sh.s with ioRefCount := sh.s.ioRefCount + 1 } }
  have hposting : Shows idx posting (sv.ioAddRef idx) :=
    h.update (f := fun s => { s with ioRefCount := s.ioRefCount + 1 })
      (fun _ _ _ _ => rfl) rfl (Function.update_self _ _ _) rfl rfl rfl rfl
  have hsock : posting.s.sock = (sv.sessions idx).sock :=
    h.session.reads Session.sock fun _ _ _ _ => rfl
  refine .step accepted rfl rfl ?_
  cases accepted with
  | true =>
      have hrecv : exec idx t true posting .wsaRecv = some
          ({ posting with s := { posting.s with recvsOut := posting.s.recvsOut + 1 } }, []) :=
        if_pos ⟨rfl, by rw [hsock]; exact haccepted rfl⟩
      refine .step true hrecv rfl (.done ?_)
      exact hposting.update (f := fun s => { s with recvsOut := s.recvsOut + 1 })
        (fun _ _ _ _ => rfl) rfl (Function.update_self _ _ _) rfl rfl rfl rfl
  | false =>
      have hrecv : exec idx t false posting .wsaRecv =
          some (posting, [.exchangeClose .other, .decRef]) := by
        rw [exec, if_neg (by simp)]
      refine .step false hrecv rfl ?_
      change Does idx t posting ([.exchangeClose .other] ++ [.decRef]) _
      refine (exchangeClose_does hposting hlock .other).seq ?_
      intro sh₁ hshows _
      exact decRef_does hshows

theorem readCount_does (h : Shows idx sh sv) (hlock : sh.MayEnter t) {accepted : Bool}
    (haccepted : accepted = true → (sv.sessions idx).sock.isSome = true) :
    Does idx t sh [.releaseBatch, .clearPending, .readCount]
      (sv.onSendComplete idx accepted) := by
  change Does idx t sh ([.releaseBatch, .clearPending] ++ [.readCount]) _
  refine (releaseBatch_does h).seq ?_
  intro sh₁ hshows hsame
  have hcount := hshows.session.reads Session.sqCount fun _ _ _ _ => rfl
  change sh₁.s.sqCount = ((sv.releaseBatch idx).sessions idx).sqCount at hcount
  rcases Nat.eq_zero_or_pos ((sv.releaseBatch idx).sessions idx).sqCount with hnone | hsome
  · have hread : exec idx t false sh₁ .readCount = some (sh₁, []) :=
      congrArg (fun new => some (sh₁, new)) (if_neg (by omega))
    have hlast : sv.onSendComplete idx accepted = sv.releaseBatch idx := if_neg (by omega)
    rw [hlast]
    exact .step false hread rfl (.done hshows)
  · have hread : exec idx t false sh₁ .readCount =
        some (sh₁, [.exchangePending .onSendComplete]) :=
      congrArg (fun new => some (sh₁, new)) (if_pos (by omega))
    have hlast : sv.onSendComplete idx accepted = (sv.releaseBatch idx).flushSend idx accepted :=
      if_pos hsome
    have hsock : ((sv.releaseBatch idx).sessions idx).sock = (sv.sessions idx).sock := by
      simp [Server.releaseBatch, Server.setSession]
    rw [hlast]
    refine .step false hread rfl (exchangePending_does hshows ?_ ?_ .onSendComplete)
    · rw [Shared.MayEnter, hsame]
      exact hlock
    · rw [hsock]
      exact haccepted

theorem checkGeneration_does (h : Shows idx sh sv) (hlock : sh.MayEnter t) {sid : SessionID}
    (hsid : sidIndex sid = idx) (hidx : idx < sv.maxSession) :
    Does idx t sh [.checkGeneration sid] (sv.disconnect sid).2 := by
  subst hsid
  have hgen := h.session.reads Session.generation fun _ _ _ _ => rfl
  change sh.s.generation = (sv.sessions (sidIndex sid)).generation at hgen
  rw [Server.disconnect, if_neg (Nat.not_le.mpr hidx)]
  rcases eq_or_ne (sv.sessions (sidIndex sid)).generation (sidGeneration sid) with heq | hne
  · have hcheck : exec (sidIndex sid) t false sh (.checkGeneration sid) =
        some (sh, [.exchangeClose .other]) :=
      congrArg (fun new => some (sh, new)) (if_pos (hgen.trans heq))
    rw [if_neg (not_not.mpr heq)]
    exact .step false hcheck rfl (exchangeClose_does h hlock .other)
  · have hcheck : exec (sidIndex sid) t false sh (.checkGeneration sid) = some (sh, []) :=
      congrArg (fun new => some (sh, new)) (if_neg (by rwa [hgen]))
    rw [if_pos hne]
    exact .step false hcheck rfl (.done h)

theorem enterQueue_does (h : Shows idx sh sv) (hlock : sh.lock = none) {accepted : Bool}
    (haccepted : accepted = true → (sv.sessions idx).sock.isSome = true)
    (hroom : (sv.sessions idx).sqCount < qsize) (sid : SessionID) (p : PacketRef) :
    Does idx t sh [.enterQueue sid p] (((sv.addRef p).setSession idx
      (((sv.addRef p).sessions idx).enqueue p)).flushSend idx accepted) := by
  have hcount := h.session.reads Session.sqCount fun _ _ _ _ => rfl
  change sh.s.sqCount = (sv.sessions idx).sqCount at hcount
  set queued : Shared n := { sh with
    s := sh.s.enqueue p
    lock := some t
    queuedFor := sh.queuedFor ++ [sid]
    enqueued := sh.enqueued ++ [p] }
  have henter : exec idx t false sh (.enterQueue sid p) =
      some (queued, [.exchangePending (.sendPacket sid), .leaveLock]) := by
    rw [exec, if_neg (by simp [hlock]), if_neg (by omega)]
  have hqueued : Shows idx queued
      ((sv.addRef p).setSession idx (((sv.addRef p).sessions idx).enqueue p)) :=
    h.update (f := fun s => s.enqueue p) (fun _ _ _ _ => rfl) rfl
      (Function.update_self _ _ _) rfl rfl rfl rfl
  obtain ⟨sh₁, halone, hshows, -⟩ := exchangePending_does hqueued (.inr rfl)
    (by simpa [Server.setSession, Session.enqueue] using haccepted) (.sendPacket sid)
  -- the lock is left by its owner, whatever `FlushSend` did to the session
  have hleave : Alone idx t sh₁ [.leaveLock] { sh₁ with lock := none } :=
    .step false rfl (.done _)
  exact ⟨_, .step false henter (halone.append hleave),
    ⟨hshows.session, hshows.pool, hshows.sids⟩, hlock.symm⟩

theorem readGeneration_does (h : Shows idx sh sv) (hlock : sh.lock = none) {sid : SessionID}
    (hsid : sidIndex sid = idx) (hidx : idx < sv.maxSession) {accepted : Bool}
    (haccepted : accepted = true → (sv.sessions idx).sock.isSome = true) (p : PacketRef) :
    Does idx t sh [.readGeneration sid p] (sv.sendPacket sid p accepted).2 := by
  subst hsid
  have hgen := h.session.reads Session.generation fun _ _ _ _ => rfl
  change sh.s.generation = (sv.sessions (sidIndex sid)).generation at hgen
  have hflag := h.session.reads Session.closeFlag fun _ _ _ _ => rfl
  change sh.s.closeFlag = (sv.sessions (sidIndex sid)).closeFlag at hflag
  have hcount := h.session.reads Session.sqCount fun _ _ _ _ => rfl
  change sh.s.sqCount = (sv.sessions (sidIndex sid)).sqCount at hcount
  simp only [Server.sendPacket, if_neg (Nat.not_le.mpr hidx)]
  split
  · rename_i hne
    have hread : exec (sidIndex sid) t false sh (.readGeneration sid p) = some (sh, []) :=
      congrArg (fun new => some (sh, new)) (if_neg (by rwa [hgen]))
    exact .step false hread rfl (.done h)
  · rename_i heq
    have hread : exec (sidIndex sid) t false sh (.readGeneration sid p) =
        some (sh, [.readCloseFlag sid p]) :=
      congrArg (fun new => some (sh, new)) (if_pos (hgen.trans (not_not.mp heq)))
    refine .step false hread rfl ?_
    split
    · rename_i hclosed
      have hclose : exec (sidIndex sid) t false sh (.readCloseFlag sid p) = some (sh, []) :=
        congrArg (fun new => some (sh, new)) (if_pos (hflag.trans hclosed))
      exact .step false hclose rfl (.done h)
    · rename_i hopen
      have hclose : exec (sidIndex sid) t false sh (.readCloseFlag sid p) =
          some (sh, [.enterQueue sid p]) :=
        congrArg (fun new => some (sh, new)) (if_neg (by rwa [hflag]))
      refine .step false hclose rfl ?_
      split
      · rename_i hfull
        have henter : exec (sidIndex sid) t false sh (.enterQueue sid p) =
            some (sh, [.exchangeClose (.full sid)]) := by
          rw [exec, if_neg (by simp [hlock]), if_pos (by omega)]
        exact .step false henter rfl (exchangeClose_does h (.inl hlock) (.full sid))
      · rename_i hroom
        exact enterQueue_does h hlock haccepted (Nat.not_le.mp hroom) sid p

theorem exchangeCloseFlag_lock (sh : Shared n) : sh.exchangeCloseFlag.1.lock = sh.lock := by
  rw [Shared.exchangeCloseFlag]
  split <;> rfl

theorem Does.of_exchange {cause : Cause} {rest : List Instr}
    (h : Does idx t sh (.exchangeClose cause :: rest) sv) :
    Does idx t sh.exchangeCloseFlag.1 (sh.exchangeCloseFlag.2 ++ rest) sv := by
  obtain ⟨sh', halone, hshows, hlock⟩ := h
  cases halone with
  | step choice hexec hrest =>
      obtain ⟨rfl, rfl⟩ := Prod.mk.inj (Option.some.inj hexec)
      exact ⟨sh', hrest, hshows, hlock.trans (exchangeCloseFlag_lock sh).symm⟩

end Steps

/-- A server that has received something for the slot, and nothing else. -/
structure Receives (idx : Nat) (sv sv' : Server) : Prop where
  session : Agrees (sv.sessions idx) (sv'.sessions idx)
  pool : (view sv' idx).inPool = (view sv idx).inPool
  known : announced sv' idx = announced sv idx

section Receiving

variable {idx : Nat} {sv sv₁ sv₂ : Server}

theorem Receives.refl (idx : Nat) (sv : Server) : Receives idx sv sv :=
  ⟨⟨_, _, _, rfl⟩, rfl, rfl⟩

theorem Receives.trans (h : Receives idx sv sv₁) (k : Receives idx sv₁ sv₂) :
    Receives idx sv sv₂ :=
  ⟨h.session.trans k.session, k.pool.trans h.pool, k.known.trans h.known⟩

theorem Shows.receives {sh : Shared n} (h : Shows idx sh sv) (k : Receives idx sv sv₁) :
    Shows idx sh sv₁ :=
  ⟨h.session.trans k.session, h.pool.trans k.pool.symm, h.sids.trans k.known.symm⟩

end Receiving

end IocpChat.SlotAlone
