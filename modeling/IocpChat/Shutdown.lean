import IocpChat.ServerOutline

/-!
How the server ends: `main` runs `Stop` and then `StopContent`, the workers leave
one exit packet each, and the update thread goes on until `StopContent` stops it.
Handlers of the network layer run to completion; the update thread makes its calls
of `SendPacket` one at a time.
-/

namespace IocpChat.Shutdown

open IocpChat.Protocol
open IocpChat.PacketBuffer
open IocpChat.ContentHandlers
open IocpChat.LanServer
open IocpChat.ReceivePath
open IocpChat.SlotInvariant
open IocpChat.SlotSteps
open IocpChat.SlotLifecycle
open IocpChat.ChatRuns
open IocpChat.ServerOutline
open IocpChat.LabelledRun

/-- Where `main` is: in the loop that closes the slots, posting the exit packets
(`left` of them still to come), in `WaitForMultipleObjects`, before
`delete[] sessions`, and in `StopContent` before and after it clears `isRun`. -/
inductive MainState where
  | serving
  | closing (idx : Nat)
  | posting (left : Nat)
  | awaiting
  | deleting
  | stopContent
  | joining
  | finished
  deriving DecidableEq, Repr

namespace MainState

/-- The session table is gone. -/
def freed : MainState → Bool
  | .stopContent => true
  | .joining => true
  | .finished => true
  | _ => false

/-- `isRun`, until `StopContent` clears it. -/
def isRun : MainState → Bool
  | .joining => false
  | .finished => false
  | _ => true

end MainState

/-- A handler of the update thread: the effects it has not begun, the packet it is
sending with the sessions still to come, and the message it handles. -/
structure Work where
  effects : List Effect
  sending : Option (PacketRef × List SessionID)
  msg : Option PacketRef

/-- Where the update thread is in its loop. -/
inductive UpdateState where
  | atTest
  | atMessage
  | working (work : Work)
  | atResults
  | ended

/-- The whole process; `late` are the identifiers for which `SendPacket` has read the
session table after it was freed. -/
structure Process where
  world : World
  workerCount : Nat
  main : MainState
  exits : Nat
  workers : Nat
  update : UpdateState
  late : List SessionID

/-- `Start` and `StartContent` have returned. -/
def Process.start (maxSession workerCount : Nat) : Process where
  world := World.start maxSession
  workerCount := workerCount
  main := .serving
  exits := 0
  workers := workerCount
  update := .atTest
  late := []

/-- A step of a worker thread, of `main`, or of the update thread. -/
inductive ShutdownEvent where
  | net (e : NetEvent)
  | exitPacket
  | main
  | testRun
  | popMessage (env : Env)
  | noMessage
  | popResult (result : Int) (userNo : BitVec 32) (nickname : Nat → UInt16)
  | noResult
  | work (io : SendEnv)

/-- The network layer has made a step. -/
def Process.setServer (s : Process) (sv : Server) : Process :=
  { s with world := { s.world with server := sv } }

/-- The next step of `main`: `Stop` closes the slots, posts an exit packet for each worker
and waits for them, and `StopContent` follows. -/
def mainStep (s : Process) : Option Process :=
  match s.main with
  | .serving => some { s with main := .closing 0 }
  | .closing idx =>
      if idx < s.world.server.maxSession then
        some { s.setServer (s.world.server.closeSession idx) with main := .closing (idx + 1) }
      else some { s with main := .posting s.workerCount }
  | .posting (left + 1) => some { s with exits := s.exits + 1, main := .posting left }
  | .posting 0 => some { s with main := .awaiting }
  | .awaiting => if s.workers = 0 then some { s with main := .deleting } else none
  | .deleting => some { s with main := .stopContent }
  | .stopContent => some { s with main := .joining }
  | .joining =>
      match s.update with
      | .ended => some { s with main := .finished }
      | _ => none
  | .finished => none

/-- The accept thread works until `Stop` has waited for it, a worker until it has
taken an exit packet; `Disconnect` is called by nobody. -/
def netAllowed (s : Process) : NetEvent → Bool
  | .accept _ _ _ => s.main = .serving
  | .recvDone _ _ _ => 0 < s.workers
  | .recvFailed _ => 0 < s.workers
  | .sendDone _ _ => 0 < s.workers
  | .sendFailed _ => 0 < s.workers
  | .sendPacket _ _ _ => false
  | .disconnect _ => false

/-- The update thread calls `SendPacket`. -/
def sendStep (s : Process) (sid : SessionID) (p : PacketRef) (accepted : Bool) : Process :=
  if s.main.freed then
    if sidIndex sid < s.world.server.maxSession then { s with late := s.late ++ [sid] } else s
  else s.setServer (s.world.server.sendPacket sid p accepted).2

/-- The next thing the handler does. -/
def workStep (C : Crypto) (io : SendEnv) (s : Process) (work : Work) : Process :=
  match work.sending with
  | some (p, sid :: left) =>
      { sendStep s sid p (io.accepted sid) with
        update := .working { work with sending := some (p, left) } }
  | some (p, []) =>
      { s.setServer (s.world.server.release p) with
        update := .working { work with sending := none } }
  | none =>
      match work.effects with
      | .pushJob job :: rest =>
          { s with
            world := { s.world with jobs := s.world.jobs ++ [job] }
            update := .working { work with effects := rest } }
      | .send fields targets :: rest =>
          let (p, sv) := buildPacket C io.nonce fields s.world.server
          { s.setServer sv with
            update := .working { work with effects := rest, sending := some (p, targets) } }
      | [] =>
          match work.msg with
          | some pkt => { s.setServer (s.world.server.release pkt) with update := .atResults }
          | none => { s with update := .atResults }

/-- `startHandler` does not look at what sending will take from outside. -/
def noIo : Nat → SendEnv := fun _ => ⟨[], fun _ => false⟩

/-- The update thread starts on the calls of a handler. -/
def beginWork (s : Process) (hd : Handler) : Process :=
  { s with
    world := { server := hd.server, content := hd.content, jobs := hd.jobs }
    update := .working { effects := hd.effects, sending := none, msg := hd.msg } }

/-- What an event does, where it is possible. -/
def shutdownStep (C : Crypto) (toAcp : List UInt16 → List UInt8) (s : Process) :
    ShutdownEvent → Option Process
  | .net e =>
      if netAllowed s e then (netStep C s.world.server e).map s.setServer else none
  | .exitPacket =>
      if 0 < s.exits ∧ 0 < s.workers then
        some { s with exits := s.exits - 1, workers := s.workers - 1 }
      else none
  | .main => mainStep s
  | .testRun =>
      match s.update with
      | .atTest => some { s with update := if s.main.isRun then .atMessage else .ended }
      | _ => none
  | .popMessage env =>
      match s.update with
      | .atMessage => (startHandler toAcp s.world (.update env noIo)).map (beginWork s)
      | _ => none
  | .noMessage =>
      match s.update, s.world.server.contentQ with
      | .atMessage, [] => some { s with update := .atResults }
      | _, _ => none
  | .popResult result userNo nickname =>
      match s.update with
      | .atResults =>
          (startHandler toAcp s.world (.dbResult result userNo nickname noIo)).map (beginWork s)
      | _ => none
  | .noResult =>
      match s.update with
      | .atResults => some { s with update := .atTest }
      | _ => none
  | .work io =>
      match s.update with
      | .working work => some (workStep C io s work)
      | _ => none

section Uninterrupted

variable (C : Crypto) (toAcp : List UInt16 → List UInt8) {s : Process}

/-- The steps of a handler that is not interrupted. -/
def workEvents : (Nat → SendEnv) → List Effect → List ShutdownEvent
  | io, [] => [.work (io 0)]
  | io, .pushJob _ :: rest => .work (io 0) :: workEvents (fun k => io (k + 1)) rest
  | io, .send _ targets :: rest =>
      .work (io 0) :: (List.replicate (targets.length + 1) (.work (io 0)) ++
        workEvents (fun k => io (k + 1)) rest)

theorem run_sending (hthere : s.main.freed = false) (io : SendEnv) (p : PacketRef)
    (effects : List Effect) (msg : Option PacketRef) (w : World) (targets : List SessionID) :
    run (shutdownStep C toAcp)
        { s with world := w, update := .working ⟨effects, some (p, targets), msg⟩ }
        (List.replicate (targets.length + 1) (.work io)) =
      some { s with
        world := { w with server := (sendAll p io.accepted targets w.server).release p }
        update := .working ⟨effects, none, msg⟩ } := by
  induction targets generalizing w with
  | nil => rfl
  | cons sid targets ih =>
      rw [List.length_cons, List.replicate_succ]
      have hstep : shutdownStep C toAcp
          { s with world := w, update := .working ⟨effects, some (p, sid :: targets), msg⟩ }
          (.work io) = some { s with
            world := { w with server := (w.server.sendPacket sid p (io.accepted sid)).2 }
            update := .working ⟨effects, some (p, targets), msg⟩ } := by
        simp only [shutdownStep, workStep, sendStep, hthere, Bool.false_eq_true, if_false,
          Process.setServer]
      rw [run_cons_of_step _ hstep, ih]
      rfl

theorem run_workEvents (hthere : s.main.freed = false) (io : Nat → SendEnv) (hd : Handler) :
    run (shutdownStep C toAcp) (beginWork s hd) (workEvents io hd.effects) =
      some { s with world := finishHandler C io hd, update := .atResults } := by
  obtain ⟨sv, content, jobs, effects, msg⟩ := hd
  induction effects generalizing sv jobs io with
  | nil =>
      rcases msg with _ | pkt
      · rfl
      · rfl
  | cons e effects ih =>
      rcases e with job | ⟨fields, targets⟩
      · exact ih (fun k => io (k + 1)) sv (jobs ++ [job])
      · have hstep : shutdownStep C toAcp
            (beginWork s ⟨sv, content, jobs, .send fields targets :: effects, msg⟩)
            (.work (io 0)) = some { s with
              world := ⟨(buildPacket C (io 0).nonce fields sv).2, content, jobs⟩
              update := .working ⟨effects,
                some ((buildPacket C (io 0).nonce fields sv).1, targets), msg⟩ } := rfl
        rw [workEvents, run_cons_of_step _ hstep, run_append, run_sending C toAcp hthere]
        exact ih (fun k => io (k + 1)) _ jobs

/-- As long as the table is there, the process can take a message or a result as the
server between `Start` and `Stop` does. -/
theorem run_of_chatStep (hthere : s.main.freed = false) {w : World} :
    (∀ env io, s.update = .atMessage → chatStep C toAcp s.world (.update env io) = some w →
      ∃ rest, run (shutdownStep C toAcp) s (.popMessage env :: rest) =
        some { s with world := w, update := .atResults }) ∧
    ∀ result userNo nickname io, s.update = .atResults →
      chatStep C toAcp s.world (.dbResult result userNo nickname io) = some w →
      ∃ rest, run (shutdownStep C toAcp) s (.popResult result userNo nickname :: rest) =
        some { s with world := w, update := .atResults } := by
  refine ⟨?_, ?_⟩
  · intro env io hupdate hstep
    obtain ⟨hd, hstart, rfl⟩ := Option.map_eq_some_iff.mp hstep
    refine ⟨workEvents io hd.effects, ?_⟩
    have hpop : shutdownStep C toAcp s (.popMessage env) = some (beginWork s hd) := by
      have hstart' : startHandler toAcp s.world (.update env noIo) = some hd := hstart
      simp only [shutdownStep, hupdate, hstart', Option.map_some]
    rw [run_cons_of_step _ hpop, run_workEvents C toAcp hthere]
  · intro result userNo nickname io hupdate hstep
    obtain ⟨hd, hstart, rfl⟩ := Option.map_eq_some_iff.mp hstep
    refine ⟨workEvents io hd.effects, ?_⟩
    have hpop : shutdownStep C toAcp s (.popResult result userNo nickname) =
        some (beginWork s hd) := by
      have hstart' : startHandler toAcp s.world (.dbResult result userNo nickname noIo) =
        some hd := hstart
      simp only [shutdownStep, hupdate, hstart', Option.map_some]
    rw [run_cons_of_step _ hpop, run_workEvents C toAcp hthere]

end Uninterrupted

/-- No session has an operation outstanding, the completions that nobody has taken
from the port included. -/
def NoIo (sv : Server) : Prop :=
  ∀ idx, idx < sv.maxSession →
    (sv.sessions idx).recvsOut = 0 ∧ (sv.sessions idx).sendsOut = 0

/-- The table is deleted when no I/O is outstanding, and not read afterwards. -/
structure TableSafe (s : Process) : Prop where
  quiet : s.main = .deleting → NoIo s.world.server
  unread : s.late = []

/-- The calls of `SendPacket` a handler has still to make. -/
def Work.targets (work : Work) : List SessionID :=
  (match work.sending with
    | some (_, left) => left
    | none => []) ++ work.effects.flatMap effectTargets

/-- The sessions that the update thread has still to send to. -/
def UpdateState.targets : UpdateState → List SessionID
  | .working work => work.targets
  | _ => []

/-- The handler that takes this message or result sends nothing. -/
def Silent (toAcp : List UInt16 → List UInt8) (w : World) (e : ChatEvent) : Prop :=
  ∀ hd ∈ startHandler toAcp w e, hd.effects.flatMap effectTargets = []

/-- The condition on a step: the last worker leaves when no I/O is outstanding, the
table is deleted while the update thread is not in the middle of a broadcast, and
what it takes afterwards is not answered. -/
def FreesSafely (toAcp : List UInt16 → List UInt8) (s : Process) : ShutdownEvent → Prop
  | .exitPacket => s.workers = 1 → NoIo s.world.server
  | .main => s.main = .deleting → s.update.targets = []
  | .popMessage env => s.main.freed = true → Silent toAcp s.world (.update env noIo)
  | .popResult result userNo nickname =>
      s.main.freed = true → Silent toAcp s.world (.dbResult result userNo nickname noIo)
  | _ => True

instance (sv : Server) : Decidable (NoIo sv) :=
  inferInstanceAs (Decidable (∀ idx, idx < sv.maxSession → _))

instance (toAcp : List UInt16 → List UInt8) (w : World) (e : ChatEvent) :
    Decidable (Silent toAcp w e) :=
  inferInstanceAs (Decidable (∀ hd ∈ startHandler toAcp w e, _))

instance (toAcp : List UInt16 → List UInt8) (s : Process) :
    DecidablePred (FreesSafely toAcp s)
  | .exitPacket => inferInstanceAs (Decidable (s.workers = 1 → NoIo s.world.server))
  | .main => inferInstanceAs (Decidable (s.main = .deleting → s.update.targets = []))
  | .popMessage env => inferInstanceAs (Decidable (s.main.freed = true →
      Silent toAcp s.world (.update env noIo)))
  | .popResult result userNo nickname => inferInstanceAs (Decidable (s.main.freed = true →
      Silent toAcp s.world (.dbResult result userNo nickname noIo)))
  | .net _ => isTrue trivial
  | .testRun => isTrue trivial
  | .noMessage => isTrue trivial
  | .noResult => isTrue trivial
  | .work _ => isTrue trivial

/-- The slots below this one have been closed by `Stop`. -/
def MainState.closedBelow (maxSession : Nat) : MainState → Nat
  | .serving => 0
  | .closing idx => idx
  | _ => maxSession

/-- `Stop` has not posted any exit packet. -/
def MainState.beforeExits : MainState → Bool
  | .serving => true
  | .closing _ => true
  | _ => false

/-- `WaitForMultipleObjects` has returned. -/
def MainState.afterWait : MainState → Bool
  | .deleting => true
  | m => m.freed

/-- Nobody touches the table once it is gone. -/
structure ProcessOk (s : Process) : Prop where
  working : s.main.beforeExits = true → s.exits = 0 ∧ 0 < s.workers
  closed : ∀ idx, idx < s.main.closedBelow s.world.server.maxSession →
    (s.world.server.sessions idx).closeFlag = true
  quiet : s.workers = 0 → NoIo s.world.server
  gone : s.main.afterWait = true → s.workers = 0
  silent : s.main.freed = true → s.update.targets = []
  unread : s.late = []

namespace ProcessOk

variable {s : Process}

theorem move (h : ProcessOk s) {w : World} {update : UpdateState}
    (hmax : w.server.maxSession = s.world.server.maxSession)
    (hsessions : w.server.sessions = s.world.server.sessions)
    (hsilent : s.main.freed = true → update.targets = []) :
    ProcessOk { s with world := w, update := update } := by
  refine ⟨h.working, ?_, ?_, h.gone, hsilent, h.unread⟩
  · intro idx hidx
    rw [hsessions]
    exact h.closed idx (hmax ▸ hidx)
  · intro hworkers idx hidx
    rw [hsessions]
    exact h.quiet hworkers idx (hmax ▸ hidx)

theorem touch (h : ProcessOk s) {sv : Server} {idx : Nat} (hworkers : 0 < s.workers)
    (htouched : Touches idx (outline s.world.server) (outline sv)) :
    ProcessOk (s.setServer sv) := by
  have hmax : sv.maxSession = s.world.server.maxSession := htouched.maxSession_eq
  refine ⟨h.working, ?_, ?_, h.gone, h.silent, h.unread⟩
  · intro i hi
    exact htouched.closed_of_closed (h.closed i (hmax ▸ hi))
  · intro hnone
    have hnone : s.workers = 0 := hnone
    omega

theorem closed_of_gone (h : ProcessOk s) (hnone : s.workers = 0) {idx : Nat}
    (hidx : idx < s.world.server.maxSession) :
    (s.world.server.sessions idx).closeFlag = true := by
  apply h.closed
  have hexits : s.main.beforeExits ≠ true := by
    intro hbefore
    have hpos := (h.working hbefore).2
    omega
  cases hmain : s.main with
  | serving => simp [hmain, MainState.beforeExits] at hexits
  | closing idx => simp [hmain, MainState.beforeExits] at hexits
  | _ => exact hidx

end ProcessOk

theorem sendPacket_of_closed {sv : Server} {sid : SessionID}
    (hclosed : sidIndex sid < sv.maxSession →
      (sv.sessions (sidIndex sid)).closeFlag = true) (p : PacketRef) (accepted : Bool) :
    (sv.sendPacket sid p accepted).2 = sv := by
  rcases MessageOrigin.sendPacket_eq_or sv sid p accepted with heq | ⟨hidx, -, hopen⟩
  · exact heq
  · simp [hclosed hidx] at hopen

section Steps

variable {s s' : Process}

theorem start_processOk (maxSession : Nat) {workerCount : Nat} (hworkers : 0 < workerCount) :
    ProcessOk (Process.start maxSession workerCount) := by
  refine ⟨fun _ => ⟨rfl, hworkers⟩, ?_, ?_, ?_, fun _ => rfl, rfl⟩
  · intro idx hidx
    simp [Process.start, MainState.closedBelow] at hidx
  · intro hnone
    have hnone : workerCount = 0 := hnone
    omega
  · intro hafter
    simp [Process.start, MainState.afterWait, MainState.freed] at hafter

theorem acceptOne_ok (h : ProcessOk s) (hserving : s.main = .serving) (sv : Server) :
    ProcessOk (s.setServer sv) := by
  have hpos : 0 < s.workers := (h.working (by simp [hserving, MainState.beforeExits])).2
  refine ⟨h.working, ?_, ?_, h.gone, h.silent, h.unread⟩
  · intro idx hidx
    have hidx : idx < s.main.closedBelow sv.maxSession := hidx
    simp [hserving, MainState.closedBelow] at hidx
  · intro hnone
    have hnone : s.workers = 0 := hnone
    omega

theorem net_ok (C : Crypto) (h : ProcessOk s) {e : NetEvent} (hallowed : netAllowed s e = true)
    {sv : Server} (hstep : netStep C s.world.server e = some sv) :
    ProcessOk (s.setServer sv) := by
  cases e with
  | accept sock registered accepted =>
      exact acceptOne_ok h (by simpa [netAllowed] using hallowed) sv
  | recvDone idx bytes accepted =>
      simp only [netStep, Option.ite_none_right_eq_some] at hstep
      obtain rfl := Option.some.inj hstep.2
      exact h.touch (by simpa [netAllowed] using hallowed)
        (recvDone_touches _ idx C bytes accepted)
  | recvFailed idx =>
      simp only [netStep, Option.ite_none_right_eq_some] at hstep
      obtain rfl := Option.some.inj hstep.2
      exact h.touch (by simpa [netAllowed] using hallowed) (recvFailed_touches _ idx)
  | sendDone idx accepted =>
      simp only [netStep, Option.ite_none_right_eq_some] at hstep
      obtain rfl := Option.some.inj hstep.2
      exact h.touch (by simpa [netAllowed] using hallowed) (sendDone_touches _ idx accepted)
  | sendFailed idx =>
      simp only [netStep, Option.ite_none_right_eq_some] at hstep
      obtain rfl := Option.some.inj hstep.2
      exact h.touch (by simpa [netAllowed] using hallowed) (sendFailed_touches _ idx)
  | sendPacket sid p accepted => simp [netAllowed] at hallowed
  | disconnect sid => simp [netAllowed] at hallowed

theorem closing_ok (h : ProcessOk s) {idx : Nat} (hmain : s.main = .closing idx) :
    ProcessOk
      { s.setServer (s.world.server.closeSession idx) with main := .closing (idx + 1) } := by
  have htouched := closeSession_touches s.world.server idx
  obtain ⟨hexits, hpos⟩ := h.working (by simp [hmain, MainState.beforeExits])
  refine ⟨fun _ => ⟨hexits, hpos⟩, ?_, ?_, ?_, ?_, h.unread⟩
  · intro i hi
    have hi : i < idx + 1 := hi
    rcases eq_or_ne i idx with rfl | hne
    · exact closeSession_closed s.world.server i
    · apply htouched.closed_of_closed
      apply h.closed
      rw [hmain]
      exact (by omega : i < idx)
  · intro hnone
    have hnone : s.workers = 0 := hnone
    omega
  · intro hafter
    simp [MainState.afterWait, MainState.freed] at hafter
  · intro hfreed
    simp [MainState.freed] at hfreed

theorem ProcessOk.advance (h : ProcessOk s) {main : MainState} {exits : Nat}
    (hworking : main.beforeExits = true → exits = 0 ∧ 0 < s.workers)
    (hclosed : main.closedBelow s.world.server.maxSession ≤
      s.main.closedBelow s.world.server.maxSession)
    (hgone : main.afterWait = true → s.workers = 0)
    (hsilent : main.freed = true → s.update.targets = []) :
    ProcessOk { s with main := main, exits := exits } :=
  ⟨hworking, fun idx hidx => h.closed idx (lt_of_lt_of_le hidx hclosed), h.quiet, hgone,
    hsilent, h.unread⟩

/-- Once `Stop` has closed all slots, only the workers and the update thread matter. -/
theorem ProcessOk.passLoop (h : ProcessOk s) {main : MainState} {exits : Nat}
    (hall : s.main.closedBelow s.world.server.maxSession = s.world.server.maxSession)
    (hpast : main.beforeExits = false)
    (hgone : main.afterWait = true → s.workers = 0)
    (hsilent : main.freed = true → s.update.targets = []) :
    ProcessOk { s with main := main, exits := exits } := by
  have hclosed : main.closedBelow s.world.server.maxSession = s.world.server.maxSession := by
    cases main with
    | serving => simp [MainState.beforeExits] at hpast
    | closing idx => simp [MainState.beforeExits] at hpast
    | _ => rfl
  refine h.advance ?_ (by rw [hclosed, hall]) hgone hsilent
  rw [hpast]
  simp

theorem main_ok (h : ProcessOk s) (hsafe : s.main = .deleting → s.update.targets = [])
    (hstep : mainStep s = some s') : ProcessOk s' := by
  simp only [mainStep] at hstep
  split at hstep
  · rename_i hmain
    obtain rfl := Option.some.inj hstep
    refine h.advance (fun _ => h.working (by simp [hmain, MainState.beforeExits])) ?_ ?_ ?_
    · simp [MainState.closedBelow]
    · simp [MainState.afterWait, MainState.freed]
    · simp [MainState.freed]
  · rename_i idx hmain
    split at hstep
    · obtain rfl := Option.some.inj hstep
      exact closing_ok h hmain
    · rename_i hend
      obtain rfl := Option.some.inj hstep
      refine h.advance ?_ ?_ ?_ ?_
      · simp [MainState.beforeExits]
      · rw [hmain]
        exact Nat.le_of_not_lt hend
      · simp [MainState.afterWait, MainState.freed]
      · simp [MainState.freed]
  · rename_i left hmain
    obtain rfl := Option.some.inj hstep
    refine h.passLoop (by rw [hmain]; rfl) rfl ?_ ?_
    · simp [MainState.afterWait, MainState.freed]
    · simp [MainState.freed]
  · rename_i hmain
    obtain rfl := Option.some.inj hstep
    refine h.passLoop (by rw [hmain]; rfl) rfl ?_ ?_
    · simp [MainState.afterWait, MainState.freed]
    · simp [MainState.freed]
  · rename_i hmain
    simp only [Option.ite_none_right_eq_some] at hstep
    obtain ⟨hworkers, hs⟩ := hstep
    obtain rfl := Option.some.inj hs
    refine h.passLoop (by rw [hmain]; rfl) rfl (fun _ => hworkers) ?_
    simp [MainState.freed]
  · rename_i hmain
    obtain rfl := Option.some.inj hstep
    have hgone := h.gone (by rw [hmain]; rfl)
    exact h.passLoop (by rw [hmain]; rfl) rfl (fun _ => hgone) fun _ => hsafe hmain
  · rename_i hmain
    obtain rfl := Option.some.inj hstep
    have hgone := h.gone (by rw [hmain]; rfl)
    have hsilent := h.silent (by rw [hmain]; rfl)
    exact h.passLoop (by rw [hmain]; rfl) rfl (fun _ => hgone) fun _ => hsilent
  · rename_i hmain
    have hgone := h.gone (by rw [hmain]; rfl)
    have hsilent := h.silent (by rw [hmain]; rfl)
    split at hstep
    · obtain rfl := Option.some.inj hstep
      exact h.passLoop (by rw [hmain]; rfl) rfl (fun _ => hgone) fun _ => hsilent
    · simp at hstep
  · simp at hstep

/-- A call of `SendPacket` by the update thread: the table is still there, and where
no worker is left every session is closed. -/
theorem sendStep_ok (h : ProcessOk s) (hthere : s.main.freed = false) (sid : SessionID)
    (p : PacketRef) (accepted : Bool) : ProcessOk (sendStep s sid p accepted) := by
  simp only [sendStep, hthere, Bool.false_eq_true, if_false]
  rcases Nat.eq_zero_or_pos s.workers with hnone | hsome
  · rw [sendPacket_of_closed (fun hidx => h.closed_of_gone hnone hidx)]
    exact h
  · exact h.touch hsome (sendPacket_touches _ sid p accepted)

theorem sendStep_main (s : Process) (sid : SessionID) (p : PacketRef) (accepted : Bool) :
    (sendStep s sid p accepted).main = s.main := by
  simp only [sendStep]
  split
  · split <;> rfl
  · rfl

theorem workStep_ok (C : Crypto) (io : SendEnv) (h : ProcessOk s) {work : Work}
    (hwork : s.update = .working work) : ProcessOk (workStep C io s work) := by
  have hsilent : s.main.freed = true → work.targets = [] := by
    intro hfreed
    have htargets := h.silent hfreed
    rwa [hwork] at htargets
  simp only [workStep]
  split
  · rename_i p sid left hsending
    have hthere : s.main.freed = false := by
      by_contra hfreed
      have htargets := hsilent (by simpa using hfreed)
      simp [Work.targets, hsending] at htargets
    refine (sendStep_ok h hthere sid p (io.accepted sid)).move rfl rfl ?_
    intro hfreed
    rw [sendStep_main, hthere] at hfreed
    simp at hfreed
  · rename_i p hsending
    refine h.move (release_maxSession _ p) (Server.release_sessions _ p) ?_
    intro hfreed
    have htargets := hsilent hfreed
    simpa [UpdateState.targets, Work.targets, hsending] using htargets
  · rename_i hsending
    split
    · rename_i job rest heffects
      refine h.move rfl rfl ?_
      intro hfreed
      have htargets := hsilent hfreed
      simpa [UpdateState.targets, Work.targets, hsending, heffects, effectTargets]
        using htargets
    · rename_i fields targets rest heffects
      refine h.move (alloc_maxSession _) (Server.alloc_sessions _) ?_
      intro hfreed
      have htargets := hsilent hfreed
      simpa [UpdateState.targets, Work.targets, hsending, heffects, effectTargets]
        using htargets
    · split
      · rename_i pkt _
        exact h.move (release_maxSession _ pkt) (Server.release_sessions _ pkt) fun _ => rfl
      · exact h.move rfl rfl fun _ => rfl

theorem beginWork_ok {toAcp : List UInt16 → List UInt8} (h : ProcessOk s) {e : ChatEvent}
    (hsafe : s.main.freed = true → Silent toAcp s.world e) {hd : Handler}
    (hstart : startHandler toAcp s.world e = some hd) : ProcessOk (beginWork s hd) := by
  obtain ⟨queue, hqueue⟩ := startHandler_server hstart
  have hmax : hd.server.maxSession = s.world.server.maxSession := by rw [hqueue]
  have hsessions : hd.server.sessions = s.world.server.sessions := by rw [hqueue]
  refine h.move hmax hsessions ?_
  intro hfreed
  have htargets := hsafe hfreed hd hstart
  simpa [UpdateState.targets, Work.targets] using htargets

theorem shutdownStep_ok (C : Crypto) (toAcp : List UInt16 → List UInt8) (h : ProcessOk s)
    {e : ShutdownEvent} (hsafe : FreesSafely toAcp s e)
    (hstep : shutdownStep C toAcp s e = some s') : ProcessOk s' := by
  cases e with
  | net e =>
      simp only [shutdownStep, Option.ite_none_right_eq_some] at hstep
      obtain ⟨sv, hnet, rfl⟩ := Option.map_eq_some_iff.mp hstep.2
      exact net_ok C h hstep.1 hnet
  | exitPacket =>
      simp only [shutdownStep, Option.ite_none_right_eq_some] at hstep
      obtain ⟨⟨hexits, hworkers⟩, hs⟩ := hstep
      obtain rfl := Option.some.inj hs
      refine ⟨?_, h.closed, ?_, ?_, h.silent, h.unread⟩
      · intro hbefore
        have hnone := (h.working hbefore).1
        omega
      · intro hnone
        have hnone : s.workers - 1 = 0 := hnone
        exact hsafe (by omega)
      · intro hafter
        have hnone := h.gone hafter
        omega
  | main => exact main_ok h hsafe hstep
  | testRun =>
      simp only [shutdownStep] at hstep
      split at hstep
      · obtain rfl := Option.some.inj hstep
        refine h.move rfl rfl ?_
        intro _
        split <;> rfl
      · simp at hstep
  | popMessage env =>
      simp only [shutdownStep] at hstep
      split at hstep
      · obtain ⟨hd, hstart, rfl⟩ := Option.map_eq_some_iff.mp hstep
        exact beginWork_ok h hsafe hstart
      · simp at hstep
  | noMessage =>
      simp only [shutdownStep] at hstep
      split at hstep
      · obtain rfl := Option.some.inj hstep
        exact h.move rfl rfl fun _ => rfl
      · simp at hstep
  | popResult result userNo nickname =>
      simp only [shutdownStep] at hstep
      split at hstep
      · obtain ⟨hd, hstart, rfl⟩ := Option.map_eq_some_iff.mp hstep
        exact beginWork_ok h hsafe hstart
      · simp at hstep
  | noResult =>
      simp only [shutdownStep] at hstep
      split at hstep
      · obtain rfl := Option.some.inj hstep
        exact h.move rfl rfl fun _ => rfl
      · simp at hstep
  | work io =>
      simp only [shutdownStep] at hstep
      split at hstep
      · rename_i work hwork
        obtain rfl := Option.some.inj hstep
        exact workStep_ok C io h hwork
      · simp at hstep

theorem ProcessOk.tableSafe (h : ProcessOk s) : TableSafe s := by
  refine ⟨?_, h.unread⟩
  intro hmain
  exact h.quiet (h.gone (by simp [hmain, MainState.afterWait]))

end Steps

/-- `Stop` in good order: the cancelled receive is taken before the exit packet, and
the leave message, which the update thread handles after the table is gone, is not
answered. -/
def goodStop : List ShutdownEvent :=
  let io : SendEnv := ⟨[], fun _ => true⟩
  [.net (.accept 7 true true), .testRun, .popMessage zeroEnv, .work io, .noResult,
    .main, .main, .net (.recvFailed 0), .main, .main, .main, .exitPacket, .main, .main,
    .testRun, .popMessage zeroEnv, .work io, .noResult, .main, .testRun, .main]

/-- A client has asked to enter a room when `Stop` is called.  The worker takes its
exit packet before the completion of the cancelled receive. -/
def hastyStop : List ShutdownEvent :=
  [.net (.accept 7 true true),
    .net (.recvDone 0 ([4, 0] ++ List.replicate 28 0 ++ [2, 0, 1, 0]) true),
    .main, .main, .main, .main, .main, .exitPacket, .main]

/-- The update thread handles the request after `Stop` has returned. -/
def lateAnswer : List ShutdownEvent :=
  let io : SendEnv := ⟨List.replicate 12 0, fun _ => true⟩
  [.main, .testRun, .popMessage zeroEnv, .work io, .noResult,
    .testRun, .popMessage zeroEnv, .work io, .work io]

end IocpChat.Shutdown
