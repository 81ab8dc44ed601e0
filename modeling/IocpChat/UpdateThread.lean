import IocpChat.ChatRuns
import IocpChat.DbWorker

/-!
The threads of the content layer between `StartContent` and the return of `StopContent`: the
loop of the update thread, the DB worker with its two queues, and the thread that stops
them.  Any steps of the others and of the network may come between two steps of one.  Every
run shows as one of `ChatRuns`, where the jobs wait in one queue until they are answered.
-/

namespace IocpChat.UpdateThread

open IocpChat.Protocol
open IocpChat.PacketBuffer
open IocpChat.LanServer
open IocpChat.SlotInvariant
open IocpChat.SlotLifecycle
open IocpChat.ContentHandlers
open IocpChat.ChatRuns
open IocpChat.DbWorker
open IocpChat.LabelledRun

/-- Where `UpdateLoop` stands. -/
inductive UpdateAt where
  | testRun
  | popMessage
  | popResult (didWork : Bool)
  | handling (dbr : DBResult)
  | sleeping
  | ended

/-- Where `StopContent` stands. -/
inductive StopAt where
  | running
  | waiting
  | stoppingWorker
  | returned
  deriving DecidableEq, Repr

/-- The server with its threads of the content layer. -/
structure ChatServer where
  server : Server
  content : Content
  dbWorker : CDBWorker
  updateAt : UpdateAt
  isRun : Bool
  stopAt : StopAt

/-- The worker behind a `Start` that has failed. -/
def notStarted : CDBWorker :=
  { DbWorker.started with isRun := false, hThread := false, worker := .ended }

/-- `StartContent` goes on whether or not the DB worker could be started. -/
def ChatServer.start (maxSession : Nat) (dbStarted : Bool) : ChatServer where
  server := Server.start maxSession
  content := Content.initial
  dbWorker := if dbStarted then DbWorker.started else notStarted
  updateAt := .testRun
  isRun := true
  stopAt := .running

/-- Which of the threads goes on. -/
inductive ThreadLabel where
  | net (e : NetEvent)
  | update (env : Env) (io : Nat → SendEnv)
  | work (memory : Nat → UInt16) (reply : Option DbReply)
  | stop

/-- `PushJob`. -/
def pushJob (w : CDBWorker) (job : DBJob) : CDBWorker :=
  { w with jobs := w.jobs ++ [job], pushed := w.pushed ++ [job] }

/-- A handler runs to completion; the jobs it has pushed are in the queue of the worker. -/
def completeHandler (C : Crypto) (io : Nat → SendEnv) (hd : Handler) (s : ChatServer) :
    ChatServer :=
  let out := finishHandler C io hd
  { s with
    server := out.server
    content := out.content
    dbWorker := out.jobs.foldl pushJob s.dbWorker
    updateAt := .popResult true }

/-- The next step of `UpdateLoop`. -/
def updateStep (C : Crypto) (toAcp : List UInt16 → List UInt8) (env : Env)
    (io : Nat → SendEnv) (s : ChatServer) : Option ChatServer :=
  match s.updateAt with
  | .testRun => some { s with updateAt := if s.isRun then .popMessage else .ended }
  | .popMessage =>
      match startHandler toAcp ⟨s.server, s.content, []⟩ (.update env io) with
      | none => some { s with updateAt := .popResult false }
      | some hd => some (completeHandler C io hd s)
  | .popResult didWork =>
      match s.dbWorker.results with
      | [] => some { s with updateAt := if didWork then .testRun else .sleeping }
      | r :: results => some
          { s with
            dbWorker :=
              { s.dbWorker with results := results, popped := s.dbWorker.popped ++ [r] }
            updateAt := .handling r }
  | .handling dbr =>
      let out := handleDbResult toAcp s.content dbr
      some (completeHandler C io ⟨s.server, out.1, [], out.2, none⟩ s)
  | .sleeping => some { s with updateAt := .testRun }
  | .ended => none

/-- The next step of `StopContent`. -/
def stopContentStep (s : ChatServer) : Option ChatServer :=
  match s.stopAt with
  | .running => some { s with isRun := false, stopAt := .waiting }
  | .waiting =>
      match s.updateAt with
      | .ended => (act s.dbWorker .callStop).map fun w =>
          { s with dbWorker := w, stopAt := .stoppingWorker }
      | _ => none
  | .stoppingWorker =>
      if s.dbWorker.owner = .returned then some { s with stopAt := .returned }
      else (act s.dbWorker .stop).map fun w => { s with dbWorker := w }
  | .returned => none

/-- A step of one of the threads, where it can take it. -/
def threadStep (C : Crypto) (toAcp : List UInt16 → List UInt8) (s : ChatServer) :
    ThreadLabel → Option ChatServer
  | .net (.sendPacket _ _ _) => none
  | .net e => (netStep C s.server e).map fun sv => { s with server := sv }
  | .update env io => updateStep C toAcp env io s
  | .work memory reply => (act s.dbWorker (.work memory reply)).map fun w =>
      { s with dbWorker := w }
  | .stop => stopContentStep s

/-- The result that has been popped and not been handled. -/
def UpdateAt.inHand : UpdateAt → List DBResult
  | .handling dbr => [dbr]
  | _ => []

/-- The state one level up: a job waits until its result has been handled. -/
def world (s : ChatServer) : World where
  server := s.server
  content := s.content
  jobs := s.dbWorker.pushed.drop (s.dbWorker.popped.length - s.updateAt.inHand.length)

/-- What a step shows there. -/
def shows (s : ChatServer) : ThreadLabel → List ChatEvent
  | .net e => [.net e]
  | .update env io =>
      match s.updateAt, s.server.contentQ with
      | .popMessage, _ :: _ => [.update env io]
      | .handling dbr, _ => [.dbResult dbr.result dbr.userNo dbr.nickname io]
      | _, _ => []
  | .work _ _ => []
  | .stop => []

/-- The results are those of the jobs, in order, and the one in hand is the last that was
popped. -/
structure Answering (s : ChatServer) : Prop where
  accounted : Accounted s.dbWorker
  fits : ResultFits s.dbWorker
  inHand : ∃ before, s.dbWorker.popped = before ++ s.updateAt.inHand

section Handlers

variable {C : Crypto} {toAcp : List UInt16 → List UInt8}

theorem performAll_jobs (io : Nat → SendEnv) (es : List Effect) (sv : Server)
    (jobs : List DBJob) :
    performAll C io es sv jobs =
      ((performAll C io es sv []).1, jobs ++ (performAll C io es sv []).2) := by
  induction es generalizing io sv jobs with
  | nil => simp [performAll]
  | cons e es ih =>
      have hfirst : perform C (io 0) sv jobs e =
          ((perform C (io 0) sv [] e).1, jobs ++ (perform C (io 0) sv [] e).2) := by
        cases e <;> simp [perform]
      simp only [performAll]
      rw [hfirst, ih, ih _ _ (perform C (io 0) sv [] e).2, List.append_assoc]

theorem finishHandler_jobs (io : Nat → SendEnv) (hd : Handler) (jobs : List DBJob) :
    finishHandler C io { hd with jobs := jobs } =
      { finishHandler C io { hd with jobs := [] } with
        jobs := jobs ++ (finishHandler C io { hd with jobs := [] }).jobs } := by
  simp only [finishHandler]
  rw [performAll_jobs]

theorem startHandler_jobs (sv : Server) (c : Content) (env : Env) (io : Nat → SendEnv)
    (jobs : List DBJob) :
    startHandler toAcp ⟨sv, c, jobs⟩ (.update env io) =
      (startHandler toAcp ⟨sv, c, []⟩ (.update env io)).map fun hd =>
        { hd with jobs := jobs } := by
  simp only [startHandler]
  split <;> rfl

theorem startHandler_noJobs {sv : Server} {c : Content} {env : Env} {io : Nat → SendEnv}
    {hd : Handler} (h : startHandler toAcp ⟨sv, c, []⟩ (.update env io) = some hd) :
    hd.jobs = [] ∧ sv.contentQ ≠ [] := by
  simp only [startHandler] at h
  split at h
  · cases h
  all_goals
    rename_i hqueue
    obtain rfl := Option.some.inj h
    exact ⟨rfl, by simp [hqueue]⟩

theorem startHandler_queue {sv : Server} {c : Content} {env : Env} {io : Nat → SendEnv}
    (h : startHandler toAcp ⟨sv, c, []⟩ (.update env io) = none) : sv.contentQ = [] := by
  simp only [startHandler] at h
  split at h
  · assumption
  all_goals cases h

theorem pushJobs_eq (w : CDBWorker) (jobs : List DBJob) :
    jobs.foldl pushJob w = { w with jobs := w.jobs ++ jobs, pushed := w.pushed ++ jobs } := by
  induction jobs generalizing w with
  | nil => simp
  | cons job jobs ih => simp [ih, pushJob]

theorem accounted_pushJobs {w : CDBWorker} (h : Accounted w) (jobs : List DBJob) :
    Accounted (jobs.foldl pushJob w) := by
  obtain ⟨answered, hpushed, hanswers⟩ := h
  refine ⟨answered, ?_, by rw [pushJobs_eq]; exact hanswers⟩
  rw [pushJobs_eq]
  change w.pushed ++ jobs = answered ++ (w.inProgress ++ (w.jobs ++ jobs))
  rw [hpushed, List.append_assoc, List.append_assoc]

theorem popped_length_le {w : CDBWorker} (h : Accounted w) :
    w.popped.length ≤ w.pushed.length := by
  obtain ⟨answered, hpushed, hanswers⟩ := h
  have hlength := congrArg List.length hanswers
  simp only [List.length_map, List.length_append] at hlength
  rw [hpushed, List.length_append]
  omega

theorem job_of_popped {w : CDBWorker} (h : Accounted w) {before : List DBResult} {r : DBResult}
    (hpopped : w.popped = before ++ [r]) :
    ∃ job rest, w.pushed.drop before.length = job :: rest ∧
      w.pushed.drop (before ++ [r]).length = rest ∧ job.type = r.type ∧ job.sid = r.sid := by
  obtain ⟨answered, hpushed, hanswers⟩ := h
  rw [hpopped, List.append_assoc, List.map_append, eq_comm, List.map_eq_append_iff] at hanswers
  obtain ⟨front, back, rfl, hfront, hback⟩ := hanswers
  rw [List.singleton_append, List.map_cons, List.map_eq_cons_iff] at hback
  obtain ⟨job, more, rfl, hkey, -⟩ := hback
  have hlength : front.length = before.length := by
    simpa using congrArg List.length hfront
  have hdrop : w.pushed.drop before.length = job :: (more ++ (w.inProgress ++ w.jobs)) := by
    rw [hpushed, List.append_assoc, ← hlength, List.drop_left, List.cons_append]
  refine ⟨job, more ++ (w.inProgress ++ w.jobs), hdrop, ?_, ?_, ?_⟩
  · rw [List.length_append, ← List.drop_drop, hdrop]
    rfl
  · exact (Prod.mk.inj hkey).2
  · exact (Prod.mk.inj hkey).1

end Handlers

section Refinement

variable {C : Crypto} {toAcp : List UInt16 → List UInt8} {s t : ChatServer}

theorem threadStep_net {e : NetEvent} (hstep : threadStep C toAcp s (.net e) = some t) :
    (∀ sid p accepted, e ≠ .sendPacket sid p accepted) ∧
      ∃ sv, netStep C s.server e = some sv ∧ { s with server := sv } = t := by
  cases e with
  | sendPacket sid p accepted => cases hstep
  | _ => exact ⟨by simp, Option.map_eq_some_iff.mp hstep⟩

theorem net_shows (h : Answering s) {e : NetEvent}
    (hstep : threadStep C toAcp s (.net e) = some t) :
    Answering t ∧ run (chatStep C toAcp) (world s) [.net e] = some (world t) := by
  obtain ⟨hother, sv, hsv, rfl⟩ := threadStep_net hstep
  refine ⟨⟨h.accounted, h.fits, h.inHand⟩, ?_⟩
  have hchat : chatStep C toAcp (world s) (.net e) = some { world s with server := sv } := by
    cases e with
    | sendPacket sid p accepted => exact absurd rfl (hother sid p accepted)
    | _ => simp only [chatStep, world, hsv, Option.map_some]
  rw [run_cons_of_step _ hchat]
  rfl

theorem world_completeHandler (h : Answering s) (hd : Handler) (hjobs : hd.jobs = [])
    (io : Nat → SendEnv) :
    world (completeHandler C io hd s) =
      finishHandler C io { hd with jobs := s.dbWorker.pushed.drop s.dbWorker.popped.length } := by
  have hle := popped_length_le h.accounted
  rw [finishHandler_jobs]
  obtain ⟨sv, c, jobs, effects, msg⟩ := hd
  obtain rfl : jobs = [] := hjobs
  simp only [world, completeHandler, UpdateAt.inHand, pushJobs_eq, List.length_nil, Nat.sub_zero]
  rw [List.drop_append_of_le_length hle]

theorem answering_completeHandler (h : Answering s) (hd : Handler) (io : Nat → SendEnv) :
    Answering (completeHandler C io hd s) := by
  refine ⟨accounted_pushJobs h.accounted _, ?_, ⟨_, (List.append_nil _).symm⟩⟩
  simp only [completeHandler, pushJobs_eq]
  exact h.fits

theorem answering_goto (h : Answering s) {updateAt : UpdateAt} (hhere : s.updateAt.inHand = [])
    (hthere : updateAt.inHand = []) :
    Answering { s with updateAt := updateAt } ∧
      world { s with updateAt := updateAt } = world s := by
  refine ⟨⟨h.accounted, h.fits, ?_⟩, ?_⟩
  · obtain ⟨before, hbefore⟩ := h.inHand
    rw [hhere] at hbefore
    exact ⟨before, hthere.symm ▸ hbefore⟩
  · simp only [world, hhere, hthere]

theorem update_shows (h : Answering s) {env : Env} {io : Nat → SendEnv}
    (hstep : updateStep C toAcp env io s = some t) :
    Answering t ∧ run (chatStep C toAcp) (world s) (shows s (.update env io)) =
      some (world t) := by
  simp only [updateStep] at hstep
  cases hat : s.updateAt with
  | testRun =>
      simp only [hat] at hstep
      obtain rfl := Option.some.inj hstep
      obtain ⟨hanswering, hworld⟩ := answering_goto h (by rw [hat]; rfl)
        (show (if s.isRun then UpdateAt.popMessage else .ended).inHand = [] by split <;> rfl)
      rw [hworld]
      simp only [shows, hat]
      exact ⟨hanswering, rfl⟩
  | popMessage =>
      simp only [hat] at hstep
      split at hstep
      · rename_i hnone
        obtain rfl := Option.some.inj hstep
        obtain ⟨hanswering, hworld⟩ := answering_goto h (by rw [hat]; rfl)
          (show (UpdateAt.popResult false).inHand = [] by rfl)
        rw [hworld]
        simp only [shows, hat, startHandler_queue hnone]
        exact ⟨hanswering, rfl⟩
      · rename_i hd hstart
        obtain rfl := Option.some.inj hstep
        obtain ⟨hjobs, hqueue⟩ := startHandler_noJobs hstart
        refine ⟨answering_completeHandler h hd io, ?_⟩
        obtain ⟨m, rest, hcons⟩ := List.exists_cons_of_ne_nil hqueue
        have hchat : chatStep C toAcp (world s) (.update env io) =
            some (world (completeHandler C io hd s)) := by
          rw [world_completeHandler h hd hjobs, chatStep, world, hat, startHandler_jobs, hstart]
          rfl
        simp only [shows, hat, hcons]
        rw [run_cons_of_step _ hchat]
        rfl
  | popResult didWork =>
      simp only [hat] at hstep
      split at hstep
      · obtain rfl := Option.some.inj hstep
        obtain ⟨hanswering, hworld⟩ := answering_goto h (by rw [hat]; rfl)
          (show (if didWork then UpdateAt.testRun else .sleeping).inHand = [] by split <;> rfl)
        rw [hworld]
        simp only [shows, hat]
        exact ⟨hanswering, rfl⟩
      · rename_i r results hresults
        obtain rfl := Option.some.inj hstep
        have hpop : act s.dbWorker .popResult = some
            { s.dbWorker with results := results, popped := s.dbWorker.popped ++ [r] } := by
          simp only [act, hresults]
        obtain ⟨haccounted, hfits⟩ := accounted_act ⟨h.accounted, h.fits⟩ hpop
        refine ⟨⟨haccounted, hfits, ⟨_, rfl⟩⟩, ?_⟩
        simp only [shows, hat, world, UpdateAt.inHand, run_nil, List.length_append,
          List.length_singleton, List.length_nil, Nat.sub_zero, Nat.add_sub_cancel]
  | handling dbr =>
      simp only [hat] at hstep
      obtain rfl := Option.some.inj hstep
      refine ⟨answering_completeHandler h _ io, ?_⟩
      obtain ⟨before, hpopped⟩ := h.inHand
      rw [hat, UpdateAt.inHand] at hpopped
      obtain ⟨job, rest, hjob, hrest, htype, hsid⟩ := job_of_popped h.accounted hpopped
      have hjobs : (world s).jobs = job :: rest := by
        rw [← hjob, world, hat, hpopped, UpdateAt.inHand, List.length_append, List.length_singleton,
          Nat.add_sub_cancel]
      have hchat : chatStep C toAcp (world s) (.dbResult dbr.result dbr.userNo dbr.nickname io) =
          some (world (completeHandler C io ⟨s.server, (handleDbResult toAcp s.content dbr).1, [],
            (handleDbResult toAcp s.content dbr).2, none⟩ s)) := by
        rw [world_completeHandler h _ rfl, hpopped]
        simp only [chatStep, startHandler, hjobs, htype, hsid]
        rw [hrest]
        rfl
      simp only [shows, hat]
      rw [run_cons_of_step _ hchat]
      rfl
  | sleeping =>
      simp only [hat] at hstep
      obtain rfl := Option.some.inj hstep
      obtain ⟨hanswering, hworld⟩ := answering_goto h (by rw [hat]; rfl)
        (show UpdateAt.testRun.inHand = [] by rfl)
      rw [hworld]
      simp only [shows, hat]
      exact ⟨hanswering, rfl⟩
  | ended =>
      simp only [hat] at hstep
      cases hstep

theorem history_of_act {w v : CDBWorker} {a : Act} (hstep : act w a = some v)
    (hpush : ∀ job, a ≠ .pushJob job) (hpop : a ≠ .popResult) :
    v.popped = w.popped ∧ v.pushed = w.pushed := by
  cases a with
  | pushJob job => exact absurd rfl (hpush job)
  | popResult => exact absurd rfl hpop
  | work memory reply =>
      simp only [act, workStep] at hstep
      repeat' split at hstep
      all_goals first
        | cases hstep; exact ⟨rfl, rfl⟩
        | cases hstep
  | callStop =>
      simp only [act] at hstep
      split at hstep <;> cases hstep <;> exact ⟨rfl, rfl⟩
  | stop =>
      obtain ⟨-, -, -, hpushed, hpopped⟩ := stopStep_frame hstep
      exact ⟨hpopped, hpushed⟩

theorem act_shows (h : Answering s) {w : CDBWorker} {a : Act} (hact : act s.dbWorker a = some w)
    (hpush : ∀ job, a ≠ .pushJob job) (hpop : a ≠ .popResult) (stopAt : StopAt) :
    Answering { s with dbWorker := w, stopAt := stopAt } ∧
      world { s with dbWorker := w, stopAt := stopAt } = world s := by
  obtain ⟨hpopped, hpushed⟩ := history_of_act hact hpush hpop
  obtain ⟨haccounted, hfits⟩ := accounted_act ⟨h.accounted, h.fits⟩ hact
  refine ⟨⟨haccounted, hfits, ?_⟩, ?_⟩
  · rw [hpopped]
    exact h.inHand
  · simp only [world, hpopped, hpushed]

theorem stop_shows (h : Answering s) (hstep : stopContentStep s = some t) :
    Answering t ∧ world t = world s := by
  simp only [stopContentStep] at hstep
  split at hstep
  · obtain rfl := Option.some.inj hstep
    exact ⟨⟨h.accounted, h.fits, h.inHand⟩, rfl⟩
  · split at hstep
    · obtain ⟨w, hw, rfl⟩ := Option.map_eq_some_iff.mp hstep
      exact act_shows h hw (by simp) (by simp) .stoppingWorker
    · cases hstep
  · split at hstep
    · obtain rfl := Option.some.inj hstep
      exact ⟨⟨h.accounted, h.fits, h.inHand⟩, rfl⟩
    · obtain ⟨w, hw, rfl⟩ := Option.map_eq_some_iff.mp hstep
      exact act_shows h hw (by simp) (by simp) s.stopAt
  · cases hstep

theorem threadStep_shows (h : Answering s) {l : ThreadLabel}
    (hstep : threadStep C toAcp s l = some t) :
    Answering t ∧ run (chatStep C toAcp) (world s) (shows s l) = some (world t) := by
  cases l with
  | net e => exact net_shows h hstep
  | update env io => exact update_shows h hstep
  | work memory reply =>
      obtain ⟨w, hw, rfl⟩ := Option.map_eq_some_iff.mp hstep
      obtain ⟨hanswering, hworld⟩ := act_shows h hw (by simp) (by simp) s.stopAt
      exact ⟨hanswering, congrArg some hworld.symm⟩
  | stop =>
      obtain ⟨hanswering, hworld⟩ := stop_shows h hstep
      exact ⟨hanswering, congrArg some hworld.symm⟩

theorem start_answering (maxSession : Nat) (dbStarted : Bool) :
    Answering (ChatServer.start maxSession dbStarted) ∧
      world (ChatServer.start maxSession dbStarted) = World.start maxSession := by
  cases dbStarted
  · exact ⟨⟨⟨[], rfl, rfl⟩, by rintro loop job r ⟨⟩, [], rfl⟩, rfl⟩
  · exact ⟨⟨⟨[], rfl, rfl⟩, by rintro loop job r ⟨⟩, [], rfl⟩, rfl⟩

end Refinement

/-- `StopContent` waits for the update thread before it stops the worker, which then drains
its queue. -/
structure Stopping (s : ChatServer) : Prop where
  order : StopOrder s.dbWorker
  drained : Drained s.dbWorker
  running : s.stopAt = .running ∨ s.stopAt = .waiting → s.dbWorker.owner = .running
  ended : s.stopAt = .stoppingWorker ∨ s.stopAt = .returned → s.updateAt = .ended
  returned : s.stopAt = .returned → s.dbWorker.owner = .returned

section Stopping

variable {C : Crypto} {toAcp : List UInt16 → List UInt8} {s t : ChatServer}

theorem Stopping.alive (h : Stopping s) (hat : s.updateAt ≠ .ended) :
    s.dbWorker.owner = .running ∧ s.dbWorker.worker ≠ .ended ∧
      (s.stopAt = .running ∨ s.stopAt = .waiting) := by
  have hstop : s.stopAt = .running ∨ s.stopAt = .waiting := by
    cases hstop : s.stopAt with
    | running => exact .inl rfl
    | waiting => exact .inr rfl
    | stoppingWorker => exact absurd (h.ended (.inl hstop)) hat
    | returned => exact absurd (h.ended (.inr hstop)) hat
  have howner := h.running hstop
  refine ⟨howner, ?_, hstop⟩
  intro hended
  exact h.order.serving (h.order.running howner) (by rw [hended]; trivial)

theorem Stopping.updated (h : Stopping s) (hat : s.updateAt ≠ .ended) (updateAt : UpdateAt)
    (sv : Server) (c : Content) (jobs : List DBJob) (results popped : List DBResult) :
    Stopping { s with
      server := sv
      content := c
      dbWorker :=
        { s.dbWorker with
          jobs := s.dbWorker.jobs ++ jobs
          results := results
          pushed := s.dbWorker.pushed ++ jobs
          popped := popped }
      updateAt := updateAt } := by
  obtain ⟨howner, halive, hstop⟩ := h.alive hat
  obtain ⟨horder, -, hrunning, -, -⟩ := h
  refine ⟨⟨horder.handle, horder.serving, horder.running, horder.clearing, horder.waiting,
    horder.stopped, horder.finished⟩, fun hended => absurd hended halive, hrunning, ?_, ?_⟩
  · rintro (hnow | hnow)
    · rcases hstop with hstop | hstop <;> simp [hstop] at hnow
    · rcases hstop with hstop | hstop <;> simp [hstop] at hnow
  · intro hnow
    rcases hstop with hstop | hstop <;> simp [hstop] at hnow

theorem updateStep_stopping (h : Stopping s) {env : Env} {io : Nat → SendEnv}
    (hstep : updateStep C toAcp env io s = some t) : Stopping t := by
  have hcomplete (hat : s.updateAt ≠ .ended) (hd : Handler) :
      Stopping (completeHandler C io hd s) := by
    simp only [completeHandler, pushJobs_eq]
    exact h.updated hat _ _ _ _ _ _
  have hgoto (hat : s.updateAt ≠ .ended) (updateAt : UpdateAt) :
      Stopping { s with updateAt := updateAt } := by
    have hstay := h.updated hat updateAt s.server s.content [] s.dbWorker.results
      s.dbWorker.popped
    simpa only [List.append_nil] using hstay
  simp only [updateStep] at hstep
  cases hat : s.updateAt with
  | testRun =>
      simp only [hat] at hstep
      obtain rfl := Option.some.inj hstep
      exact hgoto (by simp [hat]) _
  | popMessage =>
      simp only [hat] at hstep
      split at hstep
      · obtain rfl := Option.some.inj hstep
        exact hgoto (by simp [hat]) _
      · obtain rfl := Option.some.inj hstep
        exact hcomplete (by simp [hat]) _
  | popResult didWork =>
      simp only [hat] at hstep
      split at hstep
      · obtain rfl := Option.some.inj hstep
        exact hgoto (by simp [hat]) _
      · rename_i r results hresults
        obtain rfl := Option.some.inj hstep
        have hpop := h.updated (by simp [hat]) (.handling r) s.server s.content [] results
          (s.dbWorker.popped ++ [r])
        simpa only [List.append_nil] using hpop
  | handling dbr =>
      simp only [hat] at hstep
      obtain rfl := Option.some.inj hstep
      exact hcomplete (by simp [hat]) _
  | sleeping =>
      simp only [hat] at hstep
      obtain rfl := Option.some.inj hstep
      exact hgoto (by simp [hat]) _
  | ended =>
      simp only [hat] at hstep
      cases hstep

theorem stop_stopping (h : Stopping s) (hstep : stopContentStep s = some t) : Stopping t := by
  obtain ⟨horder, hdrained, hrunning, hended, hreturned⟩ := id h
  simp only [stopContentStep] at hstep
  split at hstep
  · rename_i hat
    obtain rfl := Option.some.inj hstep
    exact ⟨horder, hdrained, fun _ => hrunning (.inl hat), by simp, by simp⟩
  · split at hstep
    · rename_i hupdate
      obtain ⟨w, hw, rfl⟩ := Option.map_eq_some_iff.mp hstep
      exact ⟨stopOrder_act horder hw, drained_act hdrained (by simp) hw, by simp,
        fun _ => hupdate, by simp⟩
    · cases hstep
  · rename_i hat
    split at hstep
    · rename_i howner
      obtain rfl := Option.some.inj hstep
      exact ⟨horder, hdrained, by simp, fun _ => hended (.inl hat), fun _ => howner⟩
    · obtain ⟨w, hw, rfl⟩ := Option.map_eq_some_iff.mp hstep
      refine ⟨stopOrder_act horder hw, drained_act hdrained (by simp) hw, ?_,
        fun _ => hended (.inl hat), ?_⟩
      · rintro (hnow | hnow) <;> simp [hat] at hnow
      · intro hnow
        simp [hat] at hnow
  · cases hstep

theorem threadStep_stopping (h : Stopping s) {l : ThreadLabel}
    (hstep : threadStep C toAcp s l = some t) : Stopping t := by
  cases l with
  | net e =>
      obtain ⟨-, sv, -, rfl⟩ := threadStep_net hstep
      exact ⟨h.order, h.drained, h.running, h.ended, h.returned⟩
  | update env io => exact updateStep_stopping h hstep
  | work memory reply =>
      obtain ⟨w, hw, rfl⟩ := Option.map_eq_some_iff.mp hstep
      obtain ⟨-, -, howner, -⟩ := workStep_frame hw
      exact ⟨stopOrder_act h.order hw, drained_act h.drained (by simp) hw,
        fun hat => howner.trans (h.running hat), h.ended,
        fun hat => howner.trans (h.returned hat)⟩
  | stop => exact stop_stopping h hstep

theorem start_stopping (maxSession : Nat) : Stopping (ChatServer.start maxSession true) := by
  refine ⟨stopOrder_started, fun _ => rfl, fun _ => rfl, ?_, ?_⟩
  · rintro (h | h) <;> simp [ChatServer.start] at h
  · intro h
    simp [ChatServer.start] at h

/-- A worker that was not started answers nothing. -/
structure Idle (s : ChatServer) : Prop where
  worker : s.dbWorker.worker = .ended
  results : s.dbWorker.results = []
  popped : s.dbWorker.popped = []

theorem updateStep_idle (h : Idle s) {env : Env} {io : Nat → SendEnv}
    (hstep : updateStep C toAcp env io s = some t) : Idle t := by
  have hcomplete (hd : Handler) : Idle (completeHandler C io hd s) := by
    simp only [completeHandler, pushJobs_eq]
    exact ⟨h.worker, h.results, h.popped⟩
  simp only [updateStep] at hstep
  split at hstep
  · obtain rfl := Option.some.inj hstep
    exact ⟨h.worker, h.results, h.popped⟩
  · split at hstep
    · obtain rfl := Option.some.inj hstep
      exact ⟨h.worker, h.results, h.popped⟩
    · obtain rfl := Option.some.inj hstep
      exact hcomplete _
  · split at hstep
    · obtain rfl := Option.some.inj hstep
      exact ⟨h.worker, h.results, h.popped⟩
    · rename_i r results hresults
      rw [h.results] at hresults
      cases hresults
  · obtain rfl := Option.some.inj hstep
    exact hcomplete _
  · obtain rfl := Option.some.inj hstep
    exact ⟨h.worker, h.results, h.popped⟩
  · cases hstep

theorem stop_idle (h : Idle s) (hstep : stopContentStep s = some t) : Idle t := by
  have hact {w : CDBWorker} {a : Act} (hact : act s.dbWorker a = some w)
      (ha : a = .callStop ∨ a = .stop) (stopAt : StopAt) :
      Idle { s with dbWorker := w, stopAt := stopAt } := by
    rcases ha with rfl | rfl
    · simp only [act] at hact
      split at hact <;> cases hact <;> exact ⟨h.worker, h.results, h.popped⟩
    · obtain ⟨-, hresults, hworker, -, hpopped⟩ := stopStep_frame hact
      exact ⟨hworker.trans h.worker, hresults.trans h.results, hpopped.trans h.popped⟩
  simp only [stopContentStep] at hstep
  split at hstep
  · obtain rfl := Option.some.inj hstep
    exact ⟨h.worker, h.results, h.popped⟩
  · split at hstep
    · obtain ⟨w, hw, rfl⟩ := Option.map_eq_some_iff.mp hstep
      exact hact hw (.inl rfl) .stoppingWorker
    · cases hstep
  · split at hstep
    · obtain rfl := Option.some.inj hstep
      exact ⟨h.worker, h.results, h.popped⟩
    · obtain ⟨w, hw, rfl⟩ := Option.map_eq_some_iff.mp hstep
      exact hact hw (.inr rfl) s.stopAt
  · cases hstep

theorem threadStep_idle (h : Idle s) {l : ThreadLabel}
    (hstep : threadStep C toAcp s l = some t) : Idle t := by
  cases l with
  | net e =>
      obtain ⟨-, sv, -, rfl⟩ := threadStep_net hstep
      exact ⟨h.worker, h.results, h.popped⟩
  | update env io => exact updateStep_idle h hstep
  | work memory reply =>
      obtain ⟨w, hw, rfl⟩ := Option.map_eq_some_iff.mp hstep
      exact absurd h.worker (workStep_frame hw).2.2.2
  | stop => exact stop_idle h hstep

end Stopping

theorem waiting_of_returned {s : ChatServer} (h : Answering s) (hstopping : Stopping s)
    (hreturned : s.stopAt = .returned) :
    s.updateAt = .ended ∧ s.dbWorker.worker = .ended ∧
      (world s).jobs.map DBJob.key = s.dbWorker.results.map DBResult.key := by
  have hupdate := hstopping.ended (.inr hreturned)
  have howner := hstopping.returned hreturned
  have hended := hstopping.order.stopped (hstopping.order.finished (.inr howner))
    (by simp [howner])
  refine ⟨hupdate, hended, ?_⟩
  obtain ⟨answered, hpushed, hanswers⟩ := h.accounted
  have hall : s.dbWorker.pushed = answered := by
    rw [hpushed, CDBWorker.inProgress, hended, hstopping.drained hended]
    simp
  rw [world, hupdate, hall, List.map_drop, ← hanswers, List.map_append]
  exact List.drop_left' (by simp [UpdateAt.inHand])

/-- Every run of the threads shows as a run in which the update thread handles a message or
the answer to the oldest job at each step.  When `StopContent` has returned, the jobs that
wait are those whose results lie in the queue; where the worker could not be started, no job
is ever answered. -/
theorem threads_refine_chatStep (C : Crypto) (toAcp : List UInt16 → List UInt8)
    {maxSession : Nat} {dbStarted : Bool} {labels : List ThreadLabel} {s : ChatServer}
    (hrun : run (threadStep C toAcp) (ChatServer.start maxSession dbStarted) labels = some s) :
    run (chatStep C toAcp) (World.start maxSession)
        (shownLabels (threadStep C toAcp) shows (ChatServer.start maxSession dbStarted) labels) =
      some (world s) ∧
    (dbStarted = true → s.stopAt = .returned →
      s.updateAt = .ended ∧ s.dbWorker.worker = .ended ∧
        (world s).jobs.map DBJob.key = s.dbWorker.results.map DBResult.key) ∧
    (dbStarted = false → s.dbWorker.results = [] ∧ (world s).jobs = s.dbWorker.pushed) := by
  obtain ⟨hstart, hworld⟩ := start_answering maxSession dbStarted
  have hshown := run_of_shows (fun _ _ _ hs hstep => threadStep_shows hs hstep) hstart hrun
  rw [hworld] at hshown
  refine ⟨hshown, ?_, ?_⟩
  · rintro rfl hreturned
    have hanswering : Answering s :=
      invariant_of_run _ (fun _ _ _ hs hstep => (threadStep_shows hs hstep).1) hstart hrun
    have hstopping : Stopping s :=
      invariant_of_run _ (fun _ _ _ hs hstep => threadStep_stopping hs hstep)
        (start_stopping maxSession) hrun
    exact waiting_of_returned hanswering hstopping hreturned
  · rintro rfl
    have hidle : Idle s :=
      invariant_of_run _ (fun _ _ _ hs hstep => threadStep_idle hs hstep)
        (show Idle (ChatServer.start maxSession false) from ⟨rfl, rfl, rfl⟩) hrun
    refine ⟨hidle.results, ?_⟩
    rw [world, hidle.popped, List.length_nil, Nat.zero_sub, List.drop_zero]

/-- A client logs in; the answer is there when the update thread has already been told to
end. -/
def unreadAnswer : List ThreadLabel :=
  let update := ThreadLabel.update zeroEnv fun _ => ⟨List.replicate 12 0, fun _ => true⟩
  let work := ThreadLabel.work (fun _ => 0) none
  [.net (.accept 7 true true), update, update, update,
    .net (.recvDone 0 ([194, 0] ++ List.replicate 28 0 ++ [1, 0] ++ List.replicate 192 0) true),
    update, update, update, work, work, work, work, .stop, update, .stop, .stop, .stop, work,
    work, .stop, .stop, .stop]

theorem threads_refine_chatStep_unreadAnswer :
    ∃ s, run (threadStep Crypto.none fun _ => []) (ChatServer.start 1 true) unreadAnswer =
        some s ∧
      run (chatStep Crypto.none fun _ => []) (World.start 1)
        (shownLabels (threadStep Crypto.none fun _ => []) shows (ChatServer.start 1 true)
          unreadAnswer) = some (world s) ∧
      (world s).jobs.map DBJob.key = [(sidOf 0 1, .login)] := by
  have hfacts : ((run (threadStep Crypto.none fun _ => []) (ChatServer.start 1 true)
      unreadAnswer).map fun s => decide (s.stopAt = .returned ∧
        s.dbWorker.results.map DBResult.key = [(sidOf 0 1, .login)])) = some true := by
    decide +kernel
  obtain ⟨s, hrun, hs⟩ := Option.map_eq_some_iff.mp hfacts
  obtain ⟨hreturned, hresults⟩ := of_decide_eq_true hs
  obtain ⟨hshown, hstopped, -⟩ := threads_refine_chatStep Crypto.none (fun _ => []) hrun
  exact ⟨s, hrun, hshown, (hstopped rfl hreturned).2.2.trans hresults⟩

end IocpChat.UpdateThread
