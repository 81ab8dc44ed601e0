import IocpChat.LabelledRun
import IocpChat.ContentHandlers

/-!
The database worker: a queue of jobs and a queue of results, each behind its own
lock, the worker thread that moves one job at a time from the first to the
second, and the thread that stops it.  A critical section is one step; between
two steps of one thread any steps of the others may come.
-/

namespace IocpChat.DbWorker

open IocpChat.RingWindow
open IocpChat.Protocol
open IocpChat.ContentHandlers
open IocpChat.LabelledRun

/-- What `db.Login` or `db.SignUp` has stored through its out-parameters when it
returns true. -/
structure DbReply where
  result : Int
  userNo : BitVec 32
  nickname : Nat → UInt16

/-- `wcsncpy_s(dest, n, src, _TRUNCATE)` -/
def wcsncpyTruncate (dest : Nat → UInt16) (n : Nat) (src : Nat → UInt16) : Nat → UInt16 :=
  blit dest 0 ((slice src 0 (n - 1)).takeWhile (· ≠ 0) ++ [0])

/-- `memory` is what the array of the local `DBResult` holds before its
constructor has run. -/
def processLogin (memory : Nat → UInt16) (job : DBJob) : Option DbReply → DBResult
  | some out =>
      { type := .login
        sid := job.sid
        result := out.result
        userNo := out.userNo
        nickname := wcsncpyTruncate (blit memory 0 [0]) (maxNicknameLen + 1) out.nickname }
  | none =>
      { type := .login
        sid := job.sid
        result := 1
        userNo := 0
        nickname := blit memory 0 [0] }

/-- `ProcessSignUp`, for what the connector has answered. -/
def processSignUp (memory : Nat → UInt16) (job : DBJob) : Option DbReply → DBResult
  | some out =>
      { type := .signUp
        sid := job.sid
        result := out.result
        userNo := out.userNo
        nickname := wcsncpyTruncate (blit memory 0 [0]) (maxNicknameLen + 1) job.nickname }
  | none =>
      { type := .signUp
        sid := job.sid
        result := 1
        userNo := 0
        nickname := blit memory 0 [0] }

/-- `Process`: the handler of the kind of job. -/
def process (memory : Nat → UInt16) (job : DBJob) (reply : Option DbReply) : DBResult :=
  match job.type with
  | .login => processLogin memory job reply
  | .signUp => processSignUp memory job reply

theorem process_answers (memory : Nat → UInt16) (job : DBJob) (reply : Option DbReply) :
    (process memory job reply).sid = job.sid ∧ (process memory job reply).type = job.type := by
  unfold process
  cases htype : job.type <;> cases reply <;> exact ⟨rfl, rfl⟩

/-- The two loops of `WorkerLoop`: the one under `isRun` and the one that empties
the queue afterwards. -/
inductive Loop where
  | serving
  | draining
  deriving DecidableEq, Repr

/-- Where the worker thread stands. -/
inductive WorkerAt where
  | testRun
  | popJob (loop : Loop)
  | processing (loop : Loop) (job : DBJob)
  | pushResult (loop : Loop) (job : DBJob) (r : DBResult)
  | sleeping
  | ended

/-- Where the thread that stops the worker stands. -/
inductive OwnerAt where
  | running
  | testRun
  | clearRun
  | waiting
  | disconnecting
  | returned
  deriving DecidableEq, Repr

/-- `CDBWorker` with its threads.  `pushed` and `popped` record what the calls of
`PushJob` and `PopResult` have passed, in order. -/
structure CDBWorker where
  isRun : Bool
  hThread : Bool
  jobs : List DBJob
  results : List DBResult
  worker : WorkerAt
  owner : OwnerAt
  pushed : List DBJob
  popped : List DBResult

/-- The state a successful `Start` leaves. -/
def started : CDBWorker where
  isRun := true
  hThread := true
  jobs := []
  results := []
  worker := .testRun
  owner := .running
  pushed := []
  popped := []

/-- A step of one of the threads: the update thread pushes a job or pops a result, the
worker works, and `Stop` is called and goes on. -/
inductive Act where
  | pushJob (job : DBJob)
  | popResult
  | work (memory : Nat → UInt16) (reply : Option DbReply)
  | callStop
  | stop

/-- The next step of `WorkerLoop`. -/
def workStep (w : CDBWorker) (memory : Nat → UInt16) (reply : Option DbReply) :
    Option CDBWorker :=
  match w.worker with
  | .testRun =>
      if w.isRun then some { w with worker := .popJob .serving }
      else some { w with worker := .popJob .draining }
  | .popJob loop =>
      match w.jobs, loop with
      | job :: jobs, _ => some { w with jobs := jobs, worker := .processing loop job }
      | [], .serving => some { w with worker := .sleeping }
      | [], .draining => some { w with worker := .ended }
  | .processing loop job =>
      some { w with worker := .pushResult loop job (process memory job reply) }
  | .pushResult .serving _ r => some { w with results := w.results ++ [r], worker := .testRun }
  | .pushResult .draining _ r =>
      some { w with results := w.results ++ [r], worker := .popJob .draining }
  | .sleeping => some { w with worker := .testRun }
  | .ended => none

/-- The next step of `Stop`. -/
def stopStep (w : CDBWorker) : Option CDBWorker :=
  match w.owner with
  | .testRun =>
      if w.isRun then some { w with owner := .clearRun }
      else some { w with owner := .returned }
  | .clearRun => some { w with isRun := false, owner := .waiting }
  | .waiting =>
      if w.hThread then
        -- WaitForSingleObject returns once the thread has ended
        match w.worker with
        | .ended => some { w with hThread := false, owner := .disconnecting }
        | _ => none
      else some { w with owner := .disconnecting }
  | .disconnecting => some { w with owner := .returned }
  | .running => none
  | .returned => none

/-- What a step does, where it can be taken. -/
def act (w : CDBWorker) : Act → Option CDBWorker
  | .pushJob job => some { w with jobs := w.jobs ++ [job], pushed := w.pushed ++ [job] }
  | .popResult =>
      match w.results with
      | [] => some w
      | r :: results => some { w with results := results, popped := w.popped ++ [r] }
  | .work memory reply => workStep w memory reply
  | .callStop =>
      match w.owner with
      | .running => some { w with owner := .testRun }
      | .returned => some { w with owner := .testRun }
      | _ => none
  | .stop => stopStep w

/-- The job that is in neither queue. -/
def CDBWorker.inProgress (w : CDBWorker) : List DBJob :=
  match w.worker with
  | .processing _ job => [job]
  | .pushResult _ job _ => [job]
  | _ => []

/-- What a result must share with its job. -/
def DBJob.key (job : DBJob) : SessionID × DBJobType := (job.sid, job.type)

/-- What ties a result to its job. -/
def DBResult.key (r : DBResult) : SessionID × DBJobType := (r.sid, r.type)

/-- Every job pushed has been answered, is in progress or waits, in this order,
and the answers stand in the order of their jobs. -/
def Accounted (w : CDBWorker) : Prop :=
  ∃ answered, w.pushed = answered ++ (w.inProgress ++ w.jobs) ∧
    (w.popped ++ w.results).map DBResult.key = answered.map DBJob.key

/-- A result about to be pushed belongs to the job in progress. -/
def ResultFits (w : CDBWorker) : Prop :=
  ∀ loop job r, w.worker = .pushResult loop job r → DBResult.key r = DBJob.key job

theorem resultFits_process (w : CDBWorker) (memory : Nat → UInt16) (reply : Option DbReply)
    (loop : Loop) (job : DBJob) :
    ResultFits { w with worker := .pushResult loop job (process memory job reply) } := by
  intro loop' job' r h
  obtain ⟨-, rfl, rfl⟩ := WorkerAt.pushResult.inj h
  obtain ⟨hsid, htype⟩ := process_answers memory job reply
  simp only [DBResult.key, DBJob.key, hsid, htype]

theorem accounted_pushResult {w : CDBWorker} {loop : Loop} {job : DBJob} {r : DBResult}
    (hat : w.worker = .pushResult loop job r) (hw : Accounted w) (hfits : ResultFits w)
    {v : CDBWorker} (hresults : v.results = w.results ++ [r]) (hidle : v.inProgress = [])
    (hjobs : v.jobs = w.jobs) (hpushed : v.pushed = w.pushed) (hpopped : v.popped = w.popped) :
    Accounted v := by
  obtain ⟨answered, hsplit, hanswers⟩ := hw
  simp only [CDBWorker.inProgress, hat] at hsplit
  refine ⟨answered ++ [job], ?_, ?_⟩
  · rw [hpushed, hsplit, hidle, hjobs, List.append_assoc, List.nil_append]
  · rw [hpopped, hresults, ← List.append_assoc, List.map_append, hanswers, List.map_append]
    simp only [List.map_cons, List.map_nil, hfits loop job r hat]

theorem accounted_workStep {w v : CDBWorker} {memory : Nat → UInt16} {reply : Option DbReply}
    (hw : Accounted w) (hfits : ResultFits w) (hstep : workStep w memory reply = some v) :
    Accounted v ∧ ResultFits v := by
  obtain ⟨answered, hpushed, hanswers⟩ := id hw
  unfold workStep at hstep
  split at hstep
  · rename_i hat
    split at hstep <;> cases hstep <;>
      exact ⟨⟨answered, by simpa [CDBWorker.inProgress, hat] using hpushed, hanswers⟩, nofun⟩
  · rename_i loop hat
    simp only [CDBWorker.inProgress, hat, List.nil_append] at hpushed
    split at hstep
    · rename_i job jobs _ hjobs
      cases hstep
      exact ⟨⟨answered, by simpa [CDBWorker.inProgress, hjobs] using hpushed, hanswers⟩, nofun⟩
    · cases hstep
      exact ⟨⟨answered, by simpa [CDBWorker.inProgress] using hpushed, hanswers⟩, nofun⟩
    · cases hstep
      exact ⟨⟨answered, by simpa [CDBWorker.inProgress] using hpushed, hanswers⟩, nofun⟩
  · rename_i loop job hat
    cases hstep
    refine ⟨⟨answered, ?_, hanswers⟩, resultFits_process w memory reply loop job⟩
    simpa [CDBWorker.inProgress, hat] using hpushed
  · rename_i job r hat
    cases hstep
    exact ⟨accounted_pushResult hat hw hfits rfl rfl rfl rfl rfl, nofun⟩
  · rename_i job r hat
    cases hstep
    exact ⟨accounted_pushResult hat hw hfits rfl rfl rfl rfl rfl, nofun⟩
  · rename_i hat
    cases hstep
    exact ⟨⟨answered, by simpa [CDBWorker.inProgress, hat] using hpushed, hanswers⟩, nofun⟩
  · cases hstep

theorem stopStep_frame {w v : CDBWorker} (hstep : stopStep w = some v) :
    v.jobs = w.jobs ∧ v.results = w.results ∧ v.worker = w.worker ∧
      v.pushed = w.pushed ∧ v.popped = w.popped := by
  unfold stopStep at hstep
  repeat' split at hstep
  all_goals first
    | cases hstep; exact ⟨rfl, rfl, rfl, rfl, rfl⟩
    | cases hstep

theorem accounted_of_frame {w v : CDBWorker} (hw : Accounted w) (hfits : ResultFits w)
    (hframe : v.jobs = w.jobs ∧ v.results = w.results ∧ v.worker = w.worker ∧
      v.pushed = w.pushed ∧ v.popped = w.popped) : Accounted v ∧ ResultFits v := by
  obtain ⟨hjobs, hresults, hworker, hpushed, hpopped⟩ := hframe
  refine ⟨?_, ?_⟩
  · unfold Accounted CDBWorker.inProgress
    rw [hjobs, hresults, hworker, hpushed, hpopped]
    exact hw
  · unfold ResultFits
    rw [hworker]
    exact hfits

theorem accounted_act {w v : CDBWorker} {a : Act} (hw : Accounted w ∧ ResultFits w)
    (hstep : act w a = some v) : Accounted v ∧ ResultFits v := by
  obtain ⟨haccounted, hfits⟩ := hw
  cases a with
  | pushJob job =>
      obtain ⟨answered, hpushed, hanswers⟩ := haccounted
      cases hstep
      refine ⟨⟨answered, ?_, hanswers⟩, hfits⟩
      change w.pushed ++ [job] = answered ++ (w.inProgress ++ (w.jobs ++ [job]))
      rw [hpushed]
      simp only [List.append_assoc]
  | popResult =>
      simp only [act] at hstep
      split at hstep
      · cases hstep
        exact ⟨haccounted, hfits⟩
      · rename_i r results hresults
        obtain ⟨answered, hpushed, hanswers⟩ := haccounted
        cases hstep
        refine ⟨⟨answered, hpushed, ?_⟩, hfits⟩
        rw [← hanswers, hresults]
        simp only [List.append_assoc, List.singleton_append]
  | work memory reply => exact accounted_workStep haccounted hfits hstep
  | callStop =>
      simp only [act] at hstep
      split at hstep
      · cases hstep
        exact accounted_of_frame haccounted hfits ⟨rfl, rfl, rfl, rfl, rfl⟩
      · cases hstep
        exact accounted_of_frame haccounted hfits ⟨rfl, rfl, rfl, rfl, rfl⟩
      · cases hstep
  | stop => exact accounted_of_frame haccounted hfits (stopStep_frame hstep)

/-- The worker has left its first loop. -/
def WorkerAt.Leaving : WorkerAt → Prop
  | .testRun => False
  | .popJob loop => loop = .draining
  | .processing loop _ => loop = .draining
  | .pushResult loop _ _ => loop = .draining
  | .sleeping => False
  | .ended => True

/-- How far `Stop` has come fixes the flag and, once it has waited, the end of
the worker thread. -/
structure StopOrder (w : CDBWorker) : Prop where
  handle : w.isRun = true → w.hThread = true
  serving : w.isRun = true → ¬ w.worker.Leaving
  running : w.owner = .running → w.isRun = true
  clearing : w.owner = .clearRun → w.isRun = true
  waiting : w.owner = .waiting → w.isRun = false ∧ w.hThread = true
  stopped : w.isRun = false → w.owner ≠ .waiting → w.worker = .ended
  finished : w.owner = .disconnecting ∨ w.owner = .returned → w.isRun = false

theorem leaving_workStep {w v : CDBWorker} {memory : Nat → UInt16} {reply : Option DbReply}
    (hstep : workStep w memory reply = some v) (hleaving : v.worker.Leaving) :
    w.isRun = false ∨ w.worker.Leaving := by
  unfold workStep at hstep
  repeat' split at hstep
  all_goals first
    | cases hstep; simp_all [WorkerAt.Leaving]
    | cases hstep

theorem workStep_frame {w v : CDBWorker} {memory : Nat → UInt16} {reply : Option DbReply}
    (hstep : workStep w memory reply = some v) :
    v.isRun = w.isRun ∧ v.hThread = w.hThread ∧ v.owner = w.owner ∧ w.worker ≠ .ended := by
  unfold workStep at hstep
  repeat' split at hstep
  all_goals first
    | cases hstep; simp_all
    | cases hstep

theorem stopOrder_act {w v : CDBWorker} {a : Act} (hw : StopOrder w)
    (hstep : act w a = some v) : StopOrder v := by
  cases a with
  | pushJob job =>
      cases hstep
      exact ⟨hw.handle, hw.serving, hw.running, hw.clearing, hw.waiting, hw.stopped, hw.finished⟩
  | popResult =>
      simp only [act] at hstep
      split at hstep <;> cases hstep <;>
        exact ⟨hw.handle, hw.serving, hw.running, hw.clearing, hw.waiting, hw.stopped,
          hw.finished⟩
  | work memory reply =>
      obtain ⟨hrun, hthread, howner, halive⟩ := workStep_frame hstep
      refine ⟨?_, ?_, ?_, ?_, ?_, ?_, ?_⟩
      · rw [hrun, hthread]
        exact hw.handle
      · intro hisRun hleaving
        rcases leaving_workStep hstep hleaving with hcleared | hleft
        · simp [hrun, hcleared] at hisRun
        · exact hw.serving (hrun ▸ hisRun) hleft
      · rw [howner, hrun]
        exact hw.running
      · rw [howner, hrun]
        exact hw.clearing
      · rw [howner, hrun, hthread]
        exact hw.waiting
      · rw [howner, hrun]
        intro hcleared hwaiting
        exact absurd (hw.stopped hcleared hwaiting) halive
      · rw [howner, hrun]
        exact hw.finished
  | callStop =>
      simp only [act] at hstep
      split at hstep
      · rename_i howner
        cases hstep
        have hisRun := hw.running howner
        exact ⟨hw.handle, hw.serving, nofun, nofun, nofun, fun h => by simp [hisRun] at h, nofun⟩
      · rename_i howner
        cases hstep
        exact ⟨hw.handle, hw.serving, nofun, nofun, nofun,
          fun hcleared _ => hw.stopped hcleared (by simp [howner]), nofun⟩
      · cases hstep
  | stop =>
      simp only [act, stopStep] at hstep
      split at hstep
      · rename_i howner
        split at hstep
        · rename_i hisRun
          cases hstep
          exact ⟨hw.handle, hw.serving, nofun, fun _ => hisRun, nofun,
            fun h => by simp [hisRun] at h, nofun⟩
        · rename_i hisRun
          cases hstep
          exact ⟨hw.handle, hw.serving, nofun, nofun, nofun,
            fun hcleared _ => hw.stopped hcleared (by simp [howner]),
            fun _ => by simpa using hisRun⟩
      · rename_i howner
        cases hstep
        have hthread := hw.handle (hw.clearing howner)
        exact ⟨nofun, nofun, nofun, nofun, fun _ => ⟨rfl, hthread⟩, fun _ h => absurd rfl h, nofun⟩
      · rename_i howner
        obtain ⟨hcleared, hthread⟩ := hw.waiting howner
        simp only [hthread, if_true] at hstep
        split at hstep
        · rename_i hended
          cases hstep
          exact ⟨fun h => by simp [hcleared] at h, fun h => by simp [hcleared] at h, nofun, nofun,
            nofun, fun _ _ => hended, fun _ => hcleared⟩
        · cases hstep
      · rename_i howner
        cases hstep
        exact ⟨hw.handle, hw.serving, nofun, nofun, nofun,
          fun hcleared _ => hw.stopped hcleared (by simp [howner]),
          fun _ => hw.finished (.inl howner)⟩
      · cases hstep
      · cases hstep

theorem stopOrder_started : StopOrder started := by
  constructor <;> simp [started, WorkerAt.Leaving]

/-- The worker thread ends on an empty queue. -/
def Drained (w : CDBWorker) : Prop := w.worker = .ended → w.jobs = []

theorem drained_act {w v : CDBWorker} {a : Act} (hw : Drained w)
    (ha : ∀ job, a ≠ .pushJob job) (hstep : act w a = some v) : Drained v := by
  cases a with
  | pushJob job => exact absurd rfl (ha job)
  | popResult =>
      simp only [act] at hstep
      split at hstep <;> cases hstep <;> exact hw
  | work memory reply =>
      simp only [act, workStep] at hstep
      repeat' split at hstep
      all_goals first
        | cases hstep; exact fun _ => ‹w.jobs = []›
        | cases hstep; exact nofun
        | cases hstep
  | callStop =>
      simp only [act] at hstep
      split at hstep <;> cases hstep <;> exact hw
  | stop =>
      obtain ⟨hjobs, -, hworker, -, -⟩ := stopStep_frame hstep
      unfold Drained
      rw [hjobs, hworker]
      exact hw

theorem running_act {w v : CDBWorker} {a : Act} (hw : w.owner = .running)
    (ha : a ≠ .callStop) (hstep : act w a = some v) : v.owner = .running := by
  cases a with
  | pushJob job =>
      cases hstep
      exact hw
  | popResult =>
      simp only [act] at hstep
      split at hstep <;> cases hstep <;> exact hw
  | work memory reply =>
      obtain ⟨-, -, howner, -⟩ := workStep_frame hstep
      rw [howner, hw]
  | callStop => exact absurd rfl ha
  | stop => simp [act, stopStep, hw] at hstep

theorem accounted_of_run {acts : List Act} {w : CDBWorker}
    (hrun : run act started acts = some w) : Accounted w :=
  (invariant_of_run act (fun _ _ _ => accounted_act)
    (show Accounted started ∧ ResultFits started from ⟨⟨[], rfl, rfl⟩, nofun⟩) hrun).1

theorem stopOrder_of_run {acts : List Act} {w : CDBWorker}
    (hrun : run act started acts = some w) : StopOrder w :=
  invariant_of_run act (fun _ _ _ => stopOrder_act) stopOrder_started hrun

/-- Where no job is pushed once `Stop` has begun, the worker thread ends on an
empty queue. -/
theorem drained_of_run {before after : List Act} {w : CDBWorker}
    (hrun : run act started (before ++ .callStop :: after) = some w)
    (hbefore : .callStop ∉ before) (hafter : ∀ job, .pushJob job ∉ after) : Drained w := by
  rw [run_append, Option.bind_eq_some_iff] at hrun
  obtain ⟨u, hu, hrest⟩ := hrun
  have howner : u.owner = .running :=
    invariant_of_labels act (· ≠ .callStop) (J := fun w => w.owner = .running)
      (fun _ _ _ => running_act) rfl (fun a ha h => hbefore (h ▸ ha)) hu
  have halive : u.worker ≠ .ended := by
    have horder := stopOrder_of_run hu
    intro hended
    exact horder.serving (horder.running howner) (by rw [hended]; trivial)
  refine invariant_of_labels act (fun a => ∀ job, a ≠ .pushJob job) (J := Drained)
    (fun _ _ _ => drained_act) (fun h => absurd h halive) ?_ hrest
  rintro a ha job rfl
  rcases List.mem_cons.mp ha with h | h
  · cases h
  · exact hafter job h

theorem answers_each_job_once {acts : List Act} {w : CDBWorker}
    (hrun : run act started acts = some w) :
    (∃ answered, w.pushed = answered ++ (w.inProgress ++ w.jobs) ∧
      (w.popped ++ w.results).map DBResult.key = answered.map DBJob.key) ∧
    ∀ before after, acts = before ++ .callStop :: after → .callStop ∉ before →
      (∀ job, .pushJob job ∉ after) → w.owner = .returned →
      w.jobs = [] ∧ w.inProgress = [] ∧
        (w.popped ++ w.results).map DBResult.key = w.pushed.map DBJob.key := by
  have haccounted := accounted_of_run hrun
  refine ⟨haccounted, ?_⟩
  intro before after hacts hbefore hafter hreturned
  have horder := stopOrder_of_run hrun
  have hended := horder.stopped (horder.finished (.inr hreturned)) (by simp [hreturned])
  have hjobs : w.jobs = [] := drained_of_run (hacts ▸ hrun) hbefore hafter hended
  have hidle : w.inProgress = [] := by simp [CDBWorker.inProgress, hended]
  obtain ⟨answered, hpushed, hanswers⟩ := haccounted
  refine ⟨hjobs, hidle, ?_⟩
  rw [hanswers, hpushed, hidle, hjobs]
  simp

/-- A login job, and a run in which `Stop` begins before the worker has seen it. -/
def lateStopJob : DBJob := ⟨.login, 7, fun _ => 0, fun _ => 0, fun _ => 0⟩

def lateStop : List Act :=
  .pushJob lateStopJob :: .callStop ::
    [.work (fun _ => 0) none, .stop, .work (fun _ => 0) none, .stop, .work (fun _ => 0) none,
      .work (fun _ => 0) none, .work (fun _ => 0) none, .work (fun _ => 0) none, .stop, .stop,
      .popResult]

theorem answers_each_job_once_lateStop :
    ∃ w, run act started lateStop = some w ∧ w.owner = .returned ∧ w.jobs = [] ∧
      w.popped.map DBResult.key = [DBJob.key lateStopJob] := by
  refine ⟨_, rfl, rfl, ?_⟩
  have hrun : run act started lateStop = some _ := rfl
  have h := (answers_each_job_once hrun).2 [.pushJob lateStopJob] _ rfl (by simp) (by simp) rfl
  exact ⟨h.1, h.2.2⟩

section Progress

/-- The steps the worker thread still makes once `isRun` is cleared and no job
is pushed any more. -/
def CDBWorker.remaining (w : CDBWorker) : Nat :=
  match w.worker with
  | .testRun => 3 * w.jobs.length + 2
  | .popJob .serving => if w.jobs = [] then 4 else 3 * w.jobs.length + 2
  | .popJob .draining => 3 * w.jobs.length + 1
  | .processing .serving _ => 3 * w.jobs.length + 4
  | .processing .draining _ => 3 * w.jobs.length + 3
  | .pushResult .serving _ _ => 3 * w.jobs.length + 3
  | .pushResult .draining _ _ => 3 * w.jobs.length + 2
  | .sleeping => 3 * w.jobs.length + 3
  | .ended => 0

theorem workStep_remaining {w : CDBWorker} (hcleared : w.isRun = false) {n : Nat}
    (hn : w.remaining = n + 1) (memory : Nat → UInt16) (reply : Option DbReply) :
    ∃ v, workStep w memory reply = some v ∧ v.isRun = false ∧ v.remaining = n := by
  obtain ⟨isRun, hThread, jobs, results, worker, owner, pushed, popped⟩ := w
  simp only at hcleared
  subst hcleared
  cases worker with
  | testRun => exact ⟨_, rfl, rfl, by simpa [CDBWorker.remaining] using hn⟩
  | popJob loop =>
      cases loop with
      | serving =>
          cases jobs with
          | nil => exact ⟨_, rfl, rfl, by simpa [CDBWorker.remaining, eq_comm] using hn⟩
          | cons job jobs =>
              refine ⟨_, rfl, rfl, ?_⟩
              simp [CDBWorker.remaining] at hn ⊢
              omega
      | draining =>
          cases jobs with
          | nil => exact ⟨_, rfl, rfl, by simpa [CDBWorker.remaining, eq_comm] using hn⟩
          | cons job jobs =>
              refine ⟨_, rfl, rfl, ?_⟩
              simp [CDBWorker.remaining] at hn ⊢
              omega
  | processing loop job =>
      cases loop <;> exact ⟨_, rfl, rfl, by simpa [CDBWorker.remaining] using hn⟩
  | pushResult loop job r =>
      cases loop <;> exact ⟨_, rfl, rfl, by simpa [CDBWorker.remaining] using hn⟩
  | sleeping => exact ⟨_, rfl, rfl, by simpa [CDBWorker.remaining] using hn⟩
  | ended => simp [CDBWorker.remaining] at hn

theorem ended_of_remaining {w : CDBWorker} (h : w.remaining = 0) : w.worker = .ended := by
  unfold CDBWorker.remaining at h
  split at h
  all_goals first
    | assumption
    | omega
    | split at h <;> omega

/-- Once the flag is cleared, the worker thread comes to its end whatever its
database calls answer, so that the wait in `Stop` is not for ever. -/
theorem worker_ends {w : CDBWorker} (hcleared : w.isRun = false)
    (calls : List ((Nat → UInt16) × Option DbReply)) (hcalls : calls.length = w.remaining) :
    ∃ v, run act w (calls.map fun call => .work call.1 call.2) = some v ∧ v.worker = .ended := by
  induction calls generalizing w with
  | nil => exact ⟨w, rfl, ended_of_remaining hcalls.symm⟩
  | cons call calls ih =>
      obtain ⟨v, hv, hcleared', hremaining⟩ :=
        workStep_remaining hcleared (by simpa using hcalls.symm) call.1 call.2
      obtain ⟨u, hu, hended⟩ := ih hcleared' hremaining.symm
      have hstep : act w (.work call.1 call.2) = some v := hv
      refine ⟨u, ?_, hended⟩
      rw [List.map_cons, run_cons_of_step act hstep]
      exact hu

end Progress

end IocpChat.DbWorker
