import AioAwsBatch.Submissions

/-!
# The retry policy the manager implements

This module states what `aio_batch_job_manager` does for one job in terms of
the job's attempts, not the coroutine's suspension points (`Phase`,
`Phase.Step`):

* A job with a try left is submitted. It then runs as the attempt the service
  named. A submission the service rejects leaves no attempt to follow.
* A running attempt ends the job with its terminal description. The exception
  is an attempt lost to a spot reclamation: the job goes back to waiting, with
  that try used.
* A job with no try left ends with `None`.
* An adapter's error ends the job, and so does the waiter giving up.

`Task.phase` reads the phase off a task. A record at the loop's head with a
`job_id` has that attempt running. `phase_step` says that each step of the
manager either keeps the phase or makes one move of the policy. So:

* `manager_refines_retry_policy`: every run of the manager is a run of the
  policy, with stuttering steps. This holds from a record with no `job_id`, and
  from a recovered record with a try left.
* `run_jobs_refines_retry_policy`: under every interleaving of the tasks of
  `aio_batch_run_jobs` on jobs with unique names, each task's phases are such a
  run.

A recovered record on its last try is not covered. The policy has no move that
ends a running attempt for want of tries, but the manager makes one
(`manager_skips_recovered_last_try`).
-/

namespace AioAwsBatch

/-- Where a job is in the manager's retry policy. -/
inductive Phase where
  /-- no attempt in flight, `numTries` tries used -/
  | waiting (numTries : Int)
  /-- the attempt `jobId` in flight (`none`: a submission the service rejected) -/
  | running (jobId : Option String) (numTries : Int)
  | finished (o : Outcome)
  deriving DecidableEq, Repr

/-- The moves of the policy for a job with `maxTries` tries. -/
inductive Phase.Step (maxTries : Int) : Phase → Phase → Prop
  /-- a try left: the service takes the submission and names the attempt `J` -/
  | submit {n : Int} (J : String) : n < maxTries → Phase.Step maxTries (.waiting n) (.running (some J) (n + 1))
  /-- a try left: the service rejects the submission -/
  | reject {n : Int} : n < maxTries → Phase.Step maxTries (.waiting n) (.running none n)
  /-- no try left -/
  | exhaust {n : Int} : maxTries ≤ n → Phase.Step maxTries (.waiting n) (.finished (.returned none))
  /-- the attempt ends `SUCCEEDED`, or `FAILED` other than by a spot reclamation -/
  | complete {n : Int} (d : JobDescription) : (d.status = "FAILED" ∨ d.status = "SUCCEEDED") →
      ¬ d.spotReclaimed → Phase.Step maxTries (.running (some d.jobId) n) (.finished (.returned (some d)))
  /-- the attempt is lost to a spot reclamation, its try used -/
  | reclaim {n : Int} (d : JobDescription) : d.spotReclaimed →
      Phase.Step maxTries (.running (some d.jobId) n) (.waiting n)
  /-- the waiter gives up on the attempt -/
  | giveUp {J : Option String} {n : Int} : Phase.Step maxTries (.running J n) (.finished .typeError)
  /-- `aio_batch_job_submit` raises -/
  | failSubmit {n : Int} {err : AdapterError} :
      (err = .runtimeError submitExceeded ∨ ∃ e, err = .clientError e ∧ e.throttled = false) →
      Phase.Step maxTries (.waiting n) (.finished (.raised err))
  /-- the waiter's `aio_batch_job_status` raises -/
  | failStatus {J : Option String} {n : Int} {err : AdapterError} :
      (err = .runtimeError statusExceeded ∨ ∃ e, err = .clientError e ∧ e.throttled = false) →
      Phase.Step maxTries (.running J n) (.finished (.raised err))

/-- The phase of a task: waiting in the submission, after a reset and at the
loop's head with no `job_id`; running at the loop's head with a `job_id`, and
from the save after the submission to the save of the waiter's result;
finished once ended. -/
def Task.phase (t : Task) : Phase :=
  match t.pc with
  | .loop =>
    match t.job.jobId with
    | none => .waiting t.job.numTries
    | some J => .running (some J) t.job.numTries
  | .submit _ | .saveReset => .waiting t.job.numTries
  | .saveSubmitted | .status _ _ | .startPause _ | .pollPause _ | .saveWaited _ => .running t.job.jobId t.job.numTries
  | .done o => .finished o

section Step

variable {responseSuccess : SubmitResponse → Bool} {config : AWSBatchConfig}

theorem maxTries_step {t t' : Task} (hs : Task.Step responseSuccess config t t') : t'.job.maxTries = t.job.maxTries := by
  rcases job_step hs with h | ⟨-, response, h⟩ | ⟨d, h⟩ | h <;> rw [h] <;> rfl

/-- A task comes back to the head of the loop only after a reset, with no
`job_id`. -/
theorem loop_jobId_step {t t' : Task} {inp : Input} {e : Effect} (hi : t.Inv)
    (h : aioBatchJobManager responseSuccess config t inp = some (t', e)) (hl : t'.pc = .loop) :
    t'.job.jobId = none := by
  obtain ⟨job, pc⟩ := t
  rcases aioBatchJobManager_cases h with ⟨hp, -, rfl, -⟩ | ⟨g, n, hp, -, rfl, -⟩ | ⟨hp, -, rfl, -⟩ |
    ⟨f, g, n, hp, -, rfl, -⟩ | ⟨f, hp, -, rfl, -⟩ | ⟨f, hp, -, rfl, -⟩ | ⟨od, hp, -, rfl, -⟩ |
    ⟨hp, -, rfl, -⟩ <;> dsimp only at hp <;> subst hp
  · exact absurd hl (by unfold loopHead; split <;> (try split) <;> simp)
  · rcases n with (_ | _ | _) | _ | _ <;> cases hl
  · cases hl
  · rcases n with (_ | _ | _) | response | _
    any_goals cases hl
    simp only [aioBatchJobStatus] at hl
    rcases @waiterOnResponse_spec config job f response with ⟨d, -, ⟨-, h'⟩ | h' | h'⟩ | ⟨-, ⟨-, h'⟩ | h'⟩ <;>
      rw [h'] at hl <;> cases hl
  · cases hl
  · cases hl
  · rcases afterWait_spec job od with ⟨-, h'⟩ | ⟨d, -, -, h'⟩ | ⟨d, -, -, h'⟩ | ⟨d, rfl, hf, hs, -⟩
    any_goals (rw [h'] at hl; cases hl)
    exact absurd (show job.Terminal d from hi).status_terminal (by tauto)
  · exact hi

/-- Each step of the manager keeps the task's phase or makes one move of the
policy. -/
theorem phase_step {t t' : Task} {inp : Input} {e : Effect} (hi : t.Inv)
    (hl : t.pc = .loop → t.job.jobId = none ∨ t.job.numTries < t.job.maxTries)
    (h : aioBatchJobManager responseSuccess config t inp = some (t', e)) :
    t.phase = t'.phase ∨ Phase.Step t.job.maxTries t.phase t'.phase := by
  obtain ⟨job, pc⟩ := t
  rcases aioBatchJobManager_cases h with ⟨hp, -, rfl, -⟩ | ⟨g, n, hp, hn, rfl, -⟩ | ⟨hp, -, rfl, -⟩ |
    ⟨f, g, n, hp, hn, rfl, -⟩ | ⟨f, hp, -, rfl, -⟩ | ⟨f, hp, -, rfl, -⟩ | ⟨od, hp, -, rfl, -⟩ |
    ⟨hp, -, rfl, -⟩ <;> dsimp only at hp <;> subst hp
  · unfold loopHead
    rcases hid : job.jobId with _ | J <;> split
    · exact .inl (by simp [Task.phase, hid])
    · simp only [Task.phase, hid]
      exact .inr (.exhaust (not_lt.mp ‹_›))
    · exact .inl (by simp [Task.phase, hid])
    · exact absurd ((hl rfl).resolve_left (by simp [hid])) ‹_›
  · rcases n with g' | response | err
    · cases g' <;> exact .inl rfl
    · by_cases hr : responseSuccess response
      · simp only [aioBatchJobSubmit, hr, if_true]
        exact .inr (.submit response.jobId hi.2)
      · simp only [aioBatchJobSubmit, hr, Bool.false_eq_true, if_false]
        show _ ∨ Phase.Step _ _ (.running job.jobId job.numTries)
        rw [hi.1]
        exact .inr (.reject hi.2)
    · exact .inr (.failSubmit (Gate.next_raised hn))
  · exact .inl rfl
  · rcases n with g' | response | err
    · cases g' <;> exact .inl rfl
    · simp only [aioBatchJobStatus]
      rcases @waiterOnResponse_spec config job f response with ⟨d, -, ⟨-, h'⟩ | h' | h'⟩ | ⟨-, ⟨-, h'⟩ | h'⟩ <;>
        rw [h'] <;> exact .inl rfl
    · exact .inr (.failStatus (Gate.next_raised hn))
  · exact .inl rfl
  · exact .inl rfl
  · rcases afterWait_spec job od with ⟨rfl, h'⟩ | ⟨d, rfl, hsp, h'⟩ | ⟨d, rfl, hst, h'⟩ | ⟨d, rfl, hf, hs, h'⟩ <;>
      rw [h']
    · exact .inr .giveUp
    all_goals have hti : job.Terminal d := hi
    · show _ ∨ Phase.Step _ (.running job.jobId job.numTries) (.waiting job.reset.numTries)
      rw [hti.jobId_eq, reset_numTries]
      exact .inr (.reclaim d hsp)
    · show _ ∨ Phase.Step _ (.running job.jobId job.numTries) _
      rw [hti.jobId_eq]
      exact .inr (.complete d hst fun hsp => by rw [afterWait_spot job hsp] at h'; cases congrArg Task.pc h')
    · exact absurd hti.status_terminal (by tauto)
  · have hid : job.jobId = none := hi
    exact .inl (by simp only [Task.phase, hid])

end Step

section Run

variable {responseSuccess : SubmitResponse → Bool} {config : AWSBatchConfig}

theorem phase_chain {t : Task} {l : List Task} (hi : t.Inv)
    (hl : t.pc = .loop → t.job.jobId = none ∨ t.job.numTries < t.job.maxTries)
    (hc : List.Chain (Task.Step responseSuccess config) t l) :
    List.Chain (fun a b => a = b ∨ Phase.Step t.job.maxTries a b) t.phase (l.map Task.phase) := by
  induction hc with
  | nil => exact .nil
  | @cons a b l hab _ ih =>
    obtain ⟨inp, e, h⟩ := hab
    refine .cons (phase_step hi hl h) ?_
    rw [← maxTries_step ⟨inp, e, h⟩]
    exact ih (hi.step h) fun hb => .inl (loop_jobId_step hi h hb)

/-- The manager implements the retry policy. Every run of
`aio_batch_job_manager`, whatever the client answers, is a run of `Phase.Step`,
each step of the coroutine keeping the phase or making one move. The record
has no `job_id`, or it is recovered with a try left. -/
theorem manager_refines_retry_policy (r : AWSBatchJob) (hr : r.jobId = none ∨ r.numTries < r.maxTries)
    (l : List Task) (hrun : List.Chain (Task.Step responseSuccess config) ⟨r, .loop⟩ l) :
    List.Chain (fun a b => a = b ∨ Phase.Step r.maxTries a b) (Task.phase ⟨r, .loop⟩) (l.map Task.phase) :=
  phase_chain (show Task.Inv ⟨r, .loop⟩ from trivial) (fun _ => hr) hrun

/-- Task `j` at each moment of an interleaving. -/
theorem length_filterMap_tasks {s : Sys} {l : List Sys} {j : Nat} (hj : j < s.tasks.length)
    (hc : List.Chain (Sys.Step responseSuccess config) s l) :
    (l.filterMap (·.tasks[j]?)).length = l.length := by
  induction hc with
  | nil => rfl
  | @cons a b l hab _ ih =>
    obtain ⟨i, inp, e, h⟩ := hab
    have hb : j < b.tasks.length := by rw [(Sys.step_tasks h).1]; exact hj
    simp only [List.filterMap_cons, List.getElem?_eq_getElem hb, List.length_cons, ih hb]

theorem phase_sys_chain {s : Sys} {l : List Sys} {j : Nat} {t : Task} (ht : s.tasks[j]? = some t)
    (hi : t.Inv) (hl : t.pc = .loop → t.job.jobId = none ∨ t.job.numTries < t.job.maxTries)
    (hc : List.Chain (Sys.Step responseSuccess config) s l) :
    List.Chain (fun a b => a = b ∨ Phase.Step t.job.maxTries a b) t.phase
      ((l.filterMap (·.tasks[j]?)).map Task.phase) := by
  induction hc generalizing t with
  | nil => exact .nil
  | @cons a b l hab _ ih =>
    obtain ⟨i, inp, e, h⟩ := hab
    obtain ⟨t', ht', rfl | ⟨inp', e', h'⟩⟩ := (Sys.step_tasks h).2 j t ht
    all_goals simp only [List.filterMap_cons, ht', List.map_cons]
    · exact .cons (.inl rfl) (ih ht' hi hl)
    · refine .cons (phase_step hi hl h') ?_
      rw [← maxTries_step ⟨inp', e', h'⟩]
      exact ih ht' (hi.step h') fun hb => .inl (loop_jobId_step hi h' hb)

theorem Sys.jobNames_chain {s : Sys} {l : List Sys} (hc : List.Chain (Sys.Step responseSuccess config) s l) :
    ∀ u ∈ l, u.tasks.map (·.job.jobName) = s.tasks.map (·.job.jobName) := by
  induction hc with
  | nil => simp
  | @cons a b l hab _ ih =>
    obtain ⟨i, inp, e, h⟩ := hab
    intro u hu
    rcases List.mem_cons.mp hu with rfl | hu
    · exact Sys.jobNames_step h
    · exact (ih u hu).trans (Sys.jobNames_step h)

/-- Under every interleaving of the tasks of `aio_batch_run_jobs`, whatever the
client answers, each job's task follows the retry policy. The jobs have unique
names, so no record is listed twice: at every moment no two tasks share a job
name, and no other task changes job `j`'s record. Job `j`'s phase at each
moment, other tasks' steps included, is a run of `Phase.Step` from the phase
of its record at the loop's head. Every job has no `job_id`, or is recovered
with a try left. -/
theorem run_jobs_refines_retry_policy (w : Nat) (jobs : List AWSBatchJob) (db : AWSBatchDB)
    (hjobs : ∀ job ∈ jobs, job.jobId = none ∨ job.numTries < job.maxTries)
    (hnames : (jobs.map (·.jobName)).Nodup) (l : List Sys)
    (hrun : List.Chain (Sys.Step responseSuccess config) (aioBatchRunJobs w jobs db) l)
    (j : Nat) (job : AWSBatchJob) (hj : jobs[j]? = some job) :
    (∀ s ∈ l, (s.tasks.map (·.job.jobName)).Nodup) ∧ (l.filterMap (·.tasks[j]?)).length = l.length ∧
      List.Chain (fun a b => a = b ∨ Phase.Step job.maxTries a b) (Task.phase ⟨job, .loop⟩)
        ((l.filterMap (·.tasks[j]?)).map Task.phase) := by
  have ht : (aioBatchRunJobs w jobs db).tasks[j]? = some ⟨job, .loop⟩ := by simp [aioBatchRunJobs, hj]
  refine ⟨fun s hs => ?_, length_filterMap_tasks (List.getElem?_eq_some_iff.mp ht).1 hrun,
    phase_sys_chain ht trivial (fun _ => hjobs job (List.getElem?_mem hj)) hrun⟩
  rwa [Sys.jobNames_chain hrun s hs, aioBatchRunJobs_jobNames]

end Run

/-- A record recovered with `J9` in flight, whose attempt is lost to a spot
reclamation and whose retry `J10` succeeds. -/
theorem manager_refines_retry_policy_recovered_run :
    let r : AWSBatchJob := AWSBatchJob.new
      { jobName := "t-0001", jobQueue := "batch-dev", jobDefinition := "batch-dev",
        jobId := some "J9", status := some "RUNNABLE", jobTries := some ["J9"], numTries := 1 }
    let l := Task.trace (fun _ => true) {} ⟨r, .loop⟩
      [.resume, .resume, .described ⟨[⟨"J9", "FAILED", some "Host EC2 (instance i-0a1b) terminated.", none⟩]⟩,
        .resume, .resume, .resume, .resume, .submitted ⟨"J10", 200⟩, .resume, .resume,
        .described ⟨[⟨"J10", "SUCCEEDED", none, none⟩]⟩, .resume]
    (r.jobId = none ∨ r.numTries < r.maxTries) ∧
      List.Chain (fun a b => a = b ∨ Phase.Step r.maxTries a b) (Task.phase ⟨r, .loop⟩) (l.map Task.phase) :=
  ⟨.inr (by decide), manager_refines_retry_policy _ (.inr (by decide)) _ (Task.chain_trace _ _)⟩

/-- A new job and a recovered one, interleaved: `t-0000` is submitted as `J1`
while the waiter of `t-0001` finds `J9` succeeded. -/
theorem run_jobs_refines_retry_policy_two_jobs :
    let jobs : List AWSBatchJob :=
      [AWSBatchJob.new { jobName := "t-0000", jobQueue := "batch-dev", jobDefinition := "batch-dev" },
        AWSBatchJob.new
          { jobName := "t-0001", jobQueue := "batch-dev", jobDefinition := "batch-dev",
            jobId := some "J9", status := some "RUNNABLE", jobTries := some ["J9"], numTries := 1 }]
    let l := ((aioBatchRunJobs 2 jobs .empty).steps (fun _ => true) {}
      [(0, .resume), (1, .resume), (0, .resume), (1, .resume), (0, .submitted ⟨"J1", 200⟩),
        (1, .described ⟨[⟨"J9", "SUCCEEDED", none, none⟩]⟩), (1, .resume), (0, .resume)]).map Prod.fst
    (∀ job ∈ jobs, job.jobId = none ∨ job.numTries < job.maxTries) ∧ (jobs.map (·.jobName)).Nodup ∧
      ∀ (j : Nat) (job : AWSBatchJob), jobs[j]? = some job →
        (∀ s ∈ l, (s.tasks.map (·.job.jobName)).Nodup) ∧ (l.filterMap (·.tasks[j]?)).length = l.length ∧
          List.Chain (fun a b => a = b ∨ Phase.Step job.maxTries a b) (Task.phase ⟨job, .loop⟩)
            ((l.filterMap (·.tasks[j]?)).map Task.phase) :=
  ⟨by decide, by decide, fun j job hj => run_jobs_refines_retry_policy 2 _ .empty (by decide) (by decide) _
    ((List.chain_map Prod.fst).2 ((Sys.chain_steps _ {} _).imp fun _ _ ⟨i, inp, h⟩ => ⟨i, inp, _, h⟩)) j job hj⟩

end AioAwsBatch
