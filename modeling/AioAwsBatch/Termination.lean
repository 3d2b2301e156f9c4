import AioAwsBatch.Submissions
import AioAwsBatch.Progress

/-!
# Every run ends, but for a job the service reports unfinished

`aio_batch_job_waiter` has no timeout: it polls as long as `describe_jobs`
reports the job in a status other than `SUCCEEDED` or `FAILED`. Nothing else in
the module loops without bound. Each retry loop of an adapter makes at most
`config.retries` tries. The waiter gives up after more than `config.retries`
responses without the job. A spot retry uses up a try of the record, and a
rejected submission ends the task (`manager_rejected_submission_ends`).

`Task.stepsLeft` is the most steps a task can still take when no response
reports its job unfinished. Its parts are:

* `Gate.stepsLeft`, for a retry loop;
* `turnSteps`, for one turn of the manager's loop;
* `AWSBatchJob.savedSteps`, from the save of the waiter's result on.

A step uses up at least one of these. A step on a response that reports the job
unfinished adds at most `2 * R + 2`: the pauses, then a new retry loop of
`aio_batch_job_status` (`stepsLeft_step`). With `R` for `config.retries`:

* `manager_steps_bounded`: a run of a manager on a record with `L` tries left
  takes at most `1 + (L + 1) * turnSteps R` steps, plus `2 * R + 2` for each
  response that reports its job unfinished;
* `run_jobs_steps_bounded`: the same bound, summed over the jobs, holds for
  every interleaving of the tasks of `aio_batch_run_jobs`;
* `run_jobs_settles`: when the service never reports a job unfinished and the
  semaphore has a slot, every interleaving that has come to where the loop can
  stop has finished `handle_as_completed` (`Sys.handleAsCompletedDone`), after
  at most that many steps, whatever the order in which the tasks are scheduled.
  Every task has returned, and `run_until_complete` returns; or a task has
  raised, and `run_until_complete` raises its exception with the other tasks
  pending.
-/

namespace AioAwsBatch

/-- A `describe_jobs` response reports the job `jobId` unfinished: its entry for
the job has a status other than `FAILED` and `SUCCEEDED`, so the waiter pauses
and polls again. -/
def DescribeResponse.reportsUnfinished (jobId : Option String) (response : DescribeResponse) : Bool :=
  match parseJobDescription jobId response with
  | some jobDesc => decide (jobDesc.status ∉ ["FAILED", "SUCCEEDED"])
  | none => false

/-- The input is a `describe_jobs` response that reports the job `jobId`
unfinished. -/
def Input.reportsUnfinished (jobId : Option String) : Input → Bool
  | .described response => response.reportsUnfinished jobId
  | _ => false

/-- The most steps the retry loop of an adapter can still take from `g`, with
`R` tries: the slot, then a call and a jitter sleep for each try. -/
def Gate.stepsLeft (R : Nat) : Gate → Nat
  | .acquire => 2 * R + 1
  | .call t => 2 * (R - t) + 2
  | .jitter t => 2 * (R - t) + 1

/-- The most steps of one turn of the manager's loop on a record with no
`job_id`, when no response reports the job unfinished. The turn is: the loop's
head, `aio_batch_job_submit` (`2 * R + 1` steps), the save, the waiter's first
poll (`2 * R + 1`), `R` misses (`2 * R + 2` steps each: the pause, then the
poll), and the saves after the waiter. -/
def turnSteps (R : Nat) : Nat := R * (2 * R + 2) + 4 * R + 6

/-- The most steps from the head of the loop, on a record with no `job_id` and
`L` tries left: a turn for each try, then the loop's head that ends it. -/
def loopSteps (R L : Nat) : Nat := 1 + L * turnSteps R

/-- The most steps from the save of the waiter's result on: the save, then,
after a spot failure, the save of the reset record and the loop from its head.
The waiter finds a description only for a record with a `job_id`. -/
def AWSBatchJob.savedSteps (R : Nat) (job : AWSBatchJob) : Nat :=
  if job.jobId = none then 1 else 2 + loopSteps R (job.maxTries - job.numTries).toNat

/-- The most steps a task can still take when no response reports its job
unfinished. Inside the waiter, `R - f` misses are left before it gives up. -/
def Task.stepsLeft (R : Nat) (t : Task) : Nat :=
  match t.pc with
  | .loop =>
    if t.job.numTries < t.job.maxTries ∧ t.job.jobId ≠ none then
      2 * R + 2 + R * (2 * R + 2) + t.job.savedSteps R
    else loopSteps R (t.job.maxTries - t.job.numTries).toNat
  | .submit g =>
    g.stepsLeft R + 2 * R + 4 + R * (2 * R + 2) + loopSteps R ((t.job.maxTries - t.job.numTries).toNat - 1)
  | .saveSubmitted => 2 * R + 2 + R * (2 * R + 2) + t.job.savedSteps R
  | .status f g => g.stepsLeft R + (R - f) * (2 * R + 2) + t.job.savedSteps R
  | .startPause f => 2 * R + 3 + (R - f) * (2 * R + 2) + t.job.savedSteps R
  | .pollPause f => 2 * R + 2 + (R - f) * (2 * R + 2) + t.job.savedSteps R
  | .saveWaited _ => t.job.savedSteps R
  | .saveReset => 1 + loopSteps R (t.job.maxTries - t.job.numTries).toNat
  | .done _ => 0

/-- The most steps the tasks of the loop can still take. -/
def Sys.stepsLeft (R : Nat) (s : Sys) : Nat :=
  (s.tasks.map (·.stepsLeft R)).sum

/-- Task `i`'s input reports its job unfinished. -/
def Sys.reportsUnfinished (s : Sys) (i : Nat) (inp : Input) : Bool :=
  match s.tasks[i]? with
  | some t => inp.reportsUnfinished t.job.jobId
  | none => false

/-- One step of a manager task, with the task after it and whether its input
reported the job unfinished. -/
def Task.PStep (responseSuccess : SubmitResponse → Bool) (config : AWSBatchConfig) (a b : Task × Bool) :
    Prop :=
  ∃ inp e, aioBatchJobManager responseSuccess config a.1 inp = some (b.1, e) ∧
    b.2 = inp.reportsUnfinished a.1.job.jobId

/-- One step of the loop, with the loop after it and whether the input reported
the stepping task's job unfinished. -/
def Sys.PStep (responseSuccess : SubmitResponse → Bool) (config : AWSBatchConfig) (a b : Sys × Bool) :
    Prop :=
  ∃ i inp e, a.1.step responseSuccess config i inp = some (b.1, e) ∧ b.2 = a.1.reportsUnfinished i inp

/-- The steps a task takes on the inputs in turn, each with whether its input
reported the job unfinished, up to the first input it does not wait for. -/
def Task.psteps (responseSuccess : SubmitResponse → Bool) (config : AWSBatchConfig) (t : Task) :
    List Input → List (Task × Bool)
  | [] => []
  | inp :: inps =>
    match aioBatchJobManager responseSuccess config t inp with
    | some r => (r.1, inp.reportsUnfinished t.job.jobId) :: r.1.psteps responseSuccess config inps
    | none => []

/-- The steps of the loop on the scheduled inputs in turn, each with whether its
input reported the stepping task's job unfinished. -/
def Sys.psteps (responseSuccess : SubmitResponse → Bool) (config : AWSBatchConfig) (s : Sys) :
    List (Nat × Input) → List (Sys × Bool)
  | [] => []
  | (i, inp) :: l =>
    match s.step responseSuccess config i inp with
    | some r => (r.1, s.reportsUnfinished i inp) :: r.1.psteps responseSuccess config l
    | none => []

@[simp] theorem savedSteps_recordDescription (R : Nat) (job : AWSBatchJob) (d : JobDescription) :
    (job.recordDescription d).savedSteps R = job.savedSteps R := rfl

@[simp] theorem Input.reportsUnfinished_resume (jobId : Option String) :
    Input.resume.reportsUnfinished jobId = false := rfl

@[simp] theorem stepsLeft_status (R : Nat) (job : AWSBatchJob) (f : Nat) (g : Gate) :
    Task.stepsLeft R ⟨job, .status f g⟩ = g.stepsLeft R + (R - f) * (2 * R + 2) + job.savedSteps R := rfl

theorem Gate.stepsLeft_pos (R : Nat) (g : Gate) : 0 < g.stepsLeft R := by
  cases g <;> simp only [Gate.stepsLeft] <;> omega

theorem savedSteps_pos (R : Nat) (job : AWSBatchJob) : 0 < job.savedSteps R := by
  unfold AWSBatchJob.savedSteps
  split <;> omega

theorem sum_set_le_add {l : List Nat} {i a x y : Nat} (hi : i < l.length) (h : a + x ≤ l[i] + y) :
    (l.set i a).sum + x ≤ l.sum + y := by
  induction l generalizing i with
  | nil => cases hi
  | cons z l ih =>
    cases i with
    | zero =>
      simp only [List.set_cons_zero, List.sum_cons, List.getElem_cons_zero] at h ⊢
      omega
    | succ i =>
      simp only [List.set_cons_succ, List.sum_cons, List.getElem_cons_succ, List.length_cons] at h hi ⊢
      have := ih (by omega) h
      omega

/-- Each step of a retry loop that stays in it uses up one of its steps. -/
theorem Gate.stepsLeft_next {α : Type} {retries : Int} {msg : String} {reply : Input → Option α}
    {g g' : Gate} {inp : Input} (h : Gate.next retries msg reply g inp = some (.stay g')) :
    g'.stepsLeft retries.toNat < g.stepsLeft retries.toNat := by
  rcases Gate.next_stay_cases h with ⟨rfl | ⟨t, rfl⟩, rfl, hlt⟩ | ⟨t, rfl, rfl, hlt⟩ <;>
    simp only [Gate.stepsLeft, Gate.tries_acquire, Gate.tries_jitter] at hlt ⊢ <;> omega

/-- The retry loop returns only from an outstanding call. -/
theorem Gate.next_returned_call {α : Type} {retries : Int} {msg : String} {reply : Input → Option α}
    {g : Gate} {inp : Input} {a : α} (h : Gate.next retries msg reply g inp = some (.returned a)) :
    ∃ t, g = .call t := by
  rcases Gate.next_cases h with ⟨-, -, h⟩ | ⟨t, e, -, -, h⟩ | ⟨t, a', rfl, -, -⟩ | ⟨t, -, -, h⟩
  · exact absurd h.symm (Gate.head_ne_returned 0 a)
  · exact absurd h.symm (Gate.onError_ne_returned t e a)
  · exact ⟨t, rfl⟩
  · exact absurd h.symm (Gate.head_ne_returned t a)

section Step

variable {responseSuccess : SubmitResponse → Bool} {config : AWSBatchConfig}

theorem stepsLeft_loopHead (R : Nat) (job : AWSBatchJob) :
    Task.stepsLeft R ⟨job, loopHead job⟩ + 1 ≤ Task.stepsLeft R ⟨job, .loop⟩ := by
  unfold loopHead
  split
  · rename_i hlt
    split
    · rename_i hid
      obtain ⟨k, hk⟩ : ∃ k, (job.maxTries - job.numTries).toNat = k + 1 :=
        ⟨(job.maxTries - job.numTries).toNat - 1, by omega⟩
      simp only [Task.stepsLeft, Gate.stepsLeft, hid, ne_eq, not_true_eq_false, and_false, if_false, hk,
        Nat.add_sub_cancel, loopSteps, Nat.succ_mul, turnSteps]
      omega
    · rename_i hid
      simp only [Task.stepsLeft, Gate.stepsLeft, hlt, hid, ne_eq, not_false_eq_true, and_self, if_true,
        Nat.sub_zero]
      omega
  · rename_i hlt
    simp only [Task.stepsLeft, hlt, false_and, if_false, loopSteps]
    omega

theorem stepsLeft_aioBatchJobSubmit {job : AWSBatchJob} (hid : job.jobId = none) (hlt : job.numTries < job.maxTries)
    {g : Gate} {inp : Input} {n : GateNext SubmitResponse}
    (hn : Gate.next config.retries submitExceeded Input.submitResponse g inp = some n) :
    (aioBatchJobSubmit responseSuccess job n).1.stepsLeft config.retries.toNat + 1 ≤
      Task.stepsLeft config.retries.toNat ⟨job, .submit g⟩ := by
  rcases n with g' | response | err
  · have := Gate.stepsLeft_next hn
    rcases g' with _ | _ | _ <;> simp only [aioBatchJobSubmit, Task.stepsLeft] <;> omega
  · obtain ⟨t, rfl⟩ := Gate.next_returned_call hn
    by_cases hr : responseSuccess response
    · have hL : (job.maxTries - (job.numTries + 1)).toNat = (job.maxTries - job.numTries).toNat - 1 := by omega
      simp only [aioBatchJobSubmit, hr, if_true, Task.stepsLeft, AWSBatchJob.savedSteps, recordSubmission_jobId,
        reduceCtorEq, if_false, recordSubmission_maxTries, recordSubmission_numTries, Nat.cast_add, Nat.cast_one,
        hL, Gate.stepsLeft]
      omega
    · simp only [aioBatchJobSubmit, hr, Bool.false_eq_true, if_false, Task.stepsLeft, AWSBatchJob.savedSteps, hid,
        if_true, Gate.stepsLeft]
      omega
  · simp only [aioBatchJobSubmit, Task.stepsLeft]
    omega

/-- What the waiter does with a response uses up its steps, except when the
response reports the job unfinished: then it pauses and polls again, `2 * R + 3`
steps at most over what it had. -/
theorem stepsLeft_waiterOnResponse (job : AWSBatchJob) (f : Nat) (response : DescribeResponse) :
    (waiterOnResponse config job f response).stepsLeft config.retries.toNat ≤
      (config.retries.toNat - f) * (2 * config.retries.toNat + 2) + job.savedSteps config.retries.toNat +
        (2 * config.retries.toNat + 3) * (response.reportsUnfinished job.jobId).toNat := by
  unfold waiterOnResponse DescribeResponse.reportsUnfinished
  rcases parseJobDescription job.jobId response with _ | d
  · dsimp only
    split
    · simp only [Task.stepsLeft]
      omega
    · rename_i hle
      have hf : config.retries.toNat - f = config.retries.toNat - (f + 1) + 1 := by omega
      simp only [Task.stepsLeft, hf, Nat.succ_mul]
      omega
  · dsimp only
    split
    · rename_i hterm
      simp only [Task.stepsLeft, savedSteps_recordDescription, hterm, not_true_eq_false, decide_False]
      omega
    · rename_i hterm
      simp only [hterm, not_false_eq_true, decide_True, Bool.toNat_true, Nat.mul_one]
      split <;> simp only [Task.stepsLeft, savedSteps_recordDescription] <;> omega

theorem stepsLeft_aioBatchJobStatus {job : AWSBatchJob} {f : Nat} {g : Gate} {inp : Input}
    {n : GateNext DescribeResponse}
    (hn : Gate.next config.retries statusExceeded Input.describeResponse g inp = some n) :
    (aioBatchJobStatus config job f n).1.stepsLeft config.retries.toNat + 1 ≤
      Task.stepsLeft config.retries.toNat ⟨job, .status f g⟩ +
        (2 * config.retries.toNat + 2) * (inp.reportsUnfinished job.jobId).toNat := by
  rcases n with g' | response | err
  · have := Gate.stepsLeft_next hn
    rcases g' with _ | _ | _ <;> simp only [aioBatchJobStatus, Task.stepsLeft] <;> omega
  · obtain ⟨t, rfl⟩ := Gate.next_returned_call hn
    obtain rfl : inp = .described response := by
      have := Gate.next_returned hn
      cases inp <;> cases this
      rfl
    have hw := @stepsLeft_waiterOnResponse config job f response
    simp only [aioBatchJobStatus, stepsLeft_status, Gate.stepsLeft, Input.reportsUnfinished]
    generalize response.reportsUnfinished job.jobId = b at hw ⊢
    cases b <;> simp only [Bool.toNat_false, Bool.toNat_true, Nat.mul_zero, Nat.mul_one, Nat.add_zero] at hw ⊢ <;>
      omega
  · have := Gate.stepsLeft_pos config.retries.toNat g
    simp only [aioBatchJobStatus, Task.stepsLeft]
    omega

theorem stepsLeft_afterWait (R : Nat) {job : AWSBatchJob} {od : Option JobDescription}
    (h : ∀ d, od = some d → job.Terminal d) :
    (afterWait job od).stepsLeft R + 1 ≤ Task.stepsLeft R ⟨job, .saveWaited od⟩ := by
  have hpos := savedSteps_pos R job
  rcases afterWait_spec job od with ⟨-, h'⟩ | ⟨d, rfl, -, h'⟩ | ⟨d, -, -, h'⟩ | ⟨d, rfl, hf, hs, -⟩
  · rw [h']
    simpa [Task.stepsLeft] using hpos
  · rw [h']
    simp only [Task.stepsLeft, AWSBatchJob.savedSteps, (h d rfl).jobId_eq, reset_numTries, reset_maxTries,
      reduceCtorEq, if_false]
    omega
  · rw [h']
    simpa [Task.stepsLeft] using hpos
  · exact absurd (h d rfl).status_terminal (by tauto)

/-- Each step uses up one of the task's steps; one on a response that reports
the job unfinished adds at most `2 * R + 2`. -/
theorem stepsLeft_step {t t' : Task} {inp : Input} {e : Effect} (hi : t.Inv)
    (h : aioBatchJobManager responseSuccess config t inp = some (t', e)) :
    t'.stepsLeft config.retries.toNat + 1 ≤
      t.stepsLeft config.retries.toNat +
        (2 * config.retries.toNat + 2) * (inp.reportsUnfinished t.job.jobId).toNat := by
  obtain ⟨job, pc⟩ := t
  rcases aioBatchJobManager_cases h with ⟨hp, -, rfl, -⟩ | ⟨g, n, hp, hn, rfl, -⟩ | ⟨hp, -, rfl, -⟩ |
    ⟨f, g, n, hp, hn, rfl, -⟩ | ⟨f, hp, -, rfl, -⟩ | ⟨f, hp, -, rfl, -⟩ | ⟨od, hp, -, rfl, -⟩ |
    ⟨hp, -, rfl, -⟩ <;> dsimp only at hp <;> subst hp
  · exact Nat.le_add_right_of_le (stepsLeft_loopHead _ job)
  · exact Nat.le_add_right_of_le (stepsLeft_aioBatchJobSubmit hi.1 hi.2 hn)
  · refine Nat.le_add_right_of_le ?_
    simp only [Task.stepsLeft, Gate.stepsLeft, Nat.sub_zero]
    omega
  · exact stepsLeft_aioBatchJobStatus hn
  · refine Nat.le_add_right_of_le ?_
    simp only [Task.stepsLeft]
    omega
  · refine Nat.le_add_right_of_le ?_
    simp only [Task.stepsLeft, Gate.stepsLeft]
    omega
  · exact Nat.le_add_right_of_le (stepsLeft_afterWait _ fun d hd => by subst hd; exact hi)
  · refine Nat.le_add_right_of_le ?_
    have hid : job.jobId = none := hi
    simp only [Task.stepsLeft, hid, ne_eq, not_true_eq_false, and_false, if_false]
    omega

/-- The steps left from the head of the loop, on any record: a turn for each try
left, and one more for a recovered `job_id`. -/
theorem stepsLeft_loop_le (R : Nat) (job : AWSBatchJob) :
    Task.stepsLeft R ⟨job, .loop⟩ ≤ 1 + ((job.maxTries - job.numTries).toNat + 1) * turnSteps R := by
  have hturn : turnSteps R = R * (2 * R + 2) + 4 * R + 6 := rfl
  have hm : ((job.maxTries - job.numTries).toNat + 1) * turnSteps R =
      (job.maxTries - job.numTries).toNat * turnSteps R + turnSteps R := Nat.succ_mul _ _
  simp only [Task.stepsLeft, AWSBatchJob.savedSteps, loopSteps]
  split
  · rename_i h
    simp only [h.2, if_false]
    omega
  · omega

end Step

/-! ## Along runs -/

section Run

variable {responseSuccess : SubmitResponse → Bool} {config : AWSBatchConfig}

theorem Task.chain_psteps (t : Task) (b : Bool) (inps : List Input) :
    List.Chain (Task.PStep responseSuccess config) (t, b) (t.psteps responseSuccess config inps) := by
  induction inps generalizing t b with
  | nil => exact .nil
  | cons inp inps ih =>
    unfold Task.psteps
    split
    · next r h => exact .cons ⟨inp, r.2, h, rfl⟩ (ih r.1 _)
    · exact .nil

theorem Sys.chain_psteps (s : Sys) (b : Bool) (l : List (Nat × Input)) :
    List.Chain (Sys.PStep responseSuccess config) (s, b) (s.psteps responseSuccess config l) := by
  induction l generalizing s b with
  | nil => exact .nil
  | cons a l ih =>
    unfold Sys.psteps
    split
    · next r h => exact .cons ⟨_, _, r.2, h, rfl⟩ (ih r.1 _)
    · exact .nil

theorem length_le_stepsLeft {a : Task × Bool} {l : List (Task × Bool)} (hi : a.1.Inv)
    (hc : List.Chain (Task.PStep responseSuccess config) a l) :
    l.length ≤ a.1.stepsLeft config.retries.toNat + (2 * config.retries.toNat + 2) * l.countP (·.2) := by
  induction hc with
  | nil => exact Nat.zero_le _
  | @cons a b l hab _ ih =>
    obtain ⟨inp, e, h, hb⟩ := hab
    have hs := stepsLeft_step hi h
    have hl := ih (hi.step h)
    rw [← hb] at hs
    rw [List.length_cons, List.countP_cons, Nat.mul_add]
    cases hb2 : b.2 <;> simp only [hb2, Bool.toNat_false, Bool.toNat_true, Bool.false_eq_true, if_false, if_true,
      Nat.mul_zero, Nat.mul_one, Nat.add_zero] at hs ⊢ <;> omega

/-- The only unbounded loop of a manager is the waiter polling a job the
service reports unfinished. Whatever else the client answers (throttles,
errors, jobs not found, rejected submissions, spot failures), a run from a
record with `L = max_tries - num_tries` tries left takes at most
`1 + (L + 1) * turnSteps R` steps, with `R = config.retries`. Each response that
reports the job unfinished adds at most `2 * R + 2` steps. -/
theorem manager_steps_bounded (r : AWSBatchJob) (b : Bool) (l : List (Task × Bool))
    (hrun : List.Chain (Task.PStep responseSuccess config) (⟨r, .loop⟩, b) l) :
    l.length ≤ 1 + ((r.maxTries - r.numTries).toNat + 1) * turnSteps config.retries.toNat +
      (2 * config.retries.toNat + 2) * l.countP (·.2) := by
  have h := length_le_stepsLeft (show Task.Inv ⟨r, .loop⟩ from trivial) hrun
  have := stepsLeft_loop_le config.retries.toNat r
  dsimp only at h
  omega

/-- A step of the loop is a step of one task. -/
theorem Sys.stepsLeft_step {s s' : Sys} {i : Nat} {inp : Input} {e : Effect} (hi : ∀ t ∈ s.tasks, t.Inv)
    (h : s.step responseSuccess config i inp = some (s', e)) :
    s'.stepsLeft config.retries.toNat + 1 ≤
      s.stepsLeft config.retries.toNat + (2 * config.retries.toNat + 2) * (s.reportsUnfinished i inp).toNat := by
  obtain ⟨t, t', ht, he, -, -, rfl⟩ := Sys.step_cases h
  obtain ⟨hlt, rfl⟩ := List.getElem?_eq_some_iff.mp ht
  simp only [Sys.stepsLeft, List.map_set, Sys.reportsUnfinished, ht]
  exact sum_set_le_add (by simpa using hlt)
    (by simpa using AioAwsBatch.stepsLeft_step (hi _ (List.getElem_mem hlt)) he)

theorem Sys.length_le_stepsLeft {a : Sys × Bool} {l : List (Sys × Bool)} (hi : ∀ t ∈ a.1.tasks, t.Inv)
    (hc : List.Chain (Sys.PStep responseSuccess config) a l) :
    l.length ≤ a.1.stepsLeft config.retries.toNat + (2 * config.retries.toNat + 2) * l.countP (·.2) := by
  induction hc with
  | nil => exact Nat.zero_le _
  | @cons a b l hab _ ih =>
    obtain ⟨i, inp, e, h, hb⟩ := hab
    have hs := Sys.stepsLeft_step hi h
    have hl := ih (Sys.forall_tasks_step Task.Inv (fun hi h => hi.step h) hi h)
    rw [← hb] at hs
    rw [List.length_cons, List.countP_cons, Nat.mul_add]
    cases hb2 : b.2 <;> simp only [hb2, Bool.toNat_false, Bool.toNat_true, Bool.false_eq_true, if_false, if_true,
      Nat.mul_zero, Nat.mul_one, Nat.add_zero] at hs ⊢ <;> omega

theorem Sys.stepsLeft_aioBatchRunJobs_le (R w : Nat) (jobs : List AWSBatchJob) (db : AWSBatchDB) :
    (aioBatchRunJobs w jobs db).stepsLeft R ≤
      (jobs.map fun job => 1 + ((job.maxTries - job.numTries).toNat + 1) * turnSteps R).sum := by
  simp only [Sys.stepsLeft, aioBatchRunJobs, List.map_map]
  exact List.sum_le_sum fun job _ => stepsLeft_loop_le R job

theorem inv_aioBatchRunJobs (w : Nat) (jobs : List AWSBatchJob) (db : AWSBatchDB) :
    ∀ t ∈ (aioBatchRunJobs w jobs db).tasks, t.Inv := by
  intro t ht
  obtain ⟨job, -, rfl⟩ := List.mem_map.mp ht
  trivial

/-- Under every interleaving of the tasks of `aio_batch_run_jobs` and every
answer of the client, the loop takes at most the sum over the jobs of
`1 + (L + 1) * turnSteps R` steps, with `L` the job's tries left. Each response
that reports the polled job unfinished adds at most `2 * R + 2`. -/
theorem run_jobs_steps_bounded (w : Nat) (jobs : List AWSBatchJob) (db : AWSBatchDB) (b : Bool)
    (l : List (Sys × Bool)) (hrun : List.Chain (Sys.PStep responseSuccess config) (aioBatchRunJobs w jobs db, b) l) :
    l.length ≤ (jobs.map fun job => 1 + ((job.maxTries - job.numTries).toNat + 1) * turnSteps config.retries.toNat).sum +
      (2 * config.retries.toNat + 2) * l.countP (·.2) := by
  have h := Sys.length_le_stepsLeft (inv_aioBatchRunJobs w jobs db) hrun
  have := Sys.stepsLeft_aioBatchRunJobs_le config.retries.toNat w jobs db
  dsimp only at h
  omega

@[simp] theorem Input.reportsUnfinished_awaited (jobId : Option String) (pc : Pc) :
    pc.awaited.reportsUnfinished jobId = false := by
  unfold Pc.awaited
  split <;> rfl

/-- A loop whose tasks have all ended takes no step. -/
theorem Sys.step_eq_none_of_done {s : Sys} (h : ∀ t ∈ s.tasks, ∃ o, t.pc = .done o) (i : Nat) (inp : Input) :
    s.step responseSuccess config i inp = none := by
  unfold Sys.step
  split
  · rfl
  · rename_i t ht
    obtain ⟨o, hpc⟩ := h t (List.getElem?_mem ht)
    obtain ⟨job, pc⟩ := t
    dsimp only at hpc
    subst hpc
    cases inp <;> rfl

/-- The loop ends where the run leads. -/
theorem Sys.reach_of_pchain {a : Sys × Bool} {l : List (Sys × Bool)}
    (hc : List.Chain (Sys.PStep responseSuccess config) a l) :
    Relation.ReflTransGen (Sys.Step responseSuccess config) a.1 ((a :: l).getLast (List.cons_ne_nil _ _)).1 := by
  induction hc with
  | nil => exact .refl
  | @cons a b l hab _ ih =>
    obtain ⟨i, inp, e, h, -⟩ := hab
    rw [List.getLast_cons (List.cons_ne_nil _ _)]
    exact .head ⟨i, inp, e, h⟩ ih

/-- With the semaphore's slots accounted for, and one at least, a task that has
not ended lets the loop go on: it, or a task in a slot, takes the step it
waits for. -/
theorem Sys.Gated.exists_step_awaited {w : Nat} (hw : 0 < w) {s : Sys} (hg : s.Gated w)
    (hd : ∃ t ∈ s.tasks, ∀ o, t.pc ≠ .done o) :
    ∃ j t s' e, s.tasks[j]? = some t ∧ s.step responseSuccess config j t.pc.awaited = some (s', e) := by
  obtain ⟨t, htm, hd⟩ := hd
  obtain ⟨j, ht⟩ := List.mem_iff_getElem?.mp htm
  by_cases hsem : 0 < s.sem
  · obtain ⟨s', e, h⟩ := hg.step_awaited ht hd fun _ => hsem
    exact ⟨j, t, s', e, ht, h⟩
  have hheld : 0 < s.tasks.countP (·.pc.holdsSlot) := by
    have := hg.slots
    omega
  obtain ⟨u, hum, hu⟩ := List.countP_pos_iff.mp hheld
  obtain ⟨k, hk⟩ := List.mem_iff_getElem?.mp hum
  obtain ⟨hud, huw⟩ := Pc.active_of_holdsSlot hu
  obtain ⟨s', e, h⟩ := hg.step_awaited hk hud (by simp [huw])
  exact ⟨k, u, s', e, hk, h⟩

/-- The task has ended by raising: an adapter's error, or the `TypeError` after
the waiter gave up. -/
def Pc.raised : Pc → Bool
  | .done (.raised _) | .done .typeError => true
  | _ => false

def Pc.returned : Pc → Bool
  | .done (.returned _) => true
  | _ => false

/-- `handle_as_completed(batch_tasks)` has finished, and with it
`run_until_complete`. It awaits the tasks as they complete, so it returns once
every task has returned, and raises again the exception of a task that raised,
with the other tasks still pending. -/
def Sys.handleAsCompletedDone (s : Sys) : Bool :=
  s.tasks.all (·.pc.returned) || s.tasks.any (·.pc.raised)

/-- With a slot at least, a reachable loop that no step on a response that
leaves the jobs settled extends has ended every task. -/
theorem Sys.done_of_settled {w : Nat} (hw : 0 < w) {s : Sys × Bool} (hg : s.1.Gated w)
    (hmax : ∀ c, Sys.PStep responseSuccess config s c → c.2 = true) : ∀ t ∈ s.1.tasks, ∃ o, t.pc = .done o := by
  intro t ht
  by_contra hnd
  obtain ⟨j, u, s', e, hu, h⟩ :=
    @Sys.Gated.exists_step_awaited responseSuccess config w hw s.1 hg ⟨t, ht, fun o ho => hnd ⟨o, ho⟩⟩
  have := hmax (s', false) ⟨j, u.pc.awaited, e, h, by simp [Sys.reportsUnfinished, hu]⟩
  cases this

/-- `run_until_complete(handle_as_completed(batch_tasks))` ends when the
service never reports a polled job unfinished. On a semaphore with a slot at
least, take any interleaving of the tasks of `aio_batch_run_jobs` on such
responses that has come to where the loop can stop: a task has raised, or no
such step extends it. It has at most the steps of `run_jobs_steps_bounded`, and
`handle_as_completed` has finished: every task has returned, or a task has
raised, whose exception `run_until_complete` raises. -/
theorem run_jobs_settles (w : Nat) (hw : 0 < w) (jobs : List AWSBatchJob) (db : AWSBatchDB) (b : Bool)
    (l : List (Sys × Bool)) (hrun : List.Chain (Sys.PStep responseSuccess config) (aioBatchRunJobs w jobs db, b) l)
    (hsettled : ∀ c ∈ l, c.2 = false) (s : Sys × Bool)
    (hs : ((aioBatchRunJobs w jobs db, b) :: l).getLast (List.cons_ne_nil _ _) = s)
    (hmax : s.1.tasks.any (·.pc.raised) = false → ∀ c, Sys.PStep responseSuccess config s c → c.2 = true) :
    l.length ≤ (jobs.map fun job => 1 + ((job.maxTries - job.numTries).toNat + 1) * turnSteps config.retries.toNat).sum ∧
      s.1.handleAsCompletedDone = true := by
  refine ⟨?_, ?_⟩
  · have h := Sys.length_le_stepsLeft (inv_aioBatchRunJobs w jobs db) hrun
    have := Sys.stepsLeft_aioBatchRunJobs_le config.retries.toNat w jobs db
    rw [List.countP_eq_zero.mpr fun c hc => by simp [hsettled c hc]] at h
    dsimp only at h
    omega
  unfold Sys.handleAsCompletedDone
  cases hr : s.1.tasks.any (·.pc.raised)
  · /- no task has raised: every task has ended, so every task has returned -/
    have hg := Sys.gated_reach (gated_aioBatchRunJobs w jobs db) (hs ▸ Sys.reach_of_pchain hrun)
    have hdone := Sys.done_of_settled hw hg (hmax hr)
    refine Bool.or_eq_true_iff.mpr (.inl (List.all_eq_true.mpr fun t ht => ?_))
    obtain ⟨o, ho⟩ := hdone t ht
    have hnr := List.any_eq_false.mp hr t ht
    rw [ho] at hnr ⊢
    rcases o with v | err | _ <;> first | rfl | exact absurd rfl hnr
  · simp

end Run

/-- A new record whose job the service reports `RUNNING` once, then
`SUCCEEDED`. -/
theorem manager_steps_bounded_running_once :
    let r : AWSBatchJob := AWSBatchJob.new { jobName := "t-0001", jobQueue := "batch-dev", jobDefinition := "batch-dev" }
    let l := Task.psteps (fun _ => true) {} ⟨r, .loop⟩
      [.resume, .resume, .submitted ⟨"J1", 200⟩, .resume, .resume, .described ⟨[⟨"J1", "RUNNING", none, none⟩]⟩,
        .resume, .resume, .described ⟨[⟨"J1", "SUCCEEDED", none, none⟩]⟩, .resume]
    l.length ≤ 1 + ((r.maxTries - r.numTries).toNat + 1) * turnSteps ({} : AWSBatchConfig).retries.toNat +
      (2 * ({} : AWSBatchConfig).retries.toNat + 2) * l.countP (·.2) :=
  manager_steps_bounded _ false _ (Task.chain_psteps _ false _)

/-- Two new jobs on a semaphore of width 1, the second reported `PENDING` once. -/
theorem run_jobs_steps_bounded_two_jobs :
    let jobs := [AWSBatchJob.new { jobName := "t-0000", jobQueue := "batch-dev", jobDefinition := "batch-dev" },
      AWSBatchJob.new { jobName := "t-0001", jobQueue := "batch-dev", jobDefinition := "batch-dev" }]
    let l := (aioBatchRunJobs 1 jobs .empty).psteps (fun _ => true) {}
      [(0, .resume), (1, .resume), (0, .resume), (0, .submitted ⟨"J1", 200⟩), (1, .resume),
        (1, .submitted ⟨"J2", 200⟩), (1, .resume), (1, .resume), (1, .described ⟨[⟨"J2", "PENDING", none, none⟩]⟩)]
    l.length ≤ (jobs.map fun job => 1 + ((job.maxTries - job.numTries).toNat + 1) *
        turnSteps ({} : AWSBatchConfig).retries.toNat).sum +
      (2 * ({} : AWSBatchConfig).retries.toNat + 2) * l.countP (·.2) :=
  run_jobs_steps_bounded 1 _ .empty false _ (Sys.chain_psteps _ false _)

/-- One new job, submitted as `J1` and reported `SUCCEEDED` at the first poll:
the run has ended its task, nothing extends it, and `handle_as_completed` has
returned. -/
theorem run_jobs_settles_one_job :
    let jobs : List AWSBatchJob :=
      [AWSBatchJob.new { jobName := "t-0001", jobQueue := "batch-dev", jobDefinition := "batch-dev" }]
    let l := (aioBatchRunJobs 1 jobs .empty).psteps (fun _ => true) {}
      [(0, .resume), (0, .resume), (0, .submitted ⟨"J1", 200⟩), (0, .resume), (0, .resume),
        (0, .described ⟨[⟨"J1", "SUCCEEDED", none, none⟩]⟩), (0, .resume)]
    let s := ((aioBatchRunJobs 1 jobs .empty, false) :: l).getLast (List.cons_ne_nil _ _)
    0 < 1 ∧ (∀ c ∈ l, c.2 = false) ∧
      (s.1.tasks.any (·.pc.raised) = false → ∀ c, Sys.PStep (fun _ => true) {} s c → c.2 = true) ∧
      l.length ≤ (jobs.map fun job => 1 + ((job.maxTries - job.numTries).toNat + 1) *
        turnSteps ({} : AWSBatchConfig).retries.toNat).sum ∧
      s.1.handleAsCompletedDone = true := by
  intro jobs l s
  have hpcs : s.1.tasks.map (·.pc) = [.done (.returned (some ⟨"J1", "SUCCEEDED", none, none⟩))] := by decide
  have hdone : ∀ t ∈ s.1.tasks, ∃ o, t.pc = .done o := fun t ht =>
    ⟨_, List.mem_singleton.mp (hpcs ▸ List.mem_map_of_mem (fun t : Task => t.pc) ht)⟩
  have hmax : s.1.tasks.any (·.pc.raised) = false → ∀ c, Sys.PStep (fun _ => true) {} s c → c.2 = true :=
    fun _ c ⟨i, inp, e, h, _⟩ => by
      rw [Sys.step_eq_none_of_done hdone] at h
      cases h
  have hsettled : ∀ c ∈ l, c.2 = false := by decide
  exact ⟨by decide, hsettled, hmax,
    run_jobs_settles 1 (by decide) jobs .empty false l (Sys.chain_psteps _ false _) hsettled s rfl hmax⟩

end AioAwsBatch
