import Mathlib
import AioAwsBatch.Outcomes
import AioAwsBatch.Waiter

/-!
# What the service is asked to run, and how often

Each `aio_batch_job_submit` the manager enters calls `submit_job` at most
`config.retries` times, and the manager enters it only at the head of its
loop, while the record has no `job_id` and a try left. A successful
submission uses up a try; one that `response_success` rejects leaves the
record with no `job_id`, and the task never gets back to the loop
(`manager_rejected_submission_ends`). `Task.submitBudget` counts the
`submit_job` calls a task may still make, and no step makes more calls than
the budget it uses up (`submitBudget_step`). So, whatever the client answers:

* `manager_submit_calls_bounded`: a run of a manager makes at most
  `config.retries * (max_tries - num_tries)` `submit_job` calls;
* `run_jobs_submit_calls_bounded`: under every interleaving, the tasks of
  `aio_batch_run_jobs` make at most the sum of these over the jobs;
* `manager_resubmits_same_params`: every `submit_job` call of a run, spot
  retries included, sends the `params` of the record the run started from,
  and so its `command`: no step changes the fields `params` reads
  (`params_step`).

`Sys.EStep` and `Sys.steps` are the steps of the loop with what each did, as
`Task.EStep` and `Task.steps` are for one task.
-/

namespace AioAwsBatch

/-- The tries the retry loop of an adapter has made. -/
def Gate.tries : Gate → Nat
  | .acquire => 0
  | .call t | .jitter t => t

/-- The step calls `submit_job`. -/
def Effect.submits (e : Effect) : Bool :=
  match e.call with
  | some (.submitJob _) => true
  | _ => false

/-- The `submit_job` calls a task may still make: `retries` for each try left.
Inside `aio_batch_job_submit`, the calls its loop has left and the tries after
this one. From the save after a submission to the save of the waiter's result,
a record with no `job_id` is one whose submission the service rejected: its try
is spent although `num_tries` does not count it. -/
def Task.submitBudget (retries : Int) (t : Task) : Nat :=
  match t.pc with
  | .loop | .saveReset => retries.toNat * (t.job.maxTries - t.job.numTries).toNat
  | .submit g =>
    retries.toNat * (t.job.maxTries - t.job.numTries - 1).toNat + (retries - g.tries).toNat
  | .saveSubmitted | .status _ _ | .startPause _ | .pollPause _ | .saveWaited _ =>
    retries.toNat * (t.job.maxTries - t.job.numTries - if t.job.jobId = none then 1 else 0).toNat
  | .done _ => 0

/-- The `submit_job` calls the tasks of the loop may still make. -/
def Sys.submitBudget (retries : Int) (s : Sys) : Nat :=
  (s.tasks.map (·.submitBudget retries)).sum

/-- One step of the loop, with the loop after it and what the step did. -/
def Sys.EStep (responseSuccess : SubmitResponse → Bool) (config : AWSBatchConfig) (a b : Sys × Effect) :
    Prop :=
  ∃ i inp, a.1.step responseSuccess config i inp = some b

/-- The steps of the loop on the scheduled inputs in turn, each with what it
did, up to the first that is not allowed. -/
def Sys.steps (responseSuccess : SubmitResponse → Bool) (config : AWSBatchConfig) (s : Sys) :
    List (Nat × Input) → List (Sys × Effect)
  | [] => []
  | (i, inp) :: l =>
    match s.step responseSuccess config i inp with
    | some r => r :: r.1.steps responseSuccess config l
    | none => []

@[simp] theorem Gate.tries_acquire : Gate.acquire.tries = 0 := rfl
@[simp] theorem Gate.tries_call (t : Nat) : (Gate.call t).tries = t := rfl
@[simp] theorem Gate.tries_jitter (t : Nat) : (Gate.jitter t).tries = t := rfl
@[simp] theorem Effect.submits_fromGate (g : Gate) (e : Effect) : (e.fromGate g).submits = e.submits := rfl

/-- The retry loop stays in the adapter only to make its next call, from the
slot or a jitter sleep, or to sleep in `jitter` after a throttled call; in both
cases with a try left. -/
theorem Gate.next_stay_cases {α : Type} {retries : Int} {msg : String} {reply : Input → Option α}
    {g g' : Gate} {inp : Input} (h : Gate.next retries msg reply g inp = some (.stay g')) :
    ((g = .acquire ∨ ∃ t, g = .jitter t) ∧ g' = .call (g.tries + 1) ∧ (g.tries : Int) < retries) ∨
      ∃ t, g = .call t ∧ g' = .jitter t ∧ (t : Int) < retries := by
  rcases Gate.next_cases h with ⟨rfl, -, h⟩ | ⟨t, e, rfl, -, h⟩ | ⟨t, a, -, -, h⟩ | ⟨t, rfl, -, h⟩
  · unfold Gate.head at h
    split at h <;> cases h
    exact .inl ⟨.inl rfl, rfl, ‹_›⟩
  · unfold Gate.onError Gate.head at h
    split at h
    · split at h
      · cases h
        exact .inr ⟨t, rfl, rfl, ‹_›⟩
      · cases h
    · cases h
  · cases h
  · unfold Gate.head at h
    split at h <;> cases h
    exact .inl ⟨.inr ⟨t, rfl⟩, rfl, ‹_›⟩

/-- The retry loop stays in the adapter only to make one more call, within
`retries` tries, or to sleep in `jitter` after the try it made. -/
theorem Gate.next_stay_tries {α : Type} {retries : Int} {msg : String} {reply : Input → Option α}
    {g g' : Gate} {inp : Input} (h : Gate.next retries msg reply g inp = some (.stay g')) :
    (g' = .call (g.tries + 1) ∧ (g.tries : Int) < retries) ∨ g' = .jitter g.tries := by
  rcases Gate.next_stay_cases h with ⟨-, rfl, hlt⟩ | ⟨t, rfl, rfl, -⟩
  · exact .inl ⟨rfl, hlt⟩
  · exact .inr rfl

theorem sum_set_le {l : List Nat} {i a x : Nat} (hi : i < l.length) (h : x + a ≤ l[i]) :
    x + (l.set i a).sum ≤ l.sum := by
  induction l generalizing i with
  | nil => cases hi
  | cons y l ih =>
    cases i with
    | zero =>
      simp only [List.set_cons_zero, List.sum_cons, List.getElem_cons_zero] at h ⊢
      omega
    | succ i =>
      simp only [List.set_cons_succ, List.sum_cons, List.getElem_cons_succ, List.length_cons] at h hi ⊢
      have := ih (by omega) h
      omega

section Step

variable {responseSuccess : SubmitResponse → Bool} {config : AWSBatchConfig}

/-! ## The budget of one step -/

theorem submitBudget_loopHead (r : Int) (job : AWSBatchJob) :
    Task.submitBudget r ⟨job, loopHead job⟩ ≤ Task.submitBudget r ⟨job, .loop⟩ := by
  unfold loopHead
  split
  · rename_i hlt
    split
    · rename_i hid
      have h : (job.maxTries - job.numTries).toNat = (job.maxTries - job.numTries - 1).toNat + 1 := by
        omega
      simp only [Task.submitBudget, Gate.tries_acquire, h, Nat.mul_succ]
      omega
    · rename_i hid
      simp [Task.submitBudget, hid]
  · exact Nat.zero_le _

theorem submitBudget_aioBatchJobSubmit {job : AWSBatchJob} (hid : job.jobId = none) {g : Gate} {inp : Input}
    {n : GateNext SubmitResponse}
    (hn : Gate.next config.retries submitExceeded Input.submitResponse g inp = some n) :
    ((aioBatchJobSubmit responseSuccess job n).2.fromGate g).submits.toNat +
        (aioBatchJobSubmit responseSuccess job n).1.submitBudget config.retries ≤
      Task.submitBudget config.retries ⟨job, .submit g⟩ := by
  rcases n with g' | response | err
  · rcases Gate.next_stay_tries hn with ⟨rfl, hlt⟩ | rfl
    · show 1 + _ ≤ _
      simp only [aioBatchJobSubmit, Task.submitBudget, Gate.tries_call]
      omega
    · exact Nat.le_of_eq (by simp [aioBatchJobSubmit, Effect.submits, Task.submitBudget])
  · show 0 + _ ≤ _
    by_cases hr : responseSuccess response
    · have h : job.maxTries - (job.numTries + 1) - 0 = job.maxTries - job.numTries - 1 := by omega
      simp [aioBatchJobSubmit, hr, Task.submitBudget, h]
    · simp [aioBatchJobSubmit, hr, Task.submitBudget, hid]
  · exact Nat.zero_le _

/-- A step of the waiter's `aio_batch_job_status` keeps the budget, or ends the
task. -/
theorem submitBudget_aioBatchJobStatus (job : AWSBatchJob) (f : Nat) (g : Gate) (n : GateNext DescribeResponse) :
    (aioBatchJobStatus config job f n).1.submitBudget config.retries ≤
      Task.submitBudget config.retries ⟨job, .status f g⟩ := by
  rcases n with (_ | _ | _) | response | err
  any_goals exact le_refl _
  · simp only [aioBatchJobStatus]
    rcases @waiterOnResponse_spec config job f response with ⟨d, -, ⟨-, h⟩ | h | h⟩ | ⟨-, ⟨-, h⟩ | h⟩ <;>
      rw [h] <;> exact le_refl _
  · exact Nat.zero_le _

theorem submitBudget_afterWait (r : Int) {job : AWSBatchJob} {od : Option JobDescription}
    (h : ∀ d, od = some d → job.Terminal d) :
    (afterWait job od).submitBudget r ≤ Task.submitBudget r ⟨job, .saveWaited od⟩ := by
  rcases afterWait_spec job od with ⟨-, h'⟩ | ⟨d, rfl, -, h'⟩ | ⟨d, -, -, h'⟩ | ⟨d, rfl, -, -, h'⟩ <;> rw [h']
  · exact Nat.zero_le _
  · simp [Task.submitBudget, (h d rfl).jobId_eq]
  · exact Nat.zero_le _
  · simp [Task.submitBudget, (h d rfl).jobId_eq]

/-- A step's `submit_job` calls and the budget after it are within the budget
before it. -/
theorem submitBudget_step {t t' : Task} {inp : Input} {e : Effect} (hi : t.Inv)
    (h : aioBatchJobManager responseSuccess config t inp = some (t', e)) :
    e.submits.toNat + t'.submitBudget config.retries ≤ t.submitBudget config.retries := by
  obtain ⟨job, pc⟩ := t
  rcases aioBatchJobManager_cases h with ⟨hp, -, rfl, rfl⟩ | ⟨g, n, hp, hn, rfl, rfl⟩ | ⟨hp, -, rfl, rfl⟩ |
    ⟨f, g, n, hp, -, rfl, rfl⟩ | ⟨f, hp, -, rfl, rfl⟩ | ⟨f, hp, -, rfl, rfl⟩ | ⟨od, hp, -, rfl, rfl⟩ |
    ⟨hp, -, rfl, rfl⟩ <;> dsimp only at hp <;> subst hp
  · simpa [Effect.submits] using submitBudget_loopHead config.retries job
  · exact submitBudget_aioBatchJobSubmit hi.1 hn
  · exact Nat.le_of_eq (by simp [Effect.submits, Task.submitBudget])
  · have hs : ((aioBatchJobStatus config job f n).2.fromGate g).submits = false := by
      rcases n with (_ | _ | _) | _ | _ <;> rfl
    rw [hs, Bool.toNat_false, Nat.zero_add]
    exact submitBudget_aioBatchJobStatus job f g n
  · exact Nat.le_of_eq (by simp [Effect.submits, Task.submitBudget])
  · exact Nat.le_of_eq (by simp [Effect.submits, Task.submitBudget])
  · simpa [Effect.submits] using @submitBudget_afterWait config.retries job od
      fun d hd => by subst hd; exact hi
  · exact Nat.le_of_eq (by simp [Effect.submits, Task.submitBudget])

/-- What every step keeps of the record: the fields `params` reads. -/
theorem params_step {t t' : Task} (hs : Task.Step responseSuccess config t t') :
    t'.job.params = t.job.params := by
  rcases job_step hs with h | ⟨-, response, h⟩ | ⟨d, h⟩ | h <;> rw [h] <;> rfl

/-- A step calls `submit_job` only with the `params` of the record it starts
from. -/
theorem submitJob_step {t t' : Task} {inp : Input} {e : Effect} {p : SubmitParams}
    (h : aioBatchJobManager responseSuccess config t inp = some (t', e)) (hp : e.call = some (.submitJob p)) :
    p = t.job.params := by
  rcases aioBatchJobManager_cases h with ⟨-, -, -, rfl⟩ | ⟨g, n, -, -, -, rfl⟩ | ⟨-, -, -, rfl⟩ |
    ⟨f, g, n, -, -, -, rfl⟩ | ⟨f, -, -, -, rfl⟩ | ⟨f, -, -, -, rfl⟩ | ⟨od, -, -, -, rfl⟩ | ⟨-, -, -, rfl⟩
  any_goals cases hp
  · rcases n with (_ | _ | _) | _ | _ <;> cases hp
    rfl
  · rcases n with (_ | _ | _) | _ | _ <;> cases hp

end Step

/-! ## Along runs -/

section Run

variable {responseSuccess : SubmitResponse → Bool} {config : AWSBatchConfig}

theorem submits_chain {a : Task × Effect} {l : List (Task × Effect)} (hi : a.1.Inv)
    (hc : List.Chain (Task.EStep responseSuccess config) a l) :
    l.countP (·.2.submits) ≤ a.1.submitBudget config.retries := by
  induction hc with
  | nil => exact Nat.zero_le _
  | @cons a b l hab _ ih =>
    obtain ⟨inp, h⟩ := hab
    have hb := submitBudget_step hi h
    have hl := ih (hi.step h)
    rw [List.countP_cons]
    cases hbs : b.2.submits <;> simp only [hbs, Bool.toNat_false, Bool.toNat_true] at hb <;> simp <;> omega

/-- Every run of a manager, whatever the client answers (throttles, errors,
rejected submissions, spot failures), makes at most `config.retries` calls
of `submit_job` for each try the record has left, `max_tries - num_tries`. -/
theorem manager_submit_calls_bounded (r : AWSBatchJob) (e : Effect) (l : List (Task × Effect))
    (hrun : List.Chain (Task.EStep responseSuccess config) (⟨r, .loop⟩, e) l) :
    l.countP (·.2.submits) ≤ config.retries.toNat * (r.maxTries - r.numTries).toNat :=
  submits_chain (show Task.Inv ⟨r, .loop⟩ from trivial) hrun

theorem Sys.chain_steps (s : Sys) (e : Effect) (l : List (Nat × Input)) :
    List.Chain (Sys.EStep responseSuccess config) (s, e) (s.steps responseSuccess config l) := by
  induction l generalizing s e with
  | nil => exact .nil
  | cons a l ih =>
    unfold Sys.steps
    split
    · next r h => exact .cons ⟨_, _, h⟩ (ih r.1 r.2)
    · exact .nil

/-- A step of the loop is a step of one task, within its budget. -/
theorem Sys.submitBudget_step {s s' : Sys} {i : Nat} {inp : Input} {e : Effect} (hi : ∀ t ∈ s.tasks, t.Inv)
    (h : s.step responseSuccess config i inp = some (s', e)) :
    e.submits.toNat + s'.submitBudget config.retries ≤ s.submitBudget config.retries := by
  obtain ⟨t, t', ht, he, -, -, rfl⟩ := Sys.step_cases h
  obtain ⟨hlt, rfl⟩ := List.getElem?_eq_some_iff.mp ht
  simp only [Sys.submitBudget, List.map_set]
  exact sum_set_le (by simpa using hlt) (by simpa using AioAwsBatch.submitBudget_step (hi _ (List.getElem_mem hlt)) he)

theorem Sys.submits_chain {a : Sys × Effect} {l : List (Sys × Effect)} (hi : ∀ t ∈ a.1.tasks, t.Inv)
    (hc : List.Chain (Sys.EStep responseSuccess config) a l) :
    l.countP (·.2.submits) ≤ a.1.submitBudget config.retries := by
  induction hc with
  | nil => exact Nat.zero_le _
  | @cons a b l hab _ ih =>
    obtain ⟨i, inp, h⟩ := hab
    have hb := Sys.submitBudget_step hi h
    have hl := ih (Sys.forall_tasks_step Task.Inv (fun hi h => hi.step h) hi h)
    rw [List.countP_cons]
    cases hbs : b.2.submits <;> simp only [hbs, Bool.toNat_false, Bool.toNat_true] at hb <;> simp <;> omega

/-- Under every interleaving of the tasks of `aio_batch_run_jobs` and every
answer of the client, the loop makes at most `config.retries` calls of
`submit_job` for each try a job has left, summed over the jobs. -/
theorem run_jobs_submit_calls_bounded (w : Nat) (jobs : List AWSBatchJob) (db : AWSBatchDB) (e : Effect)
    (l : List (Sys × Effect)) (hrun : List.Chain (Sys.EStep responseSuccess config) (aioBatchRunJobs w jobs db, e) l) :
    l.countP (·.2.submits) ≤
      (jobs.map fun job => config.retries.toNat * (job.maxTries - job.numTries).toNat).sum := by
  have h := Sys.submits_chain (fun t ht => ?_) hrun
  · rwa [Sys.submitBudget, aioBatchRunJobs, List.map_map] at h
  · obtain ⟨job, -, rfl⟩ := List.mem_map.mp ht
    trivial

theorem params_chain {a : Task × Effect} {l : List (Task × Effect)}
    (hc : List.Chain (Task.EStep responseSuccess config) a l) :
    ∀ b ∈ l, ∀ p, b.2.call = some (.submitJob p) → p = a.1.job.params := by
  induction hc with
  | nil => intro b hb; cases hb
  | @cons a b l hab _ ih =>
    obtain ⟨inp, h⟩ := hab
    intro c hc p hp
    rcases List.mem_cons.mp hc with rfl | hc
    · exact submitJob_step h hp
    · rw [ih c hc p hp, params_step ⟨inp, _, h⟩]

end Run

/-- A new record whose first `submit_job` is throttled, whose second gets
`J1`, lost to a spot reclamation, and whose retry gets `J2`. -/
theorem manager_submit_calls_bounded_spot_run :
    let r : AWSBatchJob := AWSBatchJob.new { jobName := "t-0001", jobQueue := "batch-dev", jobDefinition := "batch-dev" }
    let l := Task.steps (fun _ => true) {} ⟨r, .loop⟩
      [.resume, .resume, .failed ⟨some "TooManyRequestsException"⟩, .resume, .submitted ⟨"J1", 200⟩,
        .resume, .resume, .described ⟨[⟨"J1", "FAILED", some "Host EC2 (instance i-0a1b) terminated.", none⟩]⟩,
        .resume, .resume, .resume, .resume, .submitted ⟨"J2", 200⟩]
    l.countP (·.2.submits) ≤ ({} : AWSBatchConfig).retries.toNat * (r.maxTries - r.numTries).toNat :=
  manager_submit_calls_bounded _ _ _ (Task.chain_steps _ {} _)

/-- Two new jobs on a semaphore of width 2, their submissions interleaved,
the first throttled once. -/
theorem run_jobs_submit_calls_bounded_two_jobs :
    let jobs := [AWSBatchJob.new { jobName := "t-0000", jobQueue := "batch-dev", jobDefinition := "batch-dev" },
      AWSBatchJob.new { jobName := "t-0001", jobQueue := "batch-dev", jobDefinition := "batch-dev" }]
    let l := (aioBatchRunJobs 2 jobs .empty).steps (fun _ => true) {}
      [(0, .resume), (1, .resume), (0, .resume), (1, .resume), (0, .failed ⟨some "TooManyRequestsException"⟩),
        (1, .submitted ⟨"J2", 200⟩), (0, .resume), (0, .submitted ⟨"J1", 200⟩)]
    l.countP (·.2.submits) ≤
      (jobs.map fun job => ({} : AWSBatchConfig).retries.toNat * (job.maxTries - job.numTries).toNat).sum :=
  run_jobs_submit_calls_bounded 2 _ .empty _ _ (Sys.chain_steps _ {} _)

end AioAwsBatch
