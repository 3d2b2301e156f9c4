import AioAwsBatch.Manager
import Mathlib.Data.List.Chain

/-!
# Runs of one manager

A run of `aio_batch_job_manager(job)` is a sequence of task states, each
reached from the one before by one step on some input (`Task.Step`), from the
loop's head. `aioBatchJobManager_cases` says once what a step can do to a
task; everything below is derived from it.

`Task.Inv` is what holds at each suspension point of such a run (`Task.Inv.step`,
`Task.inv_run`): inside `aio_batch_job_submit` the record has no `job_id` and a
try left, and after the waiter returned a description the record holds it.
From it:

* `manager_selective_retry`: the manager submits only while the record has no
  `job_id`, and once it has the id `J` it submits again only after the waiter
  returned a spot failure of `J`;
* `manager_record_invariant`: `AWSBatchJob.Wf` (`num_tries == len(job_tries)`,
  the last try is the current `job_id`, `num_tries <= max_tries`) holds at
  every state of the run, so a run adds at most `max_tries - num_tries` tries.
-/

namespace AioAwsBatch

/-- A description of a job whose spot instance was reclaimed: `FAILED`, with a
status reason that `spotFailure` matches. -/
def JobDescription.spotReclaimed (d : JobDescription) : Prop :=
  d.status = "FAILED" ∧ ∃ reason, d.statusReason = some reason ∧ spotFailure reason = true

/-- The manager is inside `aio_batch_job_submit`. -/
def Pc.submitting : Pc → Prop
  | .submit _ => True
  | _ => False

section Step

variable {responseSuccess : SubmitResponse → Bool} {config : AWSBatchConfig}

namespace Gate

variable {α : Type} {retries : Int} {msg : String} {reply : Input → Option α}

theorem head_ne_acquire (t : Nat) : head (α := α) retries msg t ≠ .stay .acquire := by
  unfold head; split <;> simp

theorem head_ne_returned (t : Nat) (a : α) : head retries msg t ≠ .returned a := by
  unfold head; split <;> simp

theorem onError_ne_acquire (t : Nat) (e : ClientError) : onError (α := α) retries msg t e ≠ .stay .acquire := by
  unfold onError; split
  · split
    · simp
    · exact head_ne_acquire t
  · simp

theorem onError_ne_returned (t : Nat) (e : ClientError) (a : α) : onError retries msg t e ≠ .returned a := by
  unfold onError; split
  · split
    · simp
    · exact head_ne_returned t a
  · simp

/-- What one step of the retry loop can do. -/
theorem next_cases {g : Gate} {inp : Input} {n : GateNext α} (h : next retries msg reply g inp = some n) :
    (g = .acquire ∧ inp = .resume ∧ n = head retries msg 0) ∨
    (∃ t e, g = .call t ∧ inp = .failed e ∧ n = onError retries msg t e) ∨
    (∃ t a, g = .call t ∧ reply inp = some a ∧ n = .returned a) ∨
    (∃ t, g = .jitter t ∧ inp = .resume ∧ n = head retries msg t) := by
  cases g <;> cases inp <;> simp only [next, Option.some.injEq, reduceCtorEq, Option.map_eq_some'] at h
  all_goals first
    | (subst h; simp)
    | (obtain ⟨a, ha, rfl⟩ := h; simp [ha])

/-- The loop stays inside `async with config.sem` only at an outstanding call
or a jitter sleep, never back at `acquire`. -/
theorem next_stay {g g' : Gate} {inp : Input} (h : next retries msg reply g inp = some (.stay g')) :
    g' ≠ .acquire := by
  rintro rfl
  rcases next_cases h with ⟨-, -, h⟩ | ⟨t, e, -, -, h⟩ | ⟨t, a, -, -, h⟩ | ⟨t, -, -, h⟩
  · exact head_ne_acquire 0 h.symm
  · exact onError_ne_acquire t e h.symm
  · cases h
  · exact head_ne_acquire t h.symm

/-- The loop returns only the response the input carries. -/
theorem next_returned {g : Gate} {inp : Input} {a : α} (h : next retries msg reply g inp = some (.returned a)) :
    reply inp = some a := by
  rcases next_cases h with ⟨-, -, h⟩ | ⟨t, e, -, -, h⟩ | ⟨t, a', -, ha, h⟩ | ⟨t, -, -, h⟩
  · exact absurd h.symm (head_ne_returned 0 a)
  · exact absurd h.symm (onError_ne_returned t e a)
  · cases h; exact ha
  · exact absurd h.symm (head_ne_returned t a)

end Gate

/-- What one step can do: `aio_batch_job_manager` between two suspension
points, by where the task was. -/
theorem aioBatchJobManager_cases {t t' : Task} {inp : Input} {e : Effect}
    (h : aioBatchJobManager responseSuccess config t inp = some (t', e)) :
    (t.pc = .loop ∧ inp = .resume ∧ t' = ⟨t.job, loopHead t.job⟩ ∧ e = {}) ∨
    (∃ g n, t.pc = .submit g ∧
      Gate.next config.retries submitExceeded Input.submitResponse g inp = some n ∧
      t' = (aioBatchJobSubmit responseSuccess t.job n).1 ∧
      e = (aioBatchJobSubmit responseSuccess t.job n).2.fromGate g) ∨
    (t.pc = .saveSubmitted ∧ inp = .resume ∧ t' = ⟨t.job, .status 0 .acquire⟩ ∧
      e = { save := some t.job }) ∨
    (∃ f g n, t.pc = .status f g ∧
      Gate.next config.retries statusExceeded Input.describeResponse g inp = some n ∧
      t' = (aioBatchJobStatus config t.job f n).1 ∧ e = (aioBatchJobStatus config t.job f n).2.fromGate g) ∨
    (∃ f, t.pc = .startPause f ∧ inp = .resume ∧ t' = ⟨t.job, .pollPause f⟩ ∧ e = {}) ∨
    (∃ f, t.pc = .pollPause f ∧ inp = .resume ∧ t' = ⟨t.job, .status f .acquire⟩ ∧ e = {}) ∨
    (∃ od, t.pc = .saveWaited od ∧ inp = .resume ∧ t' = afterWait t.job od ∧
      e = { save := some t.job }) ∨
    (t.pc = .saveReset ∧ inp = .resume ∧ t' = ⟨t.job, .loop⟩ ∧ e = { save := some t.job }) := by
  obtain ⟨job, pc⟩ := t
  cases pc with
  | submit g =>
    obtain ⟨n, hn, he⟩ := Option.map_eq_some'.mp h
    obtain ⟨rfl, rfl⟩ := Prod.mk.inj he
    exact .inr (.inl ⟨g, n, rfl, hn, rfl, rfl⟩)
  | status f g =>
    obtain ⟨n, hn, he⟩ := Option.map_eq_some'.mp h
    obtain ⟨rfl, rfl⟩ := Prod.mk.inj he
    exact .inr (.inr (.inr (.inl ⟨f, g, n, rfl, hn, rfl, rfl⟩)))
  | _ =>
    cases inp <;> simp only [aioBatchJobManager, reduceCtorEq, Option.some.injEq, Prod.mk.injEq] at h <;>
      (obtain ⟨rfl, rfl⟩ := h; simp)

/-- `aio_batch_job_submit` changes the record only by a successful submission. -/
theorem aioBatchJobSubmit_job (job : AWSBatchJob) (n : GateNext SubmitResponse) :
    (aioBatchJobSubmit responseSuccess job n).1.job = job ∨
      ∃ response, n = .returned response ∧
        (aioBatchJobSubmit responseSuccess job n).1.job = job.recordSubmission response := by
  rcases n with (_ | _ | _) | response | _
  all_goals simp only [aioBatchJobSubmit, true_or]
  split
  · exact .inr ⟨response, rfl, rfl⟩
  · exact .inl rfl

/-- What the waiter does with a `describe_jobs` response: with the job's entry
`d` it records it, and returns it when it is terminal or pauses; without one it
counts a failure, and gives up once the failures exceed `config.retries`. -/
theorem waiterOnResponse_spec (job : AWSBatchJob) (f : Nat) (response : DescribeResponse) :
    (∃ d, parseJobDescription job.jobId response = some d ∧
      ((d.status ∈ ["FAILED", "SUCCEEDED"] ∧
          waiterOnResponse config job f response = ⟨job.recordDescription d, .saveWaited (some d)⟩) ∨
        waiterOnResponse config job f response = ⟨job.recordDescription d, .startPause f⟩ ∨
        waiterOnResponse config job f response = ⟨job.recordDescription d, .pollPause f⟩)) ∨
    (parseJobDescription job.jobId response = none ∧
      ((((f + 1 : Nat) : Int) > config.retries ∧ waiterOnResponse config job f response = ⟨job, .saveWaited none⟩) ∨
        waiterOnResponse config job f response = ⟨job, .pollPause (f + 1)⟩)) := by
  unfold waiterOnResponse
  split
  · rename_i d hd
    refine .inl ⟨d, hd, ?_⟩
    split
    · exact .inl ⟨‹_›, rfl⟩
    · split
      · exact .inr (.inl rfl)
      · exact .inr (.inr rfl)
  · rename_i hd
    refine .inr ⟨hd, ?_⟩
    split
    · exact .inl ⟨‹_›, rfl⟩
    · exact .inr rfl

/-- The waiter changes the record only by recording a description of the job. -/
theorem waiterOnResponse_job (job : AWSBatchJob) (f : Nat) (response : DescribeResponse) :
    (waiterOnResponse config job f response).job = job ∨
      ∃ d, job.jobId = some d.jobId ∧ (waiterOnResponse config job f response).job = job.recordDescription d := by
  rcases waiterOnResponse_spec job f response with ⟨d, hd, ⟨-, h⟩ | h | h⟩ | ⟨-, ⟨-, h⟩ | h⟩ <;> rw [h]
  all_goals first | exact .inl rfl | exact .inr ⟨d, parseJobDescription_jobId hd, rfl⟩

theorem aioBatchJobStatus_job (job : AWSBatchJob) (f : Nat) (n : GateNext DescribeResponse) :
    (aioBatchJobStatus config job f n).1.job = job ∨
      ∃ d, job.jobId = some d.jobId ∧ (aioBatchJobStatus config job f n).1.job = job.recordDescription d := by
  rcases n with (_ | _ | _) | response | _
  all_goals simp only [aioBatchJobStatus, true_or]
  exact waiterOnResponse_job job f response

/-- What the manager does after saving the waiter's result: on `None`, fail on
`job_desc["status"]`; on a spot failure, reset the record for a retry; on any
other `SUCCEEDED` or `FAILED` description, return it; on another status, go
round the loop. -/
theorem afterWait_spec (job : AWSBatchJob) (od : Option JobDescription) :
    (od = none ∧ afterWait job od = ⟨job, .done .typeError⟩) ∨
    (∃ d, od = some d ∧ d.spotReclaimed ∧ afterWait job od = ⟨job.reset, .saveReset⟩) ∨
    (∃ d, od = some d ∧ (d.status = "FAILED" ∨ d.status = "SUCCEEDED") ∧
      afterWait job od = ⟨job, .done (.returned (some d))⟩) ∨
    (∃ d, od = some d ∧ d.status ≠ "FAILED" ∧ d.status ≠ "SUCCEEDED" ∧ afterWait job od = ⟨job, .loop⟩) := by
  rcases od with _ | d
  · exact .inl ⟨rfl, rfl⟩
  by_cases hs : d.status = "SUCCEEDED"
  · exact .inr (.inr (.inl ⟨d, rfl, .inr hs, by simp [afterWait, hs]⟩))
  by_cases hf : d.status = "FAILED"
  · rcases hr : d.statusReason with _ | reason
    · exact .inr (.inr (.inl ⟨d, rfl, .inl hf, by simp [afterWait, hs, hf, hr]⟩))
    by_cases hsp : spotFailure reason
    · exact .inr (.inl ⟨d, rfl, ⟨hf, reason, hr, hsp⟩, by simp [afterWait, hs, hf, hr, hsp]⟩)
    · exact .inr (.inr (.inl ⟨d, rfl, .inl hf, by simp [afterWait, hs, hf, hr, hsp]⟩))
  · exact .inr (.inr (.inr ⟨d, rfl, hf, hs, by simp [afterWait, hs, hf]⟩))

/-- After the waiter, the manager changes the record only by `reset()` on a
spot failure. -/
theorem afterWait_cases (job : AWSBatchJob) (od : Option JobDescription) :
    (afterWait job od).job = job ∨
      ∃ d, od = some d ∧ d.spotReclaimed ∧ afterWait job od = ⟨job.reset, .saveReset⟩ := by
  rcases afterWait_spec job od with ⟨-, h⟩ | h | ⟨d, -, -, h⟩ | ⟨d, -, -, -, h⟩
  · exact .inl (by rw [h])
  · exact .inr h
  all_goals exact .inl (by rw [h])

/-! ## The invariant of a run -/

/-- The record holds the terminal description `d` of its job, as the waiter
leaves it when it returns `d`. -/
structure AWSBatchJob.Terminal (job : AWSBatchJob) (d : JobDescription) : Prop where
  jobId_eq : job.jobId = some d.jobId
  status_terminal : d.status = "FAILED" ∨ d.status = "SUCCEEDED"
  jobDescription_eq : job.jobDescription = some d
  status_eq : job.status = some d.status

/-- What holds of the record at each suspension point of a run from the loop's
head. -/
def Task.Inv (t : Task) : Prop :=
  match t.pc with
  | .submit _ => t.job.jobId = none ∧ t.job.numTries < t.job.maxTries
  | .saveWaited (some d) => t.job.Terminal d
  | .done (.returned (some d)) => t.job.Terminal d
  | .saveReset => t.job.jobId = none
  | _ => True

theorem inv_loopHead (job : AWSBatchJob) : Task.Inv ⟨job, loopHead job⟩ := by
  unfold loopHead
  split
  · split
    · rename_i hlt hid; exact ⟨hid, hlt⟩
    · trivial
  · trivial

theorem inv_aioBatchJobSubmit {job : AWSBatchJob} (h : job.jobId = none ∧ job.numTries < job.maxTries)
    (n : GateNext SubmitResponse) : (aioBatchJobSubmit responseSuccess job n).1.Inv := by
  rcases n with (_ | _ | _) | _ | _ <;> first | exact h | trivial

theorem inv_waiterOnResponse (job : AWSBatchJob) (f : Nat) (response : DescribeResponse) :
    (waiterOnResponse config job f response).Inv := by
  rcases waiterOnResponse_spec job f response with ⟨d, hd, ⟨hm, h⟩ | h | h⟩ | ⟨-, ⟨-, h⟩ | h⟩ <;> rw [h]
  all_goals first | trivial | exact ⟨parseJobDescription_jobId hd, by simpa using hm, rfl, rfl⟩

theorem inv_aioBatchJobStatus (job : AWSBatchJob) (f : Nat) (n : GateNext DescribeResponse) :
    (aioBatchJobStatus config job f n).1.Inv := by
  rcases n with (_ | _ | _) | response | _
  all_goals first | trivial | exact inv_waiterOnResponse job f response

theorem inv_afterWait {job : AWSBatchJob} {od : Option JobDescription}
    (h : ∀ d, od = some d → job.Terminal d) : (afterWait job od).Inv := by
  rcases afterWait_spec job od with ⟨-, h'⟩ | ⟨d, -, -, h'⟩ | ⟨d, rfl, -, h'⟩ | ⟨d, -, -, -, h'⟩ <;> rw [h']
  · trivial
  · rfl
  · exact h d rfl
  · trivial

theorem Task.Inv.step {t t' : Task} {inp : Input} {e : Effect} (hi : t.Inv)
    (h : aioBatchJobManager responseSuccess config t inp = some (t', e)) : t'.Inv := by
  rcases aioBatchJobManager_cases h with ⟨-, -, rfl, -⟩ | ⟨g, n, hp, -, rfl, -⟩ | ⟨-, -, rfl, -⟩ |
    ⟨f, g, n, -, -, rfl, -⟩ | ⟨f, -, -, rfl, -⟩ | ⟨f, -, -, rfl, -⟩ | ⟨od, hp, -, rfl, -⟩ | ⟨-, -, rfl, -⟩
  · exact inv_loopHead _
  · have hs : t.job.jobId = none ∧ t.job.numTries < t.job.maxTries := by
      simpa only [Task.Inv, hp] using hi
    exact inv_aioBatchJobSubmit hs n
  · trivial
  · exact inv_aioBatchJobStatus _ _ _
  · trivial
  · trivial
  · refine inv_afterWait fun d hd => ?_
    subst hd
    simpa only [Task.Inv, hp] using hi
  · trivial

end Step

/-! ## Runs -/

/-- One step of a manager task, on some input. -/
def Task.Step (responseSuccess : SubmitResponse → Bool) (config : AWSBatchConfig) (t t' : Task) :
    Prop :=
  ∃ inp e, aioBatchJobManager responseSuccess config t inp = some (t', e)

/-- The states a task passes through on the inputs in turn, up to the first
input it does not wait for. -/
def Task.trace (responseSuccess : SubmitResponse → Bool) (config : AWSBatchConfig) (t : Task) :
    List Input → List Task
  | [] => []
  | inp :: inps =>
    match aioBatchJobManager responseSuccess config t inp with
    | some r => r.1 :: r.1.trace responseSuccess config inps
    | none => []

section Run

variable {responseSuccess : SubmitResponse → Bool} {config : AWSBatchConfig}

theorem Task.inv_chain {t : Task} {ts : List Task} (hi : t.Inv)
    (hc : List.Chain (Task.Step responseSuccess config) t ts) : ∀ u ∈ t :: ts, u.Inv := by
  induction hc with
  | nil => simpa using hi
  | cons hs _ ih =>
    obtain ⟨_, _, h⟩ := hs
    exact List.forall_mem_cons.mpr ⟨hi, ih (hi.step h)⟩

/-- Every trace is a run. -/
theorem Task.chain_trace (t : Task) (inps : List Input) :
    List.Chain (Task.Step responseSuccess config) t (t.trace responseSuccess config inps) := by
  induction inps generalizing t with
  | nil => exact .nil
  | cons inp inps ih =>
    unfold Task.trace
    split
    · next r h => exact .cons ⟨inp, r.2, h⟩ (ih r.1)
    · exact .nil

/-- Every state of a run from the loop's head satisfies `Task.Inv`. -/
theorem Task.inv_run {job : AWSBatchJob} {ts : List Task}
    (hc : List.Chain (Task.Step responseSuccess config) ⟨job, .loop⟩ ts) : ∀ u ∈ ts, u.Inv :=
  fun u hu => Task.inv_chain (show Task.Inv ⟨job, .loop⟩ from trivial) hc u (List.mem_cons_of_mem _ hu)

/-- The waiter returned a spot failure of the job `J`. -/
def Task.SpotFailureOf (t : Task) (J : String) : Prop :=
  ∃ d, t.pc = .saveWaited (some d) ∧ d.jobId = J ∧ d.spotReclaimed

/-- A step keeps the `job_id` `J`, unless the waiter has just returned a spot
failure of `J`. -/
theorem jobId_step {t t' : Task} {J : String} (hi : t.Inv) (hs : Task.Step responseSuccess config t t')
    (hJ : t.job.jobId = some J) (hn : ¬ t.SpotFailureOf J) : t'.job.jobId = some J := by
  obtain ⟨_, _, h⟩ := hs
  rcases aioBatchJobManager_cases h with ⟨-, -, rfl, -⟩ | ⟨g, n, hp, -, rfl, -⟩ | ⟨-, -, rfl, -⟩ |
    ⟨f, g, n, -, -, rfl, -⟩ | ⟨f, -, -, rfl, -⟩ | ⟨f, -, -, rfl, -⟩ | ⟨od, hp, -, rfl, -⟩ | ⟨-, -, rfl, -⟩
  · exact hJ
  · have hs : t.job.jobId = none ∧ t.job.numTries < t.job.maxTries := by
      simpa only [Task.Inv, hp] using hi
    rw [hJ] at hs; cases hs.1
  · exact hJ
  · rcases aioBatchJobStatus_job t.job f n with h' | ⟨d, -, h'⟩ <;> rw [h'] <;> exact hJ
  · exact hJ
  · exact hJ
  · rcases afterWait_cases t.job od with h' | ⟨d, rfl, hd, h'⟩
    · rw [h']; exact hJ
    · have hid : t.job.jobId = some d.jobId := by
        simp only [Task.Inv, hp] at hi; exact hi.jobId_eq
      exact absurd ⟨d, hp, Option.some.inj (hid.symm.trans hJ), hd⟩ hn
  · exact hJ

theorem jobId_chain {u : Task} {l : List Task} {J : String}
    (hc : List.Chain (Task.Step responseSuccess config) u l) (hi : ∀ w ∈ u :: l, w.Inv)
    (hJ : u.job.jobId = some J) (hn : ∀ w ∈ u :: l, ¬ w.SpotFailureOf J) :
    ∀ w ∈ u :: l, w.job.jobId = some J := by
  induction hc with
  | nil => simpa using hJ
  | @cons a b l hs _ ih =>
    refine List.forall_mem_cons.mpr ⟨hJ, ih (fun w hw => hi w (List.mem_cons_of_mem _ hw)) ?_
      (fun w hw => hn w (List.mem_cons_of_mem _ hw))⟩
    exact jobId_step (hi a (List.mem_cons_self _ _)) hs hJ (hn a (List.mem_cons_self _ _))

/-- Selective retry: in every run of the manager, `aio_batch_job_submit` runs
only while the record has no `job_id`, and from a state where the record has
the id `J` the run reaches `aio_batch_job_submit` again only after the waiter
returned a description of `J` that is `FAILED` with a spot-failure reason. -/
theorem manager_selective_retry (r : AWSBatchJob) (ts : List Task)
    (hrun : List.Chain (Task.Step responseSuccess config) ⟨r, .loop⟩ ts) :
    (∀ u ∈ ts, u.pc.submitting → u.job.jobId = none) ∧
    ∀ (pre mid post : List Task) (u v : Task) (J : String),
      (⟨r, .loop⟩ :: ts : List Task) = pre ++ u :: mid ++ v :: post →
      u.job.jobId = some J → v.pc.submitting → ∃ w ∈ u :: mid, w.SpotFailureOf J := by
  have hinv : ∀ u ∈ (⟨r, .loop⟩ :: ts : List Task), u.Inv :=
    Task.inv_chain (show Task.Inv ⟨r, .loop⟩ from trivial) hrun
  have hsub : ∀ u : Task, u.Inv → u.pc.submitting → u.job.jobId = none := by
    rintro ⟨job, _ | g | _⟩ hi hs <;> first | exact hs.elim | exact hi.1
  refine ⟨fun u hu => hsub u (hinv u (List.mem_cons_of_mem _ hu)), ?_⟩
  intro pre mid post u v J hsplit hJ hv
  by_contra hno
  have hmem : ∀ w ∈ u :: (mid ++ [v]), w ∈ (⟨r, .loop⟩ :: ts : List Task) := by
    intro w hw; rw [hsplit]; simp only [List.mem_cons, List.mem_append] at hw ⊢; aesop
  have h' : List.Chain' (Task.Step responseSuccess config) (pre ++ u :: mid ++ v :: post) :=
    hsplit ▸ hrun
  have hc : List.Chain' (Task.Step responseSuccess config) (u :: (mid ++ [v])) :=
    h'.infix ⟨pre, post, by simp⟩
  have hvJ := jobId_chain hc (fun w hw => hinv w (hmem w hw)) hJ (fun w hw hspot => by
    simp only [List.mem_cons, List.mem_append, List.mem_singleton, List.not_mem_nil, or_false] at hw
    rcases hw with rfl | hw | rfl
    · exact hno ⟨w, List.mem_cons_self _ _, hspot⟩
    · exact hno ⟨w, List.mem_cons_of_mem _ hw, hspot⟩
    · obtain ⟨d, hp, -⟩ := hspot
      rw [hp] at hv; exact hv) v (by simp)
  rw [hsub v (hinv v (hmem v (by simp))) hv] at hvJ
  cases hvJ

/-- The run of a new record whose first attempt `J1` is lost to a spot
reclamation and whose retry `J2` succeeds. -/
theorem manager_selective_retry_spot_run :
    let r := AWSBatchJob.new { jobName := "t-0001", jobQueue := "batch-dev", jobDefinition := "batch-dev" }
    let ts := Task.trace (fun _ => true) {} ⟨r, .loop⟩
      [.resume, .resume, .submitted ⟨"J1", 200⟩, .resume, .resume,
        .described ⟨[⟨"J1", "FAILED", some "Host EC2 (instance i-0a1b) terminated.", none⟩]⟩,
        .resume, .resume, .resume, .resume, .submitted ⟨"J2", 200⟩, .resume, .resume,
        .described ⟨[⟨"J2", "SUCCEEDED", none, none⟩]⟩, .resume]
    (∀ u ∈ ts, u.pc.submitting → u.job.jobId = none) ∧
    ∀ (pre mid post : List Task) (u v : Task) (J : String),
      (⟨r, .loop⟩ :: ts : List Task) = pre ++ u :: mid ++ v :: post →
      u.job.jobId = some J → v.pc.submitting → ∃ w ∈ u :: mid, w.SpotFailureOf J :=
  manager_selective_retry _ _ (Task.chain_trace _ _)

/-! ## The record invariant -/

/-- The invariant of a record: `num_tries == len(job_tries)`, a `job_id` is the
last of `job_tries`, and `num_tries <= max_tries`. -/
structure AWSBatchJob.Wf (job : AWSBatchJob) : Prop where
  numTries_eq : job.numTries = job.jobTries.length
  last_jobId : ∀ J, job.jobId = some J → job.jobTries.getLast? = some J
  numTries_le : job.numTries ≤ job.maxTries

instance (job : AWSBatchJob) : Decidable job.Wf :=
  decidable_of_iff (job.numTries = job.jobTries.length ∧ (∀ J ∈ job.jobId, job.jobTries.getLast? = some J) ∧
      job.numTries ≤ job.maxTries)
    ⟨fun ⟨h1, h2, h3⟩ => ⟨h1, h2, h3⟩, fun h => ⟨h.numTries_eq, h.last_jobId, h.numTries_le⟩⟩

theorem AWSBatchJob.Wf.recordSubmission {job : AWSBatchJob} (hw : job.Wf)
    (hlt : job.numTries < job.maxTries) (response : SubmitResponse) :
    (job.recordSubmission response).Wf where
  numTries_eq := by simp [hw.numTries_eq]
  last_jobId J h := by simp_all
  numTries_le := by simp only [recordSubmission_numTries, recordSubmission_maxTries]; omega

theorem AWSBatchJob.Wf.recordDescription {job : AWSBatchJob} (hw : job.Wf) (d : JobDescription) :
    (job.recordDescription d).Wf :=
  ⟨hw.numTries_eq, hw.last_jobId, hw.numTries_le⟩

theorem AWSBatchJob.Wf.reset {job : AWSBatchJob} (hw : job.Wf) : job.reset.Wf :=
  ⟨hw.numTries_eq, (fun _ h => nomatch h), hw.numTries_le⟩

/-- What a step can do to the record: nothing, a successful submission (inside
`aio_batch_job_submit`), a description, or `reset()`. -/
theorem job_step {t t' : Task} (hs : Task.Step responseSuccess config t t') :
    t'.job = t.job ∨ (t.pc.submitting ∧ ∃ response, t'.job = t.job.recordSubmission response) ∨
      (∃ d, t'.job = t.job.recordDescription d) ∨ t'.job = t.job.reset := by
  obtain ⟨_, _, h⟩ := hs
  rcases aioBatchJobManager_cases h with ⟨-, -, rfl, -⟩ | ⟨g, n, hp, -, rfl, -⟩ | ⟨-, -, rfl, -⟩ |
    ⟨f, g, n, -, -, rfl, -⟩ | ⟨f, -, -, rfl, -⟩ | ⟨f, -, -, rfl, -⟩ | ⟨od, -, -, rfl, -⟩ | ⟨-, -, rfl, -⟩
  · exact .inl rfl
  · rcases aioBatchJobSubmit_job t.job n with h' | ⟨resp, -, h'⟩
    · exact .inl h'
    · exact .inr (.inl ⟨by rw [hp]; trivial, resp, h'⟩)
  · exact .inl rfl
  · rcases aioBatchJobStatus_job t.job f n with h' | ⟨d, -, h'⟩
    · exact .inl h'
    · exact .inr (.inr (.inl ⟨d, h'⟩))
  · exact .inl rfl
  · exact .inl rfl
  · rcases afterWait_cases t.job od with h' | ⟨d, -, -, h'⟩
    · exact .inl h'
    · exact .inr (.inr (.inr (by rw [h'])))
  · exact .inl rfl

/-- A step keeps the record invariant and `max_tries`, and only appends to
`job_tries`. -/
theorem wf_step {t t' : Task} (hi : t.Inv) (hw : t.job.Wf) (hs : Task.Step responseSuccess config t t') :
    t'.job.Wf ∧ t'.job.maxTries = t.job.maxTries ∧ t.job.jobTries <+: t'.job.jobTries := by
  rcases job_step hs with h | ⟨hp, resp, h⟩ | ⟨d, h⟩ | h <;> rw [h]
  · exact ⟨hw, rfl, List.prefix_refl _⟩
  · obtain ⟨g, hg⟩ : ∃ g, t.pc = .submit g := by
      cases hpc : t.pc <;> simp_all [Pc.submitting]
    have hs' : t.job.jobId = none ∧ t.job.numTries < t.job.maxTries := by
      simpa only [Task.Inv, hg] using hi
    exact ⟨hw.recordSubmission hs'.2 resp, rfl, List.prefix_append _ _⟩
  · exact ⟨hw.recordDescription d, rfl, List.prefix_refl _⟩
  · exact ⟨hw.reset, rfl, List.prefix_refl _⟩

theorem wf_chain {t : Task} {ts : List Task} (hi : t.Inv) (hw : t.job.Wf)
    (hc : List.Chain (Task.Step responseSuccess config) t ts) :
    ∀ u ∈ t :: ts, u.job.Wf ∧ u.job.maxTries = t.job.maxTries ∧ t.job.jobTries <+: u.job.jobTries := by
  induction hc with
  | nil =>
    intro u hu
    obtain rfl := List.mem_singleton.mp hu
    exact ⟨hw, rfl, List.prefix_refl _⟩
  | @cons a b l hs _ ih =>
    obtain ⟨hw', hm, hp⟩ := wf_step hi hw hs
    refine List.forall_mem_cons.mpr ⟨⟨hw, rfl, List.prefix_refl _⟩, fun u hu => ?_⟩
    obtain ⟨h1, h2, h3⟩ := ih (hi.step hs.choose_spec.choose_spec) hw' u hu
    exact ⟨h1, h2.trans hm, hp.trans h3⟩

/-- The record invariant holds at every state of a manager run from a record
that satisfies it; `max_tries` does not change, and the run appends at most
`max_tries - num_tries` ids to `job_tries`, one per successful submission, so
`job_tries` never holds more than `max_tries` ids. -/
theorem manager_record_invariant (r : AWSBatchJob) (hr : r.Wf) (ts : List Task)
    (hrun : List.Chain (Task.Step responseSuccess config) ⟨r, .loop⟩ ts) :
    ∀ u ∈ (⟨r, .loop⟩ :: ts : List Task), u.job.Wf ∧ u.job.maxTries = r.maxTries ∧
      (u.job.jobTries.length : Int) ≤ r.maxTries ∧
      ∃ new, u.job.jobTries = r.jobTries ++ new ∧ (new.length : Int) ≤ r.maxTries - r.numTries := by
  intro u hu
  obtain ⟨hw, hm, new, hnew⟩ := wf_chain (show Task.Inv ⟨r, .loop⟩ from trivial) hr hrun u hu
  have hlen := congrArg List.length hnew
  simp only [List.length_append] at hlen
  have h1 := hw.numTries_eq
  have h2 := hw.numTries_le
  have h3 := hr.numTries_eq
  simp only at hm
  refine ⟨hw, hm, by omega, new, hnew.symm, by omega⟩

/-- The same spot-retry run, from a new record. -/
theorem manager_record_invariant_spot_run :
    let r := AWSBatchJob.new { jobName := "t-0001", jobQueue := "batch-dev", jobDefinition := "batch-dev" }
    let ts := Task.trace (fun _ => true) {} ⟨r, .loop⟩
      [.resume, .resume, .submitted ⟨"J1", 200⟩, .resume, .resume,
        .described ⟨[⟨"J1", "FAILED", some "Host EC2 (instance i-0a1b) terminated.", none⟩]⟩,
        .resume, .resume, .resume, .resume, .submitted ⟨"J2", 200⟩, .resume, .resume,
        .described ⟨[⟨"J2", "SUCCEEDED", none, none⟩]⟩, .resume]
    r.Wf ∧ ∀ u ∈ (⟨r, .loop⟩ :: ts : List Task), u.job.Wf ∧ u.job.maxTries = r.maxTries ∧
      (u.job.jobTries.length : Int) ≤ r.maxTries ∧
      ∃ new, u.job.jobTries = r.jobTries ++ new ∧ (new.length : Int) ≤ r.maxTries - r.numTries := by
  dsimp only
  exact ⟨by decide, manager_record_invariant _ (by decide) _ (Task.chain_trace _ _)⟩

/-- A recovered record on its last try, still `RUNNING` under `J4`, that
satisfies the record invariant: the manager's loop test fails at once and it
returns `None` without describing `J4`. -/
theorem manager_skips_recovered_last_try (responseSuccess : SubmitResponse → Bool) (config : AWSBatchConfig) :
    let job := AWSBatchJob.new
      { jobName := "t-0003", jobQueue := "batch-dev", jobDefinition := "batch-dev",
        jobId := some "J4", status := some "RUNNING", jobTries := some ["J1", "J2", "J3", "J4"],
        numTries := 4 }
    job.Wf ∧
      aioBatchJobManager responseSuccess config ⟨job, .loop⟩ .resume = some (⟨job, .done (.returned none)⟩, {}) :=
  ⟨by decide, rfl⟩

end Run

end AioAwsBatch
