import AioAwsBatch.ManagerRun

/-!
# The waiter's polling

`aio_batch_job_waiter` calls `describe_jobs` through `aio_batch_job_status`
until the job's description is terminal, sleeping between its calls. A task
is inside one run of the waiter while it is in the waiter's
`aio_batch_job_status` or in one of its delays (`Pc.waiting`); it sleeps in a
way that paces the next call (`Pc.pacing`) in `jitter` after a throttled call,
or in `delay(job.job_name, config.min_pause, config.max_pause)`.

A task that has just called `describe_jobs` waits on the call, or is in the
start pause after a description of a job that has not started, and from
either it calls again only after a pacing sleep (`afterCall_step`). So:

* `waiter_sleeps_between_describe_calls`: over every run of a manager and every
  outcome of its calls, between two `describe_jobs` calls of one run of the
  waiter there is a pacing sleep;
* `waiter_returns_first_terminal`: run against a stream of responses
  (`Task.poll`), the waiter returns the first terminal description of the job,
  which the record then holds, unless the responses before it miss the job
  more than `config.retries` times in all (`missCount`), and it gives up at
  the miss that makes the count exceed them;
* `waiter_counts_misses_cumulatively`: the waiter counts the responses without
  the job over its whole run, never resetting the count when the job is found
  again, so with one retry it gives up at the second miss even if a
  `RUNNING` description came between; with no retry it raises before any
  call.
-/

namespace AioAwsBatch

/-- The task is inside `aio_batch_job_waiter`: in its `aio_batch_job_status`,
or in one of its delays. -/
def Pc.waiting : Pc → Bool
  | .status _ _ | .startPause _ | .pollPause _ => true
  | _ => false

/-- The task sleeps in a way that paces the waiter's calls: in `jitter` after a
throttled `describe_jobs`, or in `delay(job.job_name, config.min_pause,
config.max_pause)`. -/
def Pc.pacing : Pc → Bool
  | .status _ (.jitter _) | .pollPause _ => true
  | _ => false

/-- Where a task can be after a `describe_jobs` call without a pacing sleep:
waiting on the call, or in the start pause, which the poll pause follows. -/
def Pc.afterCall : Pc → Bool
  | .status _ (.call _) | .startPause _ => true
  | _ => false

/-- The step calls `describe_jobs`. -/
def Effect.describes (e : Effect) : Bool :=
  match e.call with
  | some (.describeJobs _) => true
  | _ => false

/-- One step of a manager task on some input, with the task after it and what
the step did. -/
def Task.EStep (responseSuccess : SubmitResponse → Bool) (config : AWSBatchConfig) (a b : Task × Effect) :
    Prop :=
  ∃ inp, aioBatchJobManager responseSuccess config a.1 inp = some b

/-- The steps a task takes on the inputs in turn, each with its effect, up to
the first input it does not wait for. -/
def Task.steps (responseSuccess : SubmitResponse → Bool) (config : AWSBatchConfig) (t : Task) :
    List Input → List (Task × Effect)
  | [] => []
  | inp :: inps =>
    match aioBatchJobManager responseSuccess config t inp with
    | some r => r :: r.1.steps responseSuccess config inps
    | none => []

/-- The waiter run against `describe_jobs`: each call gets the next response of
`rs`, and the slot and every sleep come at once; at most `fuel` steps, up to
the task leaving the waiter, or a call when the responses have run out. -/
def Task.poll (responseSuccess : SubmitResponse → Bool) (config : AWSBatchConfig) :
    Nat → Task → List DescribeResponse → Task
  | 0, t, _ => t
  | fuel + 1, t, rs =>
    if t.pc.waiting then
      match t.pc, rs with
      | .status _ (.call _), [] => t
      | .status _ (.call _), r :: rs =>
        match aioBatchJobManager responseSuccess config t (.described r) with
        | some r' => Task.poll responseSuccess config fuel r'.1 rs
        | none => t
      | _, rs =>
        match aioBatchJobManager responseSuccess config t .resume with
        | some r' => Task.poll responseSuccess config fuel r'.1 rs
        | none => t
    else t

/-- The responses of `rs` without an entry for `jobId`: the misses the waiter
counts in `monitor_failures`. -/
def missCount (jobId : Option String) (rs : List DescribeResponse) : Nat :=
  rs.countP fun r => (parseJobDescription jobId r).isNone

section Run

variable {responseSuccess : SubmitResponse → Bool} {config : AWSBatchConfig}

/-- Every list of steps is a run. -/
theorem Task.chain_steps (t : Task) (e : Effect) (inps : List Input) :
    List.Chain (Task.EStep responseSuccess config) (t, e) (t.steps responseSuccess config inps) := by
  induction inps generalizing t e with
  | nil => exact .nil
  | cons inp inps ih =>
    unfold Task.steps
    split
    · next r h => exact .cons ⟨inp, h⟩ (ih r.1 r.2)
    · exact .nil

namespace Gate

variable {α : Type} {retries : Int} {msg : String} {reply : Input → Option α}

/-- From an outstanding call the loop sleeps in `jitter`, returns or raises: it
never calls again at once. -/
theorem next_call_cases {t : Nat} {inp : Input} {n : GateNext α}
    (h : next retries msg reply (.call t) inp = some n) :
    n = .stay (.jitter t) ∨ (∃ a, n = .returned a) ∨ ∃ err, n = .raised err := by
  rcases next_cases h with ⟨h', -⟩ | ⟨t', e, h', -, rfl⟩ | ⟨t', a, -, -, rfl⟩ | ⟨t', h', -⟩
  · cases h'
  · cases h'
    unfold onError
    by_cases hth : e.throttled
    · by_cases hlt : (t : Int) < retries
      · simp [hth, hlt]
      · simp [hth, hlt, head]
    · simp [hth]
  · exact .inr (.inl ⟨a, rfl⟩)
  · cases h'

end Gate

/-- A step that calls `describe_jobs` leaves the task waiting on the call. -/
theorem afterCall_of_describes {a : Task × Effect} {t' : Task} {e : Effect}
    (h : Task.EStep responseSuccess config a (t', e)) (hb : e.describes = true) : t'.pc.afterCall = true := by
  obtain ⟨inp, h⟩ := h
  rcases aioBatchJobManager_cases h with ⟨-, -, -, rfl⟩ | ⟨g, n, -, -, -, rfl⟩ | ⟨-, -, -, rfl⟩ |
    ⟨f, g, n, -, -, rfl, rfl⟩ | ⟨f, -, -, -, rfl⟩ | ⟨f, -, -, -, rfl⟩ | ⟨od, -, -, -, rfl⟩ | ⟨-, -, -, rfl⟩
  all_goals first
    | cases hb
    | rcases n with (_ | _ | _) | _ | _ <;> first | rfl | cases hb

/-- From a call, or from the start pause, a task does not call `describe_jobs`,
and if it stays in the waiter it sleeps in a pacing way or is again after a
call without one. -/
theorem afterCall_step {a b : Task × Effect} (ha : a.1.pc.afterCall = true)
    (h : Task.EStep responseSuccess config a b) :
    b.2.describes = false ∧ (b.1.pc.waiting = true → b.1.pc.pacing = true ∨ b.1.pc.afterCall = true) := by
  obtain ⟨⟨job, pc⟩, e⟩ := a
  obtain ⟨inp, h⟩ := h
  cases pc with
  | status f g =>
    cases g with
    | call t =>
      obtain ⟨n, hn, hb⟩ := Option.map_eq_some'.mp h
      subst hb
      rcases Gate.next_call_cases hn with rfl | ⟨r, rfl⟩ | ⟨err, rfl⟩
      · exact ⟨rfl, fun _ => .inl rfl⟩
      · refine ⟨rfl, fun hw => ?_⟩
        simp only [aioBatchJobStatus] at hw ⊢
        rcases @waiterOnResponse_spec config job f r with ⟨d, -, ⟨-, h'⟩ | h' | h'⟩ | ⟨-, ⟨-, h'⟩ | h'⟩ <;>
          rw [h'] at hw ⊢ <;> first | exact .inl rfl | exact .inr rfl | cases hw
      · exact ⟨rfl, fun hw => by cases hw⟩
    | _ => cases ha
  | startPause f =>
    cases inp <;> simp only [aioBatchJobManager, reduceCtorEq, Option.some.injEq] at h
    subst h
    exact ⟨rfl, fun _ => .inl rfl⟩
  | _ => cases ha

/-- Along a run that stays in the waiter after a call, the next call comes
after a pacing sleep. -/
theorem paced_of_chain {a b : Task × Effect} {mid : List (Task × Effect)} (ha : a.1.pc.afterCall = true)
    (hc : List.Chain (Task.EStep responseSuccess config) a (mid ++ [b])) (hw : ∀ c ∈ mid, c.1.pc.waiting = true)
    (hb : b.2.describes = true) : ∃ c ∈ mid, c.1.pc.pacing = true := by
  induction mid generalizing a with
  | nil =>
    rw [(afterCall_step ha (List.chain_singleton.mp hc)).1] at hb
    cases hb
  | cons c mid ih =>
    obtain ⟨hac, hc⟩ := List.chain_cons.mp hc
    rcases (afterCall_step ha hac).2 (hw c (List.mem_cons_self _ _)) with hp | hp
    · exact ⟨c, List.mem_cons_self _ _, hp⟩
    · obtain ⟨c', hc', hp'⟩ := ih hp hc fun c' h' => hw c' (List.mem_cons_of_mem _ h')
      exact ⟨c', List.mem_cons_of_mem _ hc', hp'⟩

/-- No busy polling: over every run of a manager task, whatever the outcomes of
its calls, between any two `describe_jobs` calls made in one run of the waiter
(every state between them inside the waiter) the task sleeps in `jitter` after
a throttle or in `delay(job.job_name, config.min_pause, config.max_pause)`. -/
theorem waiter_sleeps_between_describe_calls (t : Task × Effect) (l : List (Task × Effect))
    (hrun : List.Chain (Task.EStep responseSuccess config) t l) :
    ∀ (pre mid post : List (Task × Effect)) (a b : Task × Effect), l = pre ++ a :: mid ++ b :: post →
      a.2.describes = true → b.2.describes = true → (∀ c ∈ mid, c.1.pc.waiting = true) →
      ∃ c ∈ mid, c.1.pc.pacing = true := by
  intro pre mid post a b hl ha hb hw
  rw [hl, List.append_assoc, List.cons_append] at hrun
  obtain ⟨hpre, hrest⟩ := List.chain_split.mp hrun
  have hprev : ∃ p, Task.EStep responseSuccess config p a := by
    rcases List.eq_nil_or_concat pre with rfl | ⟨pre', p, rfl⟩
    · exact ⟨t, List.chain_singleton.mp hpre⟩
    · rw [List.concat_eq_append, List.append_assoc, List.singleton_append] at hpre
      exact ⟨p, List.chain_singleton.mp (List.chain_split.mp hpre).2⟩
  obtain ⟨p, hpa⟩ := hprev
  exact paced_of_chain (afterCall_of_describes hpa ha) (List.chain_split.mp hrest).1 hw hb

/-! ## What the waiter returns -/

section Poll

variable {fuel f : Nat} {job : AWSBatchJob} {rs : List DescribeResponse}

theorem poll_saveWaited (fuel : Nat) (job : AWSBatchJob) (od : Option JobDescription) (rs : List DescribeResponse) :
    Task.poll responseSuccess config fuel ⟨job, .saveWaited od⟩ rs = ⟨job, .saveWaited od⟩ := by
  cases fuel <;> rfl

/-- A round of the waiter: its `aio_batch_job_status` takes the slot and calls,
and the waiter handles the response. -/
theorem poll_round (hr : 0 < config.retries) (r : DescribeResponse) :
    Task.poll responseSuccess config (fuel + 2) ⟨job, .status f .acquire⟩ (r :: rs) =
      Task.poll responseSuccess config fuel (waiterOnResponse config job f r) rs := by
  simp [Task.poll, Pc.waiting, aioBatchJobManager, Gate.next, Gate.head, hr, aioBatchJobStatus,
    Input.describeResponse]

theorem poll_pollPause :
    Task.poll responseSuccess config (fuel + 1) ⟨job, .pollPause f⟩ rs =
      Task.poll responseSuccess config fuel ⟨job, .status f .acquire⟩ rs := by
  simp [Task.poll, Pc.waiting, aioBatchJobManager]

theorem poll_startPause :
    Task.poll responseSuccess config (fuel + 2) ⟨job, .startPause f⟩ rs =
      Task.poll responseSuccess config fuel ⟨job, .status f .acquire⟩ rs := by
  rw [← poll_pollPause]
  simp [Task.poll, Pc.waiting, aioBatchJobManager]

end Poll

/-- What `aio_batch_job_waiter` returns, for every record with a `job_id`,
every `config.retries ≥ 1` and every stream of `describe_jobs` responses, from
`monitor_failures = f`: take the first response `resp` with a terminal
description `d` of the job, or without the job; if the responses before it,
none terminal, miss the job at most `retries - f` times, the waiter returns `d`
and the record holds it, or, when `resp` is the miss that makes the count
exceed `retries`, gives up. The misses are counted over the whole stream,
whatever descriptions come between them. -/
theorem waiter_returns_first_terminal (hr : 0 < config.retries) (job : AWSBatchJob) (f : Nat)
    (pre : List DescribeResponse)
    (hpre : ∀ r ∈ pre, ∀ d ∈ parseJobDescription job.jobId r, d.status ∉ ["FAILED", "SUCCEEDED"])
    (hf : ((f + missCount job.jobId pre : Nat) : Int) ≤ config.retries) (resp : DescribeResponse)
    (post : List DescribeResponse) (fuel : Nat) (hfuel : 4 * pre.length + 2 ≤ fuel) :
    (∀ d ∈ parseJobDescription job.jobId resp, d.status ∈ ["FAILED", "SUCCEEDED"] →
      ∃ job', Task.poll responseSuccess config fuel ⟨job, .status f .acquire⟩ (pre ++ resp :: post) =
        ⟨job', .saveWaited (some d)⟩ ∧ job'.jobDescription = some d ∧ job'.status = some d.status) ∧
    (parseJobDescription job.jobId resp = none → config.retries < ((f + missCount job.jobId pre + 1 : Nat) : Int) →
      ∃ job', Task.poll responseSuccess config fuel ⟨job, .status f .acquire⟩ (pre ++ resp :: post) =
        ⟨job', .saveWaited none⟩) := by
  induction pre generalizing job f fuel with
  | nil =>
    obtain ⟨fuel, rfl⟩ : ∃ n, fuel = n + 2 := ⟨fuel - 2, by simp at hfuel; omega⟩
    rw [List.nil_append, poll_round hr]
    refine ⟨fun d hd ht => ⟨job.recordDescription d, ?_, rfl, rfl⟩, fun hd hgt => ⟨job, ?_⟩⟩
    · simp only [waiterOnResponse, Option.mem_def.mp hd, ht, if_true, poll_saveWaited]
    · have hgt' : ((f + 1 : Nat) : Int) > config.retries := by simpa [missCount] using hgt
      simp only [waiterOnResponse, hd, hgt', if_true, poll_saveWaited]
  | cons r pre ih =>
    obtain ⟨fuel, rfl⟩ : ∃ n, fuel = n + 4 := ⟨fuel - 4, by simp at hfuel; omega⟩
    have hpre' : ∀ r ∈ pre, ∀ d ∈ parseJobDescription job.jobId r, d.status ∉ ["FAILED", "SUCCEEDED"] :=
      fun r' h' => hpre r' (List.mem_cons_of_mem _ h')
    have hlen : 4 * pre.length + 2 ≤ fuel := by simp only [List.length_cons] at hfuel; omega
    rw [List.cons_append, poll_round hr]
    rcases @waiterOnResponse_spec config job f r with ⟨d, hd, ⟨ht, -⟩ | h | h⟩ | ⟨hd, ⟨hgt, -⟩ | h⟩
    · exact absurd ht (hpre r (List.mem_cons_self _ _) d hd)
    /- a description of a job still starting: the start pause, then the poll pause -/
    · have hm : missCount job.jobId (r :: pre) = missCount job.jobId pre := by simp [missCount, hd]
      rw [h, poll_startPause, hm]
      exact ih (job.recordDescription d) f hpre' (by rwa [hm] at hf) fuel hlen
    /- another description: the poll pause -/
    · have hm : missCount job.jobId (r :: pre) = missCount job.jobId pre := by simp [missCount, hd]
      rw [h, show fuel + 2 = fuel + 1 + 1 by rfl, poll_pollPause, hm]
      exact ih (job.recordDescription d) f hpre' (by rwa [hm] at hf) (fuel + 1) (by omega)
    /- a miss that exceeds the retries cannot come before the last response -/
    · have : missCount job.jobId (r :: pre) = missCount job.jobId pre + 1 := by simp [missCount, hd]
      omega
    /- a miss: the count goes up -/
    · have hm : missCount job.jobId (r :: pre) = missCount job.jobId pre + 1 := by simp [missCount, hd]
      rw [h, show fuel + 2 = fuel + 1 + 1 by rfl, poll_pollPause]
      have := ih job (f + 1) hpre' (by rw [hm] at hf; push_cast at hf ⊢; omega) (fuel + 1) (by omega)
      simpa [hm, Nat.add_assoc, Nat.add_comm 1] using this

end Run

/-- A recovered record of `J1`, polled through a throttle, a `RUNNABLE`
description (the start pause, then the poll pause), a `STARTING` one (the poll
pause only) and `SUCCEEDED`: the run takes a step on every input, and the
manager returns the description. -/
theorem waiter_sleeps_between_describe_calls_run :
    let r : AWSBatchJob := AWSBatchJob.new
      { jobName := "t-0001", jobQueue := "batch-dev", jobDefinition := "batch-dev",
        jobId := some "J1", status := some "RUNNABLE", jobTries := some ["J1"], numTries := 1 }
    let l := Task.steps (fun _ => true) {} ⟨r, .loop⟩
      [.resume, .resume, .failed ⟨some "TooManyRequestsException"⟩, .resume,
        .described ⟨[⟨"J1", "RUNNABLE", none, none⟩]⟩, .resume, .resume, .resume,
        .described ⟨[⟨"J1", "STARTING", none, none⟩]⟩, .resume, .resume,
        .described ⟨[⟨"J1", "SUCCEEDED", none, none⟩]⟩, .resume]
    l.length = 13 ∧ (l.getLast?.map (·.1.pc)) = some (.done (.returned (some ⟨"J1", "SUCCEEDED", none, none⟩))) ∧
    List.Chain (Task.EStep (fun _ => true) {}) (⟨r, .loop⟩, {}) l ∧
    ∀ (pre mid post : List (Task × Effect)) (a b : Task × Effect), l = pre ++ a :: mid ++ b :: post →
      a.2.describes = true → b.2.describes = true → (∀ c ∈ mid, c.1.pc.waiting = true) →
      ∃ c ∈ mid, c.1.pc.pacing = true := by
  dsimp only
  exact ⟨by decide, by decide, Task.chain_steps _ _ _,
    waiter_sleeps_between_describe_calls _ _ (Task.chain_steps _ {} _)⟩

/-- A recovered record of `J1` with the default retries, and the responses: a
miss, a `RUNNING` description, then `SUCCEEDED`. -/
theorem waiter_returns_first_terminal_run :
    let r : AWSBatchJob := AWSBatchJob.new
      { jobName := "t-0001", jobQueue := "batch-dev", jobDefinition := "batch-dev",
        jobId := some "J1", status := some "RUNNING", jobTries := some ["J1"], numTries := 1 }
    let pre : List DescribeResponse := [⟨[]⟩, ⟨[⟨"J1", "RUNNING", none, none⟩]⟩]
    let resp : DescribeResponse := ⟨[⟨"J1", "SUCCEEDED", none, none⟩]⟩
    0 < ({} : AWSBatchConfig).retries ∧
    (∀ x ∈ pre, ∀ d ∈ parseJobDescription r.jobId x, d.status ∉ ["FAILED", "SUCCEEDED"]) ∧
    ((0 + missCount r.jobId pre : Nat) : Int) ≤ ({} : AWSBatchConfig).retries ∧ 4 * pre.length + 2 ≤ 10 ∧
    (∀ d ∈ parseJobDescription r.jobId resp, d.status ∈ ["FAILED", "SUCCEEDED"] →
      ∃ job', Task.poll (fun _ => true) {} 10 ⟨r, .status 0 .acquire⟩ (pre ++ resp :: []) =
        ⟨job', .saveWaited (some d)⟩ ∧ job'.jobDescription = some d ∧ job'.status = some d.status) ∧
    (parseJobDescription r.jobId resp = none →
      ({} : AWSBatchConfig).retries < ((0 + missCount r.jobId pre + 1 : Nat) : Int) →
      ∃ job', Task.poll (fun _ => true) {} 10 ⟨r, .status 0 .acquire⟩ (pre ++ resp :: []) =
        ⟨job', .saveWaited none⟩) := by
  dsimp only
  exact ⟨by decide, by decide, by decide, by decide,
    waiter_returns_first_terminal (by decide) _ 0 _ (by decide) (by decide) _ [] 10 (by decide)⟩

/-- A recovered record of `J1` with one retry, whose responses miss `J1`, show
it `RUNNING`, miss it again, then show it `SUCCEEDED`: no two misses are
consecutive, yet the waiter gives up at the second miss and returns `None`,
on which the manager fails, without asking for the `SUCCEEDED` description.
With no retry the waiter's first `aio_batch_job_status` raises `RuntimeError`
before any call. -/
theorem waiter_counts_misses_cumulatively (responseSuccess : SubmitResponse → Bool) :
    let r : AWSBatchJob := AWSBatchJob.new
      { jobName := "t-0001", jobQueue := "batch-dev", jobDefinition := "batch-dev",
        jobId := some "J1", status := some "RUNNING", jobTries := some ["J1"], numTries := 1 }
    let running : JobDescription := ⟨"J1", "RUNNING", none, none⟩
    let misses := [.resume, .described ⟨[]⟩, .resume, .resume, .described ⟨[running]⟩, .resume, .resume,
      .described ⟨[]⟩]
    (Task.run responseSuccess { retries := 1 } ⟨r, .status 0 .acquire⟩ misses).map (·.pc) =
      some (.saveWaited none) ∧
    (Task.run responseSuccess { retries := 1 } ⟨r, .status 0 .acquire⟩ (misses ++ [.resume])).map (·.pc) =
      some (.done .typeError) ∧
    (Task.run responseSuccess { retries := 0 } ⟨r, .status 0 .acquire⟩ [.resume]).map (·.pc) =
      some (.done (.raised (.runtimeError statusExceeded))) :=
  ⟨rfl, rfl, rfl⟩

end AioAwsBatch
