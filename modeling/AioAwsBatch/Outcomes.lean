import AioAwsBatch.Durability

/-!
# How a manager task ends

A manager task ends by returning (`None`, or a description), by raising what
an adapter raises, or on the `TypeError` of `job_desc["status"]` when the
waiter gave up. `Outcome.Explained` says what each outcome tells of the record
the task ends with; the step that ends a task leaves an outcome it explains
(`explained_step`), and a task that has ended takes no step, so:

* `run_jobs_outcomes`: under every interleaving of the tasks of
  `aio_batch_run_jobs`, a task that returned `None` has no try left, one that
  returned a description holds it as its terminal description and it is not
  a spot failure, and what a task raised is a `ClientError` other than a
  throttle or an adapter's `RuntimeError`.

A submission whose response `response_success` rejects leaves the record
without a `job_id` (`Task.Rejected`). The waiter then describes `[None]`,
whose entries never match, until it gives up; every step keeps the record,
and the task stays so or ends (`rejected_step`), so:

* `manager_rejected_submission_ends`: after a rejected submission the task
  never submits again, its record stays as it was, with no `job_id` (so no
  save writes it), and it can only end in the `TypeError` or an adapter's
  error.
-/

namespace AioAwsBatch

/-- What the outcome of an ended task tells of its record `job`: `None` comes
only from the loop's test, with no try left; a returned description is the
record's terminal description, and not a spot failure, which is retried; a
raised `ClientError` is not a throttle; a `RuntimeError` is the one an adapter
raises when its retries are spent. -/
def Outcome.Explained (job : AWSBatchJob) : Outcome → Prop
  | .returned none => job.maxTries ≤ job.numTries
  | .returned (some d) => job.Terminal d ∧ ¬ d.spotReclaimed
  | .raised (.clientError e) => e.throttled = false
  | .raised (.runtimeError msg) => msg = submitExceeded ∨ msg = statusExceeded
  | .typeError => True

/-- Where a task is from the save after its submission to the save of the
waiter's result, when the waiter returned `None`. -/
def Pc.afterSubmit : Pc → Bool
  | .saveSubmitted | .status _ _ | .startPause _ | .pollPause _ | .saveWaited none => true
  | _ => false

/-- The task is past a submission that `response_success` rejected: its record
has no `job_id`, which no description matches. -/
def Task.Rejected (t : Task) : Prop :=
  t.job.jobId = none ∧ t.pc.afterSubmit = true

namespace Gate

variable {α : Type} {retries : Int} {msg : String} {reply : Input → Option α}

theorem head_raised {t : Nat} {err : AdapterError} (h : head (α := α) retries msg t = .raised err) :
    err = .runtimeError msg := by
  unfold head at h
  split at h <;> cases h
  rfl

/-- The retry loop raises only its `RuntimeError(msg)`, or a `ClientError`
that is not a throttle. -/
theorem next_raised {g : Gate} {inp : Input} {err : AdapterError}
    (h : next retries msg reply g inp = some (.raised err)) :
    err = .runtimeError msg ∨ ∃ e, err = .clientError e ∧ e.throttled = false := by
  rcases next_cases h with ⟨-, -, h⟩ | ⟨t, e, -, -, h⟩ | ⟨t, a, -, -, h⟩ | ⟨t, -, -, h⟩
  · exact .inl (head_raised h.symm)
  · unfold onError at h
    split at h
    · split at h
      · cases h
      · exact .inl (head_raised h.symm)
    · rename_i hth
      cases h
      exact .inr ⟨e, rfl, by simpa using hth⟩
  · cases h
  · exact .inl (head_raised h.symm)

end Gate

section Step

variable {responseSuccess : SubmitResponse → Bool} {config : AWSBatchConfig}

/-! ## The step that ends a task -/

theorem loopHead_done {job : AWSBatchJob} {o : Outcome} (h : loopHead job = .done o) :
    o = .returned none ∧ job.maxTries ≤ job.numTries := by
  unfold loopHead at h
  split at h
  · split at h <;> cases h
  · cases h
    exact ⟨rfl, not_lt.mp ‹_›⟩

/-- An adapter's step ends the task only by raising what its loop raised. -/
theorem aioBatchJobSubmit_done (job : AWSBatchJob) {n : GateNext SubmitResponse} {o : Outcome}
    (h : (aioBatchJobSubmit responseSuccess job n).1.pc = .done o) : ∃ err, n = .raised err ∧ o = .raised err := by
  rcases n with (_ | _ | _) | _ | err <;> cases h
  exact ⟨err, rfl, rfl⟩

theorem aioBatchJobStatus_done (job : AWSBatchJob) (f : Nat) {n : GateNext DescribeResponse} {o : Outcome}
    (h : (aioBatchJobStatus config job f n).1.pc = .done o) : ∃ err, n = .raised err ∧ o = .raised err := by
  rcases n with (_ | _ | _) | response | err
  any_goals cases h
  · simp only [aioBatchJobStatus] at h
    rcases @waiterOnResponse_spec config job f response with ⟨d, -, ⟨-, h'⟩ | h' | h'⟩ | ⟨-, ⟨-, h'⟩ | h'⟩ <;>
      rw [h'] at h <;> cases h
  · exact ⟨err, rfl, rfl⟩

theorem afterWait_spot (job : AWSBatchJob) {d : JobDescription} (hd : d.spotReclaimed) :
    afterWait job (some d) = ⟨job.reset, .saveReset⟩ := by
  obtain ⟨hf, reason, hr, hsp⟩ := hd
  simp [afterWait, hf, hr, hsp]

/-- The step that ends a task leaves an outcome that explains its record. -/
theorem explained_step {t t' : Task} {inp : Input} {e : Effect} {o : Outcome} (hi : t.Inv)
    (h : aioBatchJobManager responseSuccess config t inp = some (t', e)) (hd : t'.pc = .done o) :
    o.Explained t'.job := by
  rcases aioBatchJobManager_cases h with ⟨-, -, rfl, -⟩ | ⟨g, n, -, hn, rfl, -⟩ | ⟨-, -, rfl, -⟩ |
    ⟨f, g, n, -, hn, rfl, -⟩ | ⟨f, -, -, rfl, -⟩ | ⟨f, -, -, rfl, -⟩ | ⟨od, hp, -, rfl, -⟩ | ⟨-, -, rfl, -⟩
  · obtain ⟨rfl, hle⟩ := loopHead_done hd
    exact hle
  · obtain ⟨err, rfl, rfl⟩ := aioBatchJobSubmit_done t.job hd
    rcases Gate.next_raised hn with rfl | ⟨e, rfl, he⟩
    · exact Or.inl rfl
    · exact he
  · cases hd
  · obtain ⟨err, rfl, rfl⟩ := aioBatchJobStatus_done t.job f hd
    rcases Gate.next_raised hn with rfl | ⟨e, rfl, he⟩
    · exact Or.inr rfl
    · exact he
  · cases hd
  · cases hd
  · rcases afterWait_spec t.job od with ⟨-, h'⟩ | ⟨d, -, -, h'⟩ | ⟨d, rfl, -, h'⟩ | ⟨d, -, -, -, h'⟩ <;>
      rw [h'] at hd ⊢ <;> cases hd
    · trivial
    · refine ⟨by simpa only [Task.Inv, hp] using hi, fun hs => ?_⟩
      rw [afterWait_spot t.job hs] at h'
      cases congrArg Task.pc h'
  · cases hd

/-! ## After a rejected submission -/

/-- The waiter of a record with no `job_id` never finds the job: it counts a
miss on every response. -/
theorem waiterOnResponse_of_none {job : AWSBatchJob} (hid : job.jobId = none) (f : Nat)
    (response : DescribeResponse) :
    waiterOnResponse config job f response = ⟨job, .saveWaited none⟩ ∨
      waiterOnResponse config job f response = ⟨job, .pollPause (f + 1)⟩ := by
  rcases @waiterOnResponse_spec config job f response with ⟨d, hd, -⟩ | ⟨-, ⟨-, h⟩ | h⟩
  · rw [hid] at hd
    cases parseJobDescription_jobId hd
  · exact .inl h
  · exact .inr h

/-- A rejected task keeps its record, and stays rejected or ends, in the
`TypeError` or on an adapter's error. -/
theorem rejected_step {t t' : Task} {inp : Input} {e : Effect} (hr : t.Rejected)
    (h : aioBatchJobManager responseSuccess config t inp = some (t', e)) :
    t'.job = t.job ∧ (t'.Rejected ∨ t'.pc = .done .typeError ∨ ∃ err, t'.pc = .done (.raised err)) := by
  obtain ⟨hid, hpc⟩ := hr
  rcases aioBatchJobManager_cases h with ⟨hp, -, rfl, -⟩ | ⟨g, n, hp, -, rfl, -⟩ | ⟨-, -, rfl, -⟩ |
    ⟨f, g, n, -, -, rfl, -⟩ | ⟨f, -, -, rfl, -⟩ | ⟨f, -, -, rfl, -⟩ | ⟨od, hp, -, rfl, -⟩ | ⟨hp, -, rfl, -⟩
  · rw [hp] at hpc; cases hpc
  · rw [hp] at hpc; cases hpc
  · exact ⟨rfl, .inl ⟨hid, rfl⟩⟩
  · rcases n with g' | response | err
    · cases g' <;> exact ⟨rfl, .inl ⟨hid, rfl⟩⟩
    · simp only [aioBatchJobStatus]
      rcases @waiterOnResponse_of_none config _ hid f response with h' | h' <;>
        rw [h'] <;> exact ⟨rfl, .inl ⟨hid, rfl⟩⟩
    · exact ⟨rfl, .inr (.inr ⟨err, rfl⟩)⟩
  · exact ⟨rfl, .inl ⟨hid, rfl⟩⟩
  · exact ⟨rfl, .inl ⟨hid, rfl⟩⟩
  · rcases od with _ | d
    · exact ⟨rfl, .inr (.inl rfl)⟩
    · rw [hp] at hpc; cases hpc
  · rw [hp] at hpc; cases hpc

/-- From a rejected task, every state of a run keeps the record, and is
rejected or has ended in the `TypeError` or on an adapter's error. -/
theorem rejected_chain {u : Task} {l : List Task} (hu : u.Rejected)
    (hc : List.Chain (Task.Step responseSuccess config) u l) :
    ∀ v ∈ u :: l, v.job = u.job ∧
      (v.Rejected ∨ v.pc = .done .typeError ∨ ∃ err, v.pc = .done (.raised err)) := by
  have hcarry : ∀ ⦃x y : Task⦄, Task.Step responseSuccess config x y →
      (x.job = u.job ∧ (x.Rejected ∨ x.pc = .done .typeError ∨ ∃ err, x.pc = .done (.raised err))) →
      y.job = u.job ∧ (y.Rejected ∨ y.pc = .done .typeError ∨ ∃ err, y.pc = .done (.raised err)) := by
    rintro ⟨job, pc⟩ y ⟨inp, e, h⟩ ⟨hj, hx | hx | ⟨err, hx⟩⟩
    · obtain ⟨hj', hy⟩ := rejected_step hx h
      exact ⟨hj'.trans hj, hy⟩
    all_goals
      simp only at hx
      subst hx
      rw [aioBatchJobManager_done] at h
      cases h
  intro v hv
  rcases List.mem_cons.mp hv with rfl | hv
  · exact ⟨rfl, .inl hu⟩
  · exact List.Chain.induction _ l hc hcarry ⟨rfl, .inl hu⟩ v hv

theorem Task.inv_reach {t t' : Task} (hi : t.Inv)
    (h : Relation.ReflTransGen (Task.Step responseSuccess config) t t') : t'.Inv := by
  induction h with
  | refl => exact hi
  | tail _ hs ih =>
    obtain ⟨_, _, h⟩ := hs
    exact ih.step h

/-- The only step a task takes on a `submit_job` response is the one from its
outstanding call, to the save after the submission. -/
theorem submitted_step {t t' : Task} {response : SubmitResponse} {e : Effect}
    (h : aioBatchJobManager responseSuccess config t (.submitted response) = some (t', e)) :
    (∃ c, t.pc = .submit (.call c)) ∧
      t' = ⟨if responseSuccess response then t.job.recordSubmission response else t.job, .saveSubmitted⟩ := by
  rcases aioBatchJobManager_cases h with ⟨-, hinp, -⟩ | ⟨g, n, hp, hn, rfl, -⟩ | ⟨-, hinp, -⟩ |
    ⟨f, g, n, -, hn, -, -⟩ | ⟨f, -, hinp, -⟩ | ⟨f, -, hinp, -⟩ | ⟨od, -, hinp, -⟩ | ⟨-, hinp, -⟩
  any_goals cases hinp
  · rcases Gate.next_cases hn with ⟨-, hinp, -⟩ | ⟨c, err, -, hinp, -⟩ | ⟨c, a, rfl, ha, rfl⟩ | ⟨c, -, hinp, -⟩
    any_goals cases hinp
    cases ha
    exact ⟨⟨c, hp⟩, rfl⟩
  · rcases Gate.next_cases hn with ⟨-, hinp, -⟩ | ⟨c, err, -, hinp, -⟩ | ⟨c, a, -, ha, -⟩ | ⟨c, -, hinp, -⟩
    any_goals cases hinp
    cases ha

end Step

/-! ## Every interleaving -/

section Run

variable {responseSuccess : SubmitResponse → Bool} {config : AWSBatchConfig}

/-- A property of tasks that every step of a task keeps holds of every task
of a loop, after one step of the loop. -/
theorem Sys.forall_tasks_step (P : Task → Prop)
    (hP : ∀ {t t' : Task} {inp : Input} {e : Effect}, P t →
      aioBatchJobManager responseSuccess config t inp = some (t', e) → P t')
    {s s' : Sys} {i : Nat} {inp : Input} {e : Effect} (hs : ∀ t ∈ s.tasks, P t)
    (h : s.step responseSuccess config i inp = some (s', e)) : ∀ t ∈ s'.tasks, P t := by
  obtain ⟨t, t', ht, he, -, -, rfl⟩ := Sys.step_cases h
  intro u hu
  rcases List.mem_or_eq_of_mem_set hu with hu | rfl
  · exact hs u hu
  · exact hP (hs t (List.getElem?_mem ht)) he

/-- The same, at every moment the loop reaches. -/
theorem Sys.forall_tasks_reach (P : Task → Prop)
    (hP : ∀ {t t' : Task} {inp : Input} {e : Effect}, P t →
      aioBatchJobManager responseSuccess config t inp = some (t', e) → P t')
    {s s' : Sys} (hs : ∀ t ∈ s.tasks, P t)
    (hr : Relation.ReflTransGen (Sys.Step responseSuccess config) s s') : ∀ t ∈ s'.tasks, P t := by
  induction hr with
  | refl => exact hs
  | tail _ hst ih =>
    obtain ⟨i, inp, e, h⟩ := hst
    exact Sys.forall_tasks_step P hP ih h

/-- What the tasks of `aio_batch_run_jobs` end with, under every interleaving
and every response of the client: a task that returned `None` has no try
left; one that returned a description holds it as its terminal description
(`job_id`, `status` and `job_description`), which is `SUCCEEDED`, or `FAILED`
but not a spot failure; a raised `ClientError` is not a throttle; a
`RuntimeError` is that of `aio_batch_job_submit` or of
`aio_batch_job_status`. Each task has its own copy of its record, as in the
code when no record is listed twice. -/
theorem run_jobs_outcomes (w : Nat) (jobs : List AWSBatchJob) (db : AWSBatchDB) (s : Sys)
    (hs : Relation.ReflTransGen (Sys.Step responseSuccess config) (aioBatchRunJobs w jobs db) s) :
    ∀ t ∈ s.tasks, ∀ o, t.pc = .done o → o.Explained t.job := by
  have h := Sys.forall_tasks_reach (fun t => t.Inv ∧ ∀ o, t.pc = .done o → o.Explained t.job)
    (fun hi h => ⟨hi.1.step h, fun _ hd => explained_step hi.1 h hd⟩)
    (fun t ht => by
      obtain ⟨job, -, rfl⟩ := List.mem_map.mp ht
      exact ⟨trivial, fun o h => by cases h⟩) hs
  exact fun t ht => (h t ht).2

/-- After a submission whose response `response_success` rejects, in any run
of a manager: the task was waiting on its `submit_job` call, and from then on
it keeps its record, with no `job_id`, so that every save skips it; it never
enters `aio_batch_job_submit` again; and if it ends, it ends in the
`TypeError` (after the waiter gave up) or on an adapter's error. -/
theorem manager_rejected_submission_ends (r : AWSBatchJob) (w u : Task) (response : SubmitResponse)
    (e : Effect) (l : List Task)
    (hw : Relation.ReflTransGen (Task.Step responseSuccess config) ⟨r, .loop⟩ w)
    (hu : aioBatchJobManager responseSuccess config w (.submitted response) = some (u, e))
    (hrej : responseSuccess response = false)
    (hl : List.Chain (Task.Step responseSuccess config) u l) :
    w.pc.submitting ∧ ∀ v ∈ u :: l, v.job = w.job ∧ v.job.jobId = none ∧ ¬ v.pc.submitting ∧
      ∀ o, v.pc = .done o → o = .typeError ∨ ∃ err, o = .raised err := by
  obtain ⟨⟨c, hc⟩, rfl⟩ := submitted_step hu
  have hid : w.job.jobId = none := by
    have hi := Task.inv_reach (show Task.Inv ⟨r, .loop⟩ from trivial) hw
    simp only [Task.Inv, hc] at hi
    exact hi.1
  simp only [hrej, Bool.false_eq_true, if_false] at hl ⊢
  refine ⟨by rw [hc]; trivial, fun v hv => ?_⟩
  obtain ⟨hj, hv'⟩ :=
    rejected_chain (show Task.Rejected ⟨w.job, .saveSubmitted⟩ from ⟨hid, rfl⟩) hl v hv
  refine ⟨hj, hj ▸ hid, ?_⟩
  rcases hv' with ⟨-, hpc⟩ | hpc | ⟨err, hpc⟩
  · refine ⟨fun hs => ?_, fun o ho => ?_⟩
    · cases hv : v.pc <;> rw [hv] at hpc hs <;> first | exact hs | cases hpc
    · rw [ho] at hpc; cases hpc
  · rw [hpc]
    exact ⟨id, fun o ho => .inl (Pc.done.inj ho).symm⟩
  · rw [hpc]
    exact ⟨id, fun o ho => .inr ⟨err, (Pc.done.inj ho).symm⟩⟩

end Run

/-- A job whose first attempt `J1` is lost to a spot reclamation and whose
retry `J2` succeeds, run on its own from an empty store: its task ends by
returning the `SUCCEEDED` description of `J2`. -/
theorem run_jobs_outcomes_spot_run :
    let r : AWSBatchJob := AWSBatchJob.new { jobName := "t-0001", jobQueue := "batch-dev", jobDefinition := "batch-dev" }
    let steps : List (Nat × Input) :=
      [(0, .resume), (0, .resume), (0, .submitted ⟨"J1", 200⟩), (0, .resume), (0, .resume),
        (0, .described ⟨[⟨"J1", "FAILED", some "Host EC2 (instance i-0a1b) terminated.", none⟩]⟩),
        (0, .resume), (0, .resume), (0, .resume), (0, .resume), (0, .submitted ⟨"J2", 200⟩),
        (0, .resume), (0, .resume), (0, .described ⟨[⟨"J2", "SUCCEEDED", none, none⟩]⟩), (0, .resume)]
    ∃ s, (aioBatchRunJobs 1 [r] .empty).run (fun _ => true) {} steps = some s ∧
      (∃ t ∈ s.tasks, t.pc = .done (.returned (some ⟨"J2", "SUCCEEDED", none, none⟩))) ∧
      ∀ t ∈ s.tasks, ∀ o, t.pc = .done o → o.Explained t.job := by
  dsimp only
  refine ⟨_, (Option.some_get ?hs).symm, ?_,
    run_jobs_outcomes 1 _ .empty _ (Sys.reach_run (Option.some_get ?hs).symm)⟩
  case hs => decide
  decide

/-- A new record whose first `submit_job` gets an HTTP 500 response, which a
`response_success` that wants 200 rejects; the waiter then polls
`describe_jobs([None])`. -/
theorem manager_rejected_submission_ends_run :
    let r : AWSBatchJob := AWSBatchJob.new { jobName := "t-0001", jobQueue := "batch-dev", jobDefinition := "batch-dev" }
    let ok : SubmitResponse → Bool := fun response => response.httpStatusCode == 200
    let w : Task := ⟨r, .submit (.call 1)⟩
    let u : Task := ⟨r, .saveSubmitted⟩
    let l := Task.trace ok {} u [.resume, .resume, .described ⟨[]⟩, .resume, .resume]
    w.pc.submitting ∧ ∀ v ∈ u :: l, v.job = w.job ∧ v.job.jobId = none ∧ ¬ v.pc.submitting ∧
      ∀ o, v.pc = .done o → o = .typeError ∨ ∃ err, o = .raised err := by
  intro r ok w u l
  have h1 : Task.Step ok {} ⟨r, .loop⟩ ⟨r, .submit .acquire⟩ := ⟨.resume, {}, rfl⟩
  have h2 : Task.Step ok {} ⟨r, .submit .acquire⟩ w := ⟨.resume, _, rfl⟩
  exact manager_rejected_submission_ends r w u ⟨"J1", 500⟩ _ l (.tail (.single h1) h2) rfl rfl
    (Task.chain_trace _ _)

end AioAwsBatch
