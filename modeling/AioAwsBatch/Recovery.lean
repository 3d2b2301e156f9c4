import AioAwsBatch.Durability

/-!
# Recovery from the store

After a crash, `find_jobs_to_run` rebuilds a job from every row of the store
that is not a success, and `jobs_to_run` keeps an input job unless the first row
under its name, or the job itself, is one. Both read the rows the manager tasks
saved, so what they hand back follows from `Sys.Durable`:

* `find_jobs_to_run_skips_succeeded`: the attempt a task saw succeed is never
  handed back, its row being the only one with its `job_id`;
* `recovery_reruns_succeeded_job`: the job itself is, when an earlier attempt
  was lost to a spot reclamation, since its row comes first under the name.
-/

namespace AioAwsBatch

section Run

variable {responseSuccess : SubmitResponse → Bool} {config : AWSBatchConfig}

/-- Recovery after any interleaving with fresh job ids, from records whose
`job_id`s are not empty and pairwise distinct, on a store keyed by `job_id`:
no job `find_jobs_to_run` rebuilds has the `job_id` of a task that returned a
`SUCCEEDED` description. Each task has its own copy of its record, as in the
code when no record is listed twice. -/
theorem find_jobs_to_run_skips_succeeded (w : Nat) (jobs : List AWSBatchJob) (db : AWSBatchDB)
    (hdb : db.WellKeyed) (hne : ∀ job ∈ jobs, job.jobId ≠ some "")
    (hdist : jobs.Pairwise fun a b => a.jobId = none ∨ a.jobId ≠ b.jobId) :
    ∀ s, Relation.ReflTransGen (Sys.FreshStep responseSuccess config) (aioBatchRunJobs w jobs db) s →
      ∀ t ∈ s.tasks, ∀ d, t.pc = .done (.returned (some d)) → d.status = "SUCCEEDED" →
        ∀ job ∈ s.db.findJobsToRun, job.jobId ≠ t.job.jobId := by
  intro s hs t ht d hp hsucc job hjob hid
  have hd := Sys.durable_reach (durable_aioBatchRunJobs w jobs db hne hdist) hs
  have hw := Sys.wellKeyed_reach hdb (Sys.reach_of_fresh hs)
  have hti : t.job.Terminal d := by simpa only [Task.Inv, hp] using hd.inv t ht
  obtain ⟨doc, hdoc, hdata⟩ := Option.map_eq_some'.mp (hd.saved t ht d hp)
  obtain ⟨hmem, hk⟩ := AWSBatchDB.findByJobId_mem hdoc
  simp only [AWSBatchDB.findJobsToRun, Table.all, List.map_map, List.mem_filter, List.mem_map,
    Function.comp_apply] at hjob
  obtain ⟨⟨row, hrow, rfl⟩, hrun⟩ := hjob
  /- the job is rebuilt from the task's own row, the only one with its `job_id` -/
  obtain rfl : row = doc := List.inj_on_of_nodup_map hw.jobId_nodup hrow hmem (hid.trans hk.symm)
  rw [hdata, new_dbData] at hrun
  simp [AWSBatchJob.succeeded, truthy_of_ne hti.jobId_eq (hd.jobId_ne t ht), hti.status_eq, hsucc] at hrun

end Run

/-- A new record and a recovered one under `J9`, on an empty store. -/
theorem find_jobs_to_run_skips_succeeded_two_jobs :
    let jobs := [AWSBatchJob.new { jobName := "t-0000", jobQueue := "batch-dev", jobDefinition := "batch-dev" },
      AWSBatchJob.new
        { jobName := "t-0001", jobQueue := "batch-dev", jobDefinition := "batch-dev",
          jobId := some "J9", status := some "RUNNABLE", jobTries := some ["J9"], numTries := 1 }]
    AWSBatchDB.empty.WellKeyed ∧ (∀ job ∈ jobs, job.jobId ≠ some "") ∧
    (jobs.Pairwise fun a b => a.jobId = none ∨ a.jobId ≠ b.jobId) ∧
    ∀ s, Relation.ReflTransGen (Sys.FreshStep (fun _ => true) {}) (aioBatchRunJobs 2 jobs .empty) s →
      ∀ t ∈ s.tasks, ∀ d, t.pc = .done (.returned (some d)) → d.status = "SUCCEEDED" →
        ∀ job ∈ s.db.findJobsToRun, job.jobId ≠ t.job.jobId := by
  dsimp only
  exact ⟨AWSBatchDB.wellKeyed_empty, by decide, by decide,
    find_jobs_to_run_skips_succeeded 2 _ .empty AWSBatchDB.wellKeyed_empty (by decide) (by decide)⟩

/-- A job whose first attempt `J1` is lost to a spot reclamation and whose retry
`J2` succeeds, run from an empty store: the store keeps both rows, the first
one `FAILED`. Both recovery entry points then hand the job back, and the
manager, on the record `find_jobs_to_run` rebuilds, submits it once more. -/
theorem recovery_reruns_succeeded_job :
    let r : AWSBatchJob := AWSBatchJob.new { jobName := "t-0001", jobQueue := "batch-dev", jobDefinition := "batch-dev" }
    let spot : JobDescription := ⟨"J1", "FAILED", some "Host EC2 (instance i-0a1b) terminated.", none⟩
    let steps : List (Nat × Input) :=
      [(0, .resume), (0, .resume), (0, .submitted ⟨"J1", 200⟩), (0, .resume), (0, .resume),
        (0, .described ⟨[spot]⟩), (0, .resume), (0, .resume), (0, .resume), (0, .resume),
        (0, .submitted ⟨"J2", 200⟩), (0, .resume), (0, .resume),
        (0, .described ⟨[⟨"J2", "SUCCEEDED", none, none⟩]⟩), (0, .resume)]
    ∃ s, (aioBatchRunJobs 1 [r] .empty).run (fun _ => true) {} steps = some s ∧
      Relation.ReflTransGen (Sys.Step (fun _ => true) {}) (aioBatchRunJobs 1 [r] .empty) s ∧
      (∃ doc ∈ s.db.jobsDb.docs, doc.data.jobName = "t-0001" ∧ doc.data.status = some "SUCCEEDED") ∧
      jobsToRun [r] s.db = [r] ∧
      ∃ job ∈ s.db.findJobsToRun, job.jobName = "t-0001" ∧
        (Task.run (fun _ => true) {} ⟨job, .loop⟩
          [.resume, .resume, .described ⟨[spot]⟩, .resume, .resume, .resume, .resume]).map (·.pc) =
          some (.submit (.call 1)) := by
  dsimp only
  refine ⟨_, (Option.some_get ?hs).symm, Sys.reach_run (Option.some_get ?hs).symm, ?_⟩
  case hs => decide
  decide

end AioAwsBatch
