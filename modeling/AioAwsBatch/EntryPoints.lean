import AioAwsBatch.Outcomes
import AioAwsBatch.Recovery

/-!
# The two entry points

`main(jobs_db, client, config)` makes the jobs `test-sleep-job-0000` and
`test-sleep-job-0001`. For each it looks the store up by name: a job with a row
is rebuilt from the first row, and skipped if that shows it succeeded; a job
with none is made new (`sleepJob`). It runs a manager task on each record
(`mainJobs`, `main`). The module's `__main__` block makes the two jobs new,
keeps those that `jobs_to_run` keeps, and runs them with `aio_batch_run_jobs`
if any is left (`scriptJobs`, `scriptMain`).

* `main_resumes_where_script_resubmits`: on every store the two entry points
  run the same names; but for a name whose first row is an attempt still in
  flight, `main`'s manager goes on waiting for the row's `job_id`, while the
  script's submits the job again;
* `restart_records_wf`: after a crash at any moment of any interleaving, every
  row of the store, and so every record `main` or `find_jobs_to_run` rebuilds
  from it, satisfies the record invariant `AWSBatchJob.Wf`, which the
  restarted managers then keep (`manager_record_invariant`).
-/

namespace AioAwsBatch

/-- `f"test-sleep-job-{i:04d}"`. -/
def testJobName (i : Nat) : String :=
  "test-sleep-job-" ++ String.mk (List.replicate (4 - (toString i).length) '0') ++ toString i

/-- The job both entry points make for `i` when the store has no row for it. -/
def sleepJob (i : Nat) : AWSBatchJob :=
  AWSBatchJob.new
    { jobName := testJobName i, jobQueue := "batch-dev", jobDefinition := "batch-dev",
      command := some ["/bin/sh", "-c", "echo Hello && sleep 1 && echo Bye"] }

/-- What `main` runs for job `i`: the record rebuilt from the first row under
its name, unless that shows the job succeeded, or a new job. -/
def mainJob (jobsDb : AWSBatchDB) (i : Nat) : Option AWSBatchJob :=
  match jobsDb.findByJobName (testJobName i) with
  | some (jobData :: _) =>
    if (AWSBatchJob.new jobData.data).succeeded then none else some (AWSBatchJob.new jobData.data)
  | _ => some (sleepJob i)

/-- The records `main` runs a manager on, `for i in range(2)`. -/
def mainJobs (jobsDb : AWSBatchDB) : List AWSBatchJob :=
  (List.range 2).filterMap (mainJob jobsDb)

/-- `main(jobs_db, client, config)`: the loop it runs, with `w` slots in
`config.sem`. -/
def main (w : Nat) (jobsDb : AWSBatchDB) : Sys :=
  aioBatchRunJobs w (mainJobs jobsDb) jobsDb

/-- The records the `__main__` block runs: the two jobs, new, that `jobs_to_run`
keeps. -/
def scriptJobs (jobsDb : AWSBatchDB) : List AWSBatchJob :=
  jobsToRun ((List.range 2).map sleepJob) jobsDb

/-- The `__main__` block: the loop of `aio_batch_run_jobs` on `scriptJobs`, if
any is left. -/
def scriptMain (w : Nat) (jobsDb : AWSBatchDB) : Option Sys :=
  if (scriptJobs jobsDb).isEmpty then none else some (aioBatchRunJobs w (scriptJobs jobsDb) jobsDb)

theorem testJobName_length_le {i : Nat} (hi : i < 2) : (testJobName i).length ≤ 128 := by
  rcases i with _ | _ | i
  · decide
  · decide
  · omega

theorem sleepJob_jobName {i : Nat} (hi : i < 2) : (sleepJob i).jobName = testJobName i :=
  jobNameCap_of_length_le (testJobName_length_le hi)

@[simp] theorem sleepJob_succeeded (i : Nat) : (sleepJob i).succeeded = false := rfl

theorem loopHead_sleepJob (i : Nat) : loopHead (sleepJob i) = .submit .acquire := rfl

/-- The rows `find_by_job_name(n)` finds are rows of the store named `n`. -/
theorem mem_findByJobName {db : AWSBatchDB} {n : String} {docs : List Document}
    (h : db.findByJobName n = some docs) : ∀ doc ∈ docs, doc ∈ db.jobsDb.docs ∧ doc.data.jobName = n := by
  unfold AWSBatchDB.findByJobName at h
  split at h
  · cases h
  · cases h
    intro doc hdoc
    obtain ⟨hm, hn⟩ := List.mem_filter.mp hdoc
    exact ⟨hm, by simpa using hn⟩

/-- `main` runs job `i` under its own name unless the store shows it
succeeded, as the test of `jobs_to_run` has it. -/
theorem mainJob_jobName (db : AWSBatchDB) {i : Nat} (hi : i < 2) :
    (mainJob db i).map (·.jobName) = if savedSucceeded db (sleepJob i) then none else some (testJobName i) := by
  unfold mainJob savedSucceeded
  rw [sleepJob_jobName hi]
  rcases h : db.findByJobName (testJobName i) with _ | _ | ⟨doc, rest⟩
  · simp [sleepJob_jobName hi]
  · simp [sleepJob_jobName hi]
  · have hn := (mem_findByJobName h doc (List.mem_cons_self _ _)).2
    have hname : (AWSBatchJob.new doc.data).jobName = testJobName i := by
      show jobNameCap doc.data.jobName = _
      rw [hn, jobNameCap_of_length_le (testJobName_length_le hi)]
    cases hs : (AWSBatchJob.new doc.data).succeeded <;> simp [hs, hname]

theorem scriptJobs_eq (db : AWSBatchDB) :
    scriptJobs db = ((List.range 2).map sleepJob).filter fun job => !savedSucceeded db job := by
  refine List.filter_congr fun job hjob => ?_
  obtain ⟨i, -, rfl⟩ := List.mem_map.mp hjob
  simp

/-- The two entry points, on every store: they run managers for the same job
names; and for a name whose first row holds an attempt in flight (a `job_id`
`J`, not `SUCCEEDED`, a try left), `main` runs the record of that row, whose
manager at the head of its loop goes to the waiter for `J`, while the
`__main__` block runs the job new, and its manager submits it again. -/
theorem main_resumes_where_script_resubmits (db : AWSBatchDB) :
    (mainJobs db).map (·.jobName) = (scriptJobs db).map (·.jobName) ∧
    ∀ i < 2, ∀ doc rest J, db.findByJobName (testJobName i) = some (doc :: rest) →
      doc.data.jobId = some J → doc.data.status ≠ some "SUCCEEDED" → doc.data.numTries < doc.data.maxTries →
      (∃ job ∈ mainJobs db, job.jobName = testJobName i ∧ job.jobId = some J ∧
        loopHead job = .status 0 .acquire) ∧
      sleepJob i ∈ scriptJobs db ∧ (sleepJob i).jobName = testJobName i ∧
        loopHead (sleepJob i) = .submit .acquire := by
  have h0 := mainJob_jobName db (show 0 < 2 by decide)
  have h1 := mainJob_jobName db (show 1 < 2 by decide)
  refine ⟨?_, fun i hi doc rest J h hJ hs hlt => ?_⟩
  · rw [mainJobs, List.map_filterMap, scriptJobs_eq]
    simp only [List.range_succ, List.range_zero, List.nil_append, List.filterMap_append,
      List.filterMap_cons, List.filterMap_nil, h0, h1, List.map_append, List.map_cons, List.map_nil,
      List.filter_append, List.filter_cons, List.filter_nil]
    cases savedSucceeded db (sleepJob 0) <;> cases savedSucceeded db (sleepJob 1) <;>
      simp [sleepJob_jobName]
  · have hns : (AWSBatchJob.new doc.data).succeeded = false := by
      simp [new_succeeded, hs]
    have hm : mainJob db i = some (AWSBatchJob.new doc.data) := by
      simp [mainJob, h, hns]
    have hsaved : savedSucceeded db (sleepJob i) = false := by
      simp [savedSucceeded, sleepJob_jobName hi, h, hns]
    have hname := mainJob_jobName db hi
    rw [hm, hsaved] at hname
    refine ⟨⟨_, List.mem_filterMap.mpr ⟨i, List.mem_range.mpr hi, hm⟩, Option.some.inj hname, hJ, ?_⟩,
      ?_, sleepJob_jobName hi, loopHead_sleepJob i⟩
    · simp [loopHead, AWSBatchJob.new, hlt, hJ]
    · rw [scriptJobs_eq]
      exact List.mem_filter.mpr ⟨List.mem_map.mpr ⟨i, List.mem_range.mpr hi, rfl⟩, by simp [hsaved]⟩

/-! ## Restarting after a crash -/

/-- A row the store has after `save(job)` is one it had, or `job`'s. -/
theorem mem_save_docs {db : AWSBatchDB} {job : AWSBatchJob} {doc : Document}
    (h : doc ∈ (db.save job).1.jobsDb.docs) : doc ∈ db.jobsDb.docs ∨ doc.data = job.dbData := by
  unfold AWSBatchDB.save at h
  split at h
  · rw [Table.upsert_fst] at h
    split at h
    · obtain ⟨x, hx, rfl⟩ := List.mem_map.mp h
      unfold Table.replaceIf
      split
      · exact .inr rfl
      · exact .inl hx
    · rcases List.mem_append.mp h with h | h
      · exact .inl h
      · exact .inr (by rw [List.mem_singleton.mp h])
  · exact .inl h

/-- Every row of the store rebuilds a record that satisfies the record
invariant. -/
def AWSBatchDB.RowsWf (db : AWSBatchDB) : Prop :=
  ∀ doc ∈ db.jobsDb.docs, (AWSBatchJob.new doc.data).Wf

theorem AWSBatchDB.RowsWf.save {db : AWSBatchDB} (hdb : db.RowsWf) {job : AWSBatchJob} (hw : job.Wf) :
    (db.save job).1.RowsWf := by
  intro doc hdoc
  rcases mem_save_docs hdoc with h | h
  · exact hdb doc h
  · rw [h, new_dbData]
    exact hw

theorem sleepJob_wf (i : Nat) : (sleepJob i).Wf :=
  ⟨rfl, (fun _ h => by cases h), show (0 : Int) ≤ 4 by decide⟩

theorem mainJobs_wf {db : AWSBatchDB} (hdb : db.RowsWf) : ∀ job ∈ mainJobs db, job.Wf := by
  intro job hjob
  obtain ⟨i, -, hi⟩ := List.mem_filterMap.mp hjob
  unfold mainJob at hi
  split at hi
  · rename_i doc rest h
    split at hi
    · cases hi
    · cases hi
      exact hdb doc (mem_findByJobName h doc (List.mem_cons_self _ _)).1
  · cases hi
    exact sleepJob_wf i

theorem findJobsToRun_wf {db : AWSBatchDB} (hdb : db.RowsWf) : ∀ job ∈ db.findJobsToRun, job.Wf := by
  intro job hjob
  simp only [AWSBatchDB.findJobsToRun, Table.all, List.map_map, List.mem_filter, List.mem_map,
    Function.comp_apply] at hjob
  obtain ⟨⟨doc, hdoc, rfl⟩, -⟩ := hjob
  exact hdb doc hdoc

section Run

variable {responseSuccess : SubmitResponse → Bool} {config : AWSBatchConfig}

/-- Under every interleaving, the tasks keep their invariants and every save
writes a record that satisfies `AWSBatchJob.Wf`. -/
theorem rowsWf_reach {s s' : Sys} (hs : ∀ t ∈ s.tasks, t.Inv ∧ t.job.Wf) (hdb : s.db.RowsWf)
    (hr : Relation.ReflTransGen (Sys.Step responseSuccess config) s s') :
    (∀ t ∈ s'.tasks, t.Inv ∧ t.job.Wf) ∧ s'.db.RowsWf := by
  induction hr with
  | refl => exact ⟨hs, hdb⟩
  | tail _ hst ih =>
    obtain ⟨i, inp, e, h⟩ := hst
    obtain ⟨ht, hd⟩ := ih
    refine ⟨Sys.forall_tasks_step _ (fun hi h => ⟨hi.1.step h, (wf_step hi.1 hi.2 ⟨_, _, h⟩).1⟩) ht h, ?_⟩
    obtain ⟨t, t', htt, he, -, -, rfl⟩ := Sys.step_cases h
    unfold Effect.saveTo
    split
    · rename_i job hsv
      rw [save_step he hsv]
      exact hd.save (ht t (List.getElem?_mem htt)).2
    · exact hd

end Run

/-- A store whose only row is `test-sleep-job-0000`, still `RUNNING` under
`J1` on its first try: `main` waits for `J1`, the script submits the job
again. -/
theorem main_resumes_where_script_resubmits_in_flight :
    let row : DbData :=
      { jobName := "test-sleep-job-0000", jobQueue := "batch-dev", jobDefinition := "batch-dev",
        jobId := some "J1", status := some "RUNNING", jobTries := some ["J1"], numTries := 1 }
    let db : AWSBatchDB := ⟨⟨[⟨1, row⟩], 1⟩⟩
    db.findByJobName (testJobName 0) = some [⟨1, row⟩] ∧
      (∃ job ∈ mainJobs db, job.jobName = testJobName 0 ∧ job.jobId = some "J1" ∧
        loopHead job = .status 0 .acquire) ∧
      sleepJob 0 ∈ scriptJobs db ∧ (sleepJob 0).jobName = testJobName 0 ∧
        loopHead (sleepJob 0) = .submit .acquire := by
  intro row db
  have h : db.findByJobName (testJobName 0) = some [⟨1, row⟩] := by decide
  exact ⟨h, (main_resumes_where_script_resubmits db).2 0 (by decide) _ [] "J1" h rfl (by decide) (by decide)⟩

end AioAwsBatch
