import Mathlib.Data.String.Basic
import AioAwsBatch.EntryPoints

/-!
# The store lists a job's attempts in the order they were made

`save(job)` upserts the row keyed by the record's `job_id`. The first save of
an attempt appends a row (`namedIds_save_of_fresh`). Later saves of the same
attempt rewrite that row in place (`namedIds_save_of_named`). A spot retry's
`reset()` record has no `job_id` and is not saved. So, in the order
`find_by_job_name` returns them, the rows named after a job are its attempts in
the order they were submitted. These are the record's `job_tries`, but an
attempt just submitted has its row only after the save that follows
(`Task.savedTries`).

* `store_lists_attempts_in_order`: take any interleaving of the tasks of
  `aio_batch_run_jobs` with fresh job ids, on jobs with distinct names whose
  rows hold their tries. At every moment, the job ids of the rows
  `find_by_job_name` finds for a task's job are the tries its record has
  saved, in order. So the first row, the one `jobs_to_run` reads, is the
  job's first attempt, however many spot retries followed.
-/

namespace AioAwsBatch

/-- The tries of a task's record that have a row: all of `job_tries`, but the
last one between its submission and the save after it. -/
def Task.savedTries (t : Task) : List String :=
  if t.pc = .saveSubmitted ∧ t.job.jobId ≠ none then t.job.jobTries.dropLast else t.job.jobTries

/-- The `job_id`s of the rows named `jobName`, in table order. -/
def AWSBatchDB.namedIds (db : AWSBatchDB) (jobName : String) : List (Option String) :=
  (db.jobsDb.search (·.jobName == jobName)).map (·.data.jobId)

/-! ## Saves -/

theorem findByJobName_ids (db : AWSBatchDB) {n : String} (hn : n ≠ "") :
    (db.findByJobName n).map (·.map (·.data.jobId)) = some (db.namedIds n) := by
  have h : n.isEmpty = false := Bool.eq_false_iff.mpr fun h => hn ((String.isEmpty_iff n).mp h)
  simp [AWSBatchDB.findByJobName, h, AWSBatchDB.namedIds]

theorem ne_empty_of_findByJobName {db : AWSBatchDB} {n : String} {docs : List Document}
    (h : db.findByJobName n = some docs) : n ≠ "" := by
  rintro rfl
  cases h

/-- The first save of an attempt appends its row. -/
theorem namedIds_save_of_fresh (db : AWSBatchDB) {job : AWSBatchJob} (ht : truthy job.jobId = true)
    (hfresh : ∀ doc ∈ db.jobsDb.docs, doc.data.jobId ≠ job.jobId) (m : String) :
    (db.save job).1.namedIds m = db.namedIds m ++ if job.jobName = m then [job.jobId] else [] := by
  have hany : db.jobsDb.docs.any (fun doc => doc.data.jobId == job.jobId) = false :=
    List.any_eq_false.mpr fun doc hdoc => by simpa using hfresh doc hdoc
  simp only [AWSBatchDB.save, ht, if_true, Table.upsert_fst, hany, AWSBatchDB.namedIds, Table.search,
    List.filter_append, List.map_append]
  by_cases hm : job.jobName = m <;> simp [hm, List.filter_cons]

/-- Rewriting rows, each keeping its name and `job_id`, keeps the ids of the
rows of every name. -/
theorem namedIds_map {l : List Document} {f : Document → Document}
    (hf : ∀ doc ∈ l, (f doc).data.jobName = doc.data.jobName ∧ (f doc).data.jobId = doc.data.jobId) (m : String) :
    ((l.map f).filter (·.data.jobName == m)).map (·.data.jobId) = (l.filter (·.data.jobName == m)).map (·.data.jobId) := by
  induction l with
  | nil => rfl
  | cons x l ih =>
    obtain ⟨h1, h2⟩ := hf x (List.mem_cons_self _ _)
    have ih' := ih fun doc hd => hf doc (List.mem_cons_of_mem _ hd)
    simp only [List.map_cons, List.filter_cons, h1]
    split <;> simp [h2, ih']

/-- A later save of an attempt rewrites its row, named as the record, in place. -/
theorem namedIds_save_of_named (db : AWSBatchDB) {job : AWSBatchJob} (ht : truthy job.jobId = true)
    (hex : ∃ doc ∈ db.jobsDb.docs, doc.data.jobId = job.jobId)
    (hnamed : ∀ doc ∈ db.jobsDb.docs, doc.data.jobId = job.jobId → doc.data.jobName = job.jobName)
    (m : String) : (db.save job).1.namedIds m = db.namedIds m := by
  have hany : db.jobsDb.docs.any (fun doc => doc.data.jobId == job.jobId) = true := by
    obtain ⟨doc, hdoc, hid⟩ := hex
    exact List.any_eq_true.mpr ⟨doc, hdoc, by simpa using hid⟩
  have hr : ∀ doc ∈ db.jobsDb.docs,
      (Table.replaceIf (·.jobId == job.jobId) job.dbData doc).data.jobName = doc.data.jobName ∧
        (Table.replaceIf (·.jobId == job.jobId) job.dbData doc).data.jobId = doc.data.jobId := by
    intro doc hdoc
    unfold Table.replaceIf
    split
    · rename_i h
      have hid := beq_iff_eq.mp h
      exact ⟨(hnamed doc hdoc hid).symm, hid.symm⟩
    · exact ⟨rfl, rfl⟩
  simp only [AWSBatchDB.save, ht, if_true, Table.upsert_fst, hany, AWSBatchDB.namedIds, Table.search]
  exact namedIds_map hr m

/-- A row after a step's save is one the store had, or has the saved record's
`job_id`. -/
theorem mem_saveTo_docs {e : Effect} {db : AWSBatchDB} {doc : Document} (h : doc ∈ (e.saveTo db).jobsDb.docs) :
    doc ∈ db.jobsDb.docs ∨ ∃ job, e.save = some job ∧ doc.data.jobId = job.jobId := by
  unfold Effect.saveTo at h
  split at h
  · rename_i job hs
    rcases mem_save_docs h with h | h
    · exact .inl h
    · exact .inr ⟨job, hs, by rw [h]; rfl⟩
  · exact .inl h

theorem AWSBatchDB.WellKeyed.saveTo {db : AWSBatchDB} (h : db.WellKeyed) (e : Effect) : (e.saveTo db).WellKeyed := by
  unfold Effect.saveTo
  split
  · exact h.save _
  · exact h

theorem exists_eq_some_of_truthy {k : Option String} (h : truthy k = true) : ∃ J, k = some J := by
  cases k with
  | none => cases h
  | some J => exact ⟨J, rfl⟩

/-! ## What a step does to the saved tries -/

section Step

variable {responseSuccess : SubmitResponse → Bool} {config : AWSBatchConfig}

theorem loopHead_ne_saveSubmitted (job : AWSBatchJob) : loopHead job ≠ .saveSubmitted := by
  unfold loopHead
  split
  · split <;> simp
  · simp

theorem aioBatchJobStatus_ne_saveSubmitted (job : AWSBatchJob) (f : Nat) (n : GateNext DescribeResponse) :
    (aioBatchJobStatus config job f n).1.pc ≠ .saveSubmitted := by
  cases n with
  | stay g => cases g <;> simp [aioBatchJobStatus]
  | returned response =>
    simp only [aioBatchJobStatus]
    rcases @waiterOnResponse_spec config job f response with ⟨d, -, ⟨-, h⟩ | h | h⟩ | ⟨-, ⟨-, h⟩ | h⟩ <;>
      rw [h] <;> simp
  | raised err => simp [aioBatchJobStatus]

theorem afterWait_ne_saveSubmitted (job : AWSBatchJob) (od : Option JobDescription) :
    (afterWait job od).pc ≠ .saveSubmitted := by
  rcases afterWait_spec job od with ⟨-, h⟩ | ⟨d, -, -, h⟩ | ⟨d, -, -, h⟩ | ⟨d, -, -, -, h⟩ <;> rw [h] <;> simp

/-- The save after a submission is the only step from it. -/
theorem saveSubmitted_step {job : AWSBatchJob} {t' : Task} {inp : Input} {e : Effect}
    (h : aioBatchJobManager responseSuccess config ⟨job, .saveSubmitted⟩ inp = some (t', e)) :
    t' = ⟨job, .status 0 .acquire⟩ ∧ e = { save := some job } := by
  rcases aioBatchJobManager_cases h with ⟨hp, -⟩ | ⟨g, n, hp, -⟩ | ⟨-, -, rfl, rfl⟩ | ⟨f, g, n, hp, -⟩ |
    ⟨f, hp, -⟩ | ⟨f, hp, -⟩ | ⟨od, hp, -⟩ | ⟨hp, -⟩
  all_goals first | exact ⟨rfl, rfl⟩ | cases hp

/-- Any other step keeps the tries that have a row. A step to the save after a
submission is the submission: the record's new `job_id`, if any, is the
response's. -/
theorem savedTries_step {t t' : Task} {inp : Input} {e : Effect} (hi : t.Inv)
    (h : aioBatchJobManager responseSuccess config t inp = some (t', e)) (hpc : t.pc ≠ .saveSubmitted) :
    t'.savedTries = t.savedTries ∧ (t'.pc = .saveSubmitted →
      t'.job.jobId = none ∨ ∃ response, inp = .submitted response ∧ t'.job.jobId = some response.jobId) := by
  obtain ⟨job, pc⟩ := t
  have hs : Task.savedTries ⟨job, pc⟩ = job.jobTries := by simp [Task.savedTries, hpc]
  rw [hs]
  rcases aioBatchJobManager_cases h with ⟨hp, -, rfl, -⟩ | ⟨g, n, hp, hn, rfl, -⟩ | ⟨hp, -, rfl, -⟩ |
    ⟨f, g, n, hp, -, rfl, -⟩ | ⟨f, hp, -, rfl, -⟩ | ⟨f, hp, -, rfl, -⟩ | ⟨od, hp, -, rfl, -⟩ |
    ⟨hp, -, rfl, -⟩ <;> dsimp only at hp <;> subst hp
  · exact ⟨by simp [Task.savedTries, loopHead_ne_saveSubmitted], fun h' => absurd h' (loopHead_ne_saveSubmitted _)⟩
  · rcases n with g' | response | err
    · cases g' <;> exact ⟨by simp [aioBatchJobSubmit, Task.savedTries], fun h' => by cases h'⟩
    · have hinp : inp = .submitted response := by
        have := Gate.next_returned hn
        cases inp <;> cases this
        rfl
      by_cases hr : responseSuccess response
      · exact ⟨by simp [aioBatchJobSubmit, hr, Task.savedTries],
          fun _ => .inr ⟨response, hinp, by simp [aioBatchJobSubmit, hr]⟩⟩
      · have hid : job.jobId = none := hi.1
        exact ⟨by simp [aioBatchJobSubmit, hr, Task.savedTries, hid], fun _ => .inl (by simp [aioBatchJobSubmit, hr, hid])⟩
    · exact ⟨by simp [aioBatchJobSubmit, Task.savedTries], fun h' => by cases h'⟩
  · exact absurd rfl hpc
  · refine ⟨?_, fun h' => absurd h' (aioBatchJobStatus_ne_saveSubmitted _ _ _)⟩
    simp only [Task.savedTries, aioBatchJobStatus_ne_saveSubmitted, false_and, if_false]
    rcases @aioBatchJobStatus_job config job f n with h' | ⟨d, -, h'⟩ <;> simp [h']
  · exact ⟨by simp [Task.savedTries], fun h' => by cases h'⟩
  · exact ⟨by simp [Task.savedTries], fun h' => by cases h'⟩
  · refine ⟨?_, fun h' => absurd h' (afterWait_ne_saveSubmitted _ _)⟩
    simp only [Task.savedTries, afterWait_ne_saveSubmitted, false_and, if_false]
    rcases afterWait_cases job od with h' | ⟨d, -, -, h'⟩ <;> simp [h']
  · exact ⟨by simp [Task.savedTries], fun h' => by cases h'⟩

end Step

/-! ## Every interleaving -/

/-- What holds at every moment of a run with fresh job ids, on jobs with
distinct names. -/
structure Sys.Ordered (s : Sys) : Prop where
  durable : s.Durable
  wellKeyed : s.db.WellKeyed
  wf : ∀ t ∈ s.tasks, t.job.Wf
  /-- no job has the empty name, which `find_by_job_name` does not look up -/
  named : ∀ t ∈ s.tasks, t.job.jobName ≠ ""
  /-- no two tasks' jobs have the same name -/
  names : ∀ {j k : Nat} {a b : Task}, s.tasks[j]? = some a → s.tasks[k]? = some b →
    a.job.jobName = b.job.jobName → j = k
  /-- the rows named after a task's job hold the tries its record has saved, in order -/
  rows : ∀ t ∈ s.tasks, s.db.namedIds t.job.jobName = t.savedTries.map some
  /-- the attempt a task has just submitted has no row yet -/
  unsaved : ∀ t ∈ s.tasks, t.pc = .saveSubmitted → ∀ doc ∈ s.db.jobsDb.docs, doc.data.jobId ≠ t.job.jobId

/-- A job whose rows hold its tries has a row for its `job_id`. -/
theorem row_of_jobId {db : AWSBatchDB} {job : AWSBatchJob} (hw : job.Wf)
    (hrows : (db.findByJobName job.jobName).map (·.map (·.data.jobId)) = some (job.jobTries.map some))
    {J : String} (hJ : job.jobId = some J) :
    ∃ doc ∈ db.jobsDb.docs, doc.data.jobName = job.jobName ∧ doc.data.jobId = some J := by
  obtain ⟨docs, hdocs, hmap⟩ := Option.map_eq_some'.mp hrows
  have hmem : some J ∈ docs.map (·.data.jobId) :=
    hmap ▸ List.mem_map_of_mem _ (List.mem_of_getLast?_eq_some (hw.last_jobId J hJ))
  obtain ⟨doc, hdoc, hdj⟩ := List.mem_map.mp hmem
  obtain ⟨hm, hn⟩ := mem_findByJobName hdocs doc hdoc
  exact ⟨doc, hm, hn, hdj⟩

theorem ordered_aioBatchRunJobs (w : Nat) (jobs : List AWSBatchJob) (db : AWSBatchDB)
    (hwf : ∀ job ∈ jobs, job.Wf) (hnames : (jobs.map (·.jobName)).Nodup) (hdb : db.WellKeyed)
    (hrows : ∀ job ∈ jobs,
      (db.findByJobName job.jobName).map (·.map (·.data.jobId)) = some (job.jobTries.map some)) :
    (aioBatchRunJobs w jobs db).Ordered where
  durable := by
    /- the jobs' ids have rows: they are truthy, and distinct as the names are -/
    refine durable_aioBatchRunJobs w jobs db (fun job hj hJ => ?_) ?_
    · obtain ⟨doc, hdoc, -, hdj⟩ := row_of_jobId (hwf job hj) (hrows job hj) hJ
      simpa [hdj, truthy] using hdb.truthy_jobId doc hdoc
    · refine (List.pairwise_map.mp hnames).imp_of_mem fun {a b} ha hb hab => ?_
      rcases hJ : a.jobId with _ | J
      · exact .inl rfl
      · refine .inr fun hJb => ?_
        obtain ⟨da, hda, hna, hja⟩ := row_of_jobId (hwf a ha) (hrows a ha) hJ
        obtain ⟨db', hdb', hnb, hjb⟩ := row_of_jobId (hwf b hb) (hrows b hb) hJb.symm
        obtain rfl := List.inj_on_of_nodup_map hdb.jobId_nodup hda hdb' (hja.trans hjb.symm)
        exact hab (hna.symm.trans hnb)
  wellKeyed := hdb
  wf t ht := by
    obtain ⟨job, hj, rfl⟩ := List.mem_map.mp ht
    exact hwf job hj
  named t ht := by
    obtain ⟨job, hj, rfl⟩ := List.mem_map.mp ht
    obtain ⟨docs, hdocs, -⟩ := Option.map_eq_some'.mp (hrows job hj)
    exact ne_empty_of_findByJobName hdocs
  names {j k a b} ha hb hab := by
    simp only [aioBatchRunJobs, List.getElem?_map, Option.map_eq_some'] at ha hb
    obtain ⟨a', ha', rfl⟩ := ha
    obtain ⟨b', hb', rfl⟩ := hb
    obtain ⟨hj, rfl⟩ := List.getElem?_eq_some_iff.mp ha'
    obtain ⟨hk, rfl⟩ := List.getElem?_eq_some_iff.mp hb'
    exact (@List.Nodup.getElem_inj_iff _ _ hnames j (by simpa using hj) k (by simpa using hk)).mp (by simpa using hab)
  rows t ht := by
    obtain ⟨job, hj, rfl⟩ := List.mem_map.mp ht
    obtain ⟨docs, hdocs, -⟩ := Option.map_eq_some'.mp (hrows job hj)
    have h := hrows job hj
    rw [findByJobName_ids db (ne_empty_of_findByJobName hdocs)] at h
    simpa [Task.savedTries] using h
  unsaved t ht hpc := by
    obtain ⟨job, -, rfl⟩ := List.mem_map.mp ht
    cases hpc

section Run

variable {responseSuccess : SubmitResponse → Bool} {config : AWSBatchConfig}

/-- Every save keeps the rows of each name, but the first save of an attempt,
which appends its row. -/
theorem Sys.Ordered.namedIds_saveTo {s : Sys} (ho : s.Ordered) {i : Nat} {t t' : Task} {inp : Input} {e : Effect}
    (ht : s.tasks[i]? = some t) (he : aioBatchJobManager responseSuccess config t inp = some (t', e)) (m : String) :
    (e.saveTo s.db).namedIds m = s.db.namedIds m ++
      if t.pc = .saveSubmitted ∧ t.job.jobId ≠ none ∧ t.job.jobName = m then [t.job.jobId] else [] := by
  have htm := List.getElem?_mem ht
  obtain ⟨job, pc⟩ := t
  by_cases hsub : pc = .saveSubmitted
  · subst hsub
    obtain ⟨-, rfl⟩ := saveSubmitted_step he
    simp only [Effect.saveTo]
    cases hid : truthy job.jobId
    · have hnone : job.jobId = none := by
        rcases hj : job.jobId with _ | J
        · rfl
        · have := ho.durable.jobId_ne _ htm
          simp only [hj, truthy, bne_eq_false_iff_eq] at hid this
          exact absurd (congrArg some hid) this
      simp [AWSBatchDB.save_of_not_truthy _ hid, hnone]
    · rw [namedIds_save_of_fresh _ hid (ho.unsaved _ htm rfl)]
      obtain ⟨J, hJ⟩ := exists_eq_some_of_truthy hid
      simp [hJ]
  · have hcond : ¬(pc = .saveSubmitted ∧ job.jobId ≠ none ∧ job.jobName = m) := fun h => hsub h.1
    rw [if_neg hcond, List.append_nil]
    unfold Effect.saveTo
    split
    · rename_i job' hs
      obtain rfl := save_step he hs
      cases hid : truthy job'.jobId
      · rw [AWSBatchDB.save_of_not_truthy _ hid]
      · obtain ⟨J, hJ⟩ := exists_eq_some_of_truthy hid
        /- the attempt has a row already: its id is the last of the saved tries -/
        have hmem : some J ∈ s.db.namedIds job'.jobName := by
          rw [ho.rows _ htm]
          have hsaved : Task.savedTries ⟨job', pc⟩ = job'.jobTries := by simp [Task.savedTries, hsub]
          rw [hsaved]
          exact List.mem_map_of_mem _ (List.mem_of_getLast?_eq_some ((ho.wf _ htm).last_jobId J hJ))
        obtain ⟨doc, hdoc, hdj⟩ := List.mem_map.mp hmem
        obtain ⟨hdm, hdn⟩ := List.mem_filter.mp hdoc
        refine namedIds_save_of_named _ hid ⟨doc, hdm, hdj.trans hJ.symm⟩ (fun doc' hdoc' hid' => ?_) m
        have := List.inj_on_of_nodup_map ho.wellKeyed.jobId_nodup hdm hdoc' (hdj.trans (hJ.symm.trans hid'.symm))
        subst this
        simpa using hdn
    · rfl

/-- The stepping task's rows after its step's save: the save after a
submission appends the new attempt's row, and any other step keeps the saved
tries. -/
theorem Sys.Ordered.rows_step {s : Sys} (ho : s.Ordered) {i : Nat} {t t' : Task} {inp : Input} {e : Effect}
    (ht : s.tasks[i]? = some t) (he : aioBatchJobManager responseSuccess config t inp = some (t', e)) :
    (e.saveTo s.db).namedIds t'.job.jobName = t'.savedTries.map some := by
  have htm := List.getElem?_mem ht
  rw [ho.namedIds_saveTo ht he, jobName_step ⟨inp, e, he⟩]
  by_cases hsub : t.pc = .saveSubmitted
  · obtain ⟨job, pc⟩ := t
    dsimp only at hsub
    subst hsub
    obtain ⟨rfl, -⟩ := saveSubmitted_step he
    rw [ho.rows _ htm]
    by_cases hid : job.jobId = none
    · simp [Task.savedTries, hid]
    · obtain ⟨J, hJ⟩ := Option.ne_none_iff_exists'.mp hid
      have hlast := List.dropLast_append_getLast? J ((ho.wf _ htm).last_jobId J hJ)
      simp only [Task.savedTries, ne_eq, hid, not_false_eq_true, and_self, if_true, true_and, hJ,
        reduceCtorEq, and_false, if_false]
      conv => rhs; rw [← hlast]
      simp
  · rw [if_neg fun hc => hsub hc.1, List.append_nil, ho.rows _ htm,
      (savedTries_step (ho.durable.inv t htm) he hsub).1]

/-- A step to the save after a submission leaves the new attempt without a row:
its id is fresh, or there is none. -/
theorem Sys.Ordered.unsaved_step {s : Sys} (ho : s.Ordered) {i : Nat} {t t' : Task} {inp : Input} {e : Effect}
    (hf : s.FreshInput inp) (ht : s.tasks[i]? = some t)
    (he : aioBatchJobManager responseSuccess config t inp = some (t', e)) (hpc : t'.pc = .saveSubmitted) :
    ∀ doc ∈ (e.saveTo s.db).jobsDb.docs, doc.data.jobId ≠ t'.job.jobId := by
  intro doc hdoc
  have htm := List.getElem?_mem ht
  have hsub : t.pc ≠ .saveSubmitted := by
    obtain ⟨job, pc⟩ := t
    rintro (rfl : pc = _)
    obtain ⟨rfl, -⟩ := saveSubmitted_step he
    cases hpc
  rcases (savedTries_step (ho.durable.inv t htm) he hsub).2 hpc with hnone | ⟨response, rfl, hJ⟩
  · have htruthy := (ho.wellKeyed.saveTo e).truthy_jobId doc hdoc
    rw [hnone]
    rintro hdn
    rw [hdn] at htruthy
    cases htruthy
  · rw [hJ]
    rcases mem_saveTo_docs hdoc with hdoc | ⟨job, hs, hdj⟩
    · exact hf.2.2 doc hdoc
    · rw [hdj, save_step he hs]
      exact hf.2.1 t htm

theorem Sys.Ordered.step {s s' : Sys} {i : Nat} {inp : Input} {e : Effect} (ho : s.Ordered)
    (hf : s.FreshInput inp) (h : s.step responseSuccess config i inp = some (s', e)) : s'.Ordered := by
  have hd' := ho.durable.step hf h
  obtain ⟨t, t', ht, he, -, -, rfl⟩ := Sys.step_cases h
  have htm : t ∈ s.tasks := List.getElem?_mem ht
  have hname : t'.job.jobName = t.job.jobName := jobName_step ⟨inp, e, he⟩
  refine ⟨hd', ho.wellKeyed.saveTo e, fun u hu => ?_, fun u hu => ?_, fun {j k a b} ha hb hab => ?_,
    fun u hu => ?_, fun u hu hpc doc hdoc => ?_⟩
  · rcases List.mem_or_eq_of_mem_set hu with hu | rfl
    · exact ho.wf u hu
    · exact (wf_step (ho.durable.inv t htm) (ho.wf t htm) ⟨inp, e, he⟩).1
  · rcases List.mem_or_eq_of_mem_set hu with hu | rfl
    · exact ho.named u hu
    · rw [hname]
      exact ho.named t htm
  · rcases getElem?_set_cases ha with ⟨hj, rfl⟩ | ⟨hj, ha'⟩ <;>
      rcases getElem?_set_cases hb with ⟨hk, rfl⟩ | ⟨hk, hb'⟩
    · omega
    · exact absurd (ho.names ht hb' (hname ▸ hab)) (Ne.symm hk)
    · exact absurd (ho.names ha' ht (hab.trans hname)) hj
    · exact ho.names ha' hb' hab
  /- a task other than the stepping one keeps its rows, and its attempt's row
  is not the stepping task's -/
  all_goals obtain ⟨k, hk⟩ := List.mem_iff_getElem?.mp hu
  all_goals rcases getElem?_set_cases hk with ⟨rfl, rfl⟩ | ⟨hki, hk⟩
  · exact ho.rows_step ht he
  · rw [ho.namedIds_saveTo ht he, if_neg fun hc => hki (ho.names hk ht hc.2.2.symm), List.append_nil]
    exact ho.rows u (List.getElem?_mem hk)
  · exact ho.unsaved_step hf ht he hpc doc hdoc
  · rcases mem_saveTo_docs hdoc with hdoc | ⟨job, hs, hdj⟩
    · exact ho.unsaved u (List.getElem?_mem hk) hpc doc hdoc
    · rw [hdj, save_step he hs]
      intro heq
      have htruthy := (ho.wellKeyed.saveTo e).truthy_jobId doc hdoc
      rw [hdj, save_step he hs] at htruthy
      obtain ⟨J, hJ⟩ := exists_eq_some_of_truthy htruthy
      exact hki (ho.durable.distinct hk ht (heq ▸ hJ) hJ)

theorem Sys.ordered_reach {s s' : Sys} (ho : s.Ordered)
    (hs : Relation.ReflTransGen (Sys.FreshStep responseSuccess config) s s') : s'.Ordered := by
  induction hs with
  | refl => exact ho
  | tail _ hst ih =>
    obtain ⟨i, inp, e, hf, h⟩ := hst
    exact ih.step hf h

end Run

end AioAwsBatch
