import AioAwsBatch.Job

/-!
# The job store

`AWSBatchDB` keeps the rows (`db_data`) of jobs in the TinyDB table
`aws-batch-jobs` (`Table`): documents in `doc_id` order, the order in which
TinyDB reads, searches and gets them. `save` upserts a job's row keyed by its
`job_id`, and does nothing for a job whose `job_id` is not truthy (`truthy`);
`findByJobId`, `findByJobName`, `removeByJobId` and `removeByJobName` are the
lookups and deletions, `findJobsToRun` and `jobsToRun` the two recovery filters.
-/

namespace AioAwsBatch

/-- Python's truth value of an `Optional[str]`: not `None` and not `""`. -/
def truthy : Option String → Bool
  | some s => s != ""
  | none => false

/-- `job.job_id and job.status == "SUCCEEDED"`, the test both recovery filters
make. -/
def AWSBatchJob.succeeded (job : AWSBatchJob) : Bool :=
  truthy job.jobId && job.status == some "SUCCEEDED"

/-- A TinyDB document: a row and its `doc_id`. -/
structure Document where
  docId : Nat
  data : DbData
  deriving DecidableEq, Repr

/-- A TinyDB table: its documents in `doc_id` order and the last `doc_id` it
handed out. -/
structure Table where
  docs : List Document
  lastId : Nat
  deriving DecidableEq, Repr

namespace Table

/-- `table.search(cond)`. -/
def search (t : Table) (cond : DbData → Bool) : List Document :=
  t.docs.filter (cond ·.data)

/-- `table.get(cond)`: the first document that matches. -/
def get (t : Table) (cond : DbData → Bool) : Option Document :=
  t.docs.find? (cond ·.data)

/-- `table.insert(data)`: a document with the next `doc_id`, which it returns. -/
def insert (t : Table) (data : DbData) : Table × Nat :=
  (⟨t.docs ++ [⟨t.lastId + 1, data⟩], t.lastId + 1⟩, t.lastId + 1)

/-- A document after `update`: a matching one takes the fields. Every row of the
table is a `db_data`, with the same thirteen keys as the fields, so the dict
update replaces the row. -/
def replaceIf (cond : DbData → Bool) (data : DbData) (doc : Document) : Document :=
  if cond doc.data then ⟨doc.docId, data⟩ else doc

/-- `table.update(fields, cond)`: every matching document takes the fields, and
their `doc_id`s are returned. -/
def update (t : Table) (data : DbData) (cond : DbData → Bool) : Table × List Nat :=
  (⟨t.docs.map (replaceIf cond data), t.lastId⟩, (t.search cond).map (·.docId))

/-- `table.upsert(data, cond)`: update the matching documents, or insert `data`
when none matches. -/
def upsert (t : Table) (data : DbData) (cond : DbData → Bool) : Table × List Nat :=
  let (t', updated) := t.update data cond
  if updated.isEmpty then ((t'.insert data).1, [(t'.insert data).2]) else (t', updated)

/-- `table.remove(doc_ids=...)`. -/
def remove (t : Table) (docIds : List Nat) : Table :=
  ⟨t.docs.filter fun doc => !docIds.contains doc.docId, t.lastId⟩

/-- `table.all()`. -/
def all (t : Table) : List DbData := t.docs.map (·.data)

end Table

/-- `AWSBatchDB`, over its TinyDB table `jobs_db`. -/
structure AWSBatchDB where
  jobsDb : Table
  deriving DecidableEq, Repr

namespace AWSBatchDB

/-- A store whose table has no documents. -/
def empty : AWSBatchDB := ⟨⟨[], 0⟩⟩

/-- `find_by_job_id(job_id)`: the first row with this `job_id`; nothing for a
`job_id` that is not truthy. -/
def findByJobId (db : AWSBatchDB) (jobId : Option String) : Option Document :=
  if truthy jobId then db.jobsDb.get (·.jobId == jobId) else none

/-- `find_by_job_name(job_name)`: every row with this `job_name`, in table
order; `None` for an empty name. -/
def findByJobName (db : AWSBatchDB) (jobName : String) : Option (List Document) :=
  if jobName.isEmpty then none else some (db.jobsDb.search (·.jobName == jobName))

/-- `remove_by_job_id(job_id)`: remove the document `find_by_job_id` finds, and
return it. -/
def removeByJobId (db : AWSBatchDB) (jobId : Option String) : AWSBatchDB × Option Document :=
  if truthy jobId then
    match db.findByJobId jobId with
    | some job => (⟨db.jobsDb.remove [job.docId]⟩, some job)
    | none => (db, none)
  else (db, none)

/-- `remove_by_job_name(job_name)`: remove every document `find_by_job_name`
finds, and return them. -/
def removeByJobName (db : AWSBatchDB) (jobName : String) :
    AWSBatchDB × Option (List Document) :=
  if jobName.isEmpty then (db, none) else
    match db.findByJobName jobName with
    | some jobsFound =>
      if jobsFound.isEmpty then (db, some jobsFound)
      else (⟨db.jobsDb.remove (jobsFound.map (·.docId))⟩, some jobsFound)
    | none => (db, none)

/-- `save(job)`: upsert the job's row keyed by its `job_id`; a job whose
`job_id` is not truthy is not saved (the source logs an error). -/
def save (db : AWSBatchDB) (job : AWSBatchJob) : AWSBatchDB × Option (List Nat) :=
  if truthy job.jobId then
    (⟨(db.jobsDb.upsert job.dbData (·.jobId == job.jobId)).1⟩,
      some (db.jobsDb.upsert job.dbData (·.jobId == job.jobId)).2)
  else (db, none)

/-- `find_jobs_to_run()`: a job for every row, except those that succeeded. -/
def findJobsToRun (db : AWSBatchDB) : List AWSBatchJob :=
  (db.jobsDb.all.map AWSBatchJob.new).filter fun job => !job.succeeded

end AWSBatchDB

/-- Whether the store shows `job` done, in `jobs_to_run`: the first row found
under its name rebuilds a job that succeeded. -/
def savedSucceeded (jobsDb : AWSBatchDB) (job : AWSBatchJob) : Bool :=
  match jobsDb.findByJobName job.jobName with
  | some (jobData :: _) => (AWSBatchJob.new jobData.data).succeeded
  | _ => false

/-- `jobs_to_run(jobs, jobs_db)`: the jobs, in order, that neither the store
(`savedSucceeded`) nor the job itself shows succeeded. -/
def jobsToRun (jobs : List AWSBatchJob) (jobsDb : AWSBatchDB) : List AWSBatchJob :=
  jobs.filter fun job => !savedSucceeded jobsDb job && !job.succeeded

theorem new_succeeded (d : DbData) :
    (AWSBatchJob.new d).succeeded = (truthy d.jobId && d.status == some "SUCCEEDED") := rfl

/-- A name with two rows, the `SUCCEEDED` row of a retry stored (and created)
after the `FAILED` row of the attempt it replaced: `jobs_to_run` reads the first
row, so it keeps a job of that name. -/
theorem jobs_to_run_reads_first_row :
    let failed : DbData :=
      { jobName := "t-0001", jobQueue := "batch-dev", jobDefinition := "batch-dev",
        jobId := some "J1", status := some "FAILED", jobTries := some ["J1"], numTries := 1,
        jobDescription := some ⟨"J1", "FAILED", some "Host EC2 (instance i-0a1b) terminated.", some 1⟩ }
    let succeeded : DbData :=
      { jobName := "t-0001", jobQueue := "batch-dev", jobDefinition := "batch-dev",
        jobId := some "J2", status := some "SUCCEEDED", jobTries := some ["J1", "J2"], numTries := 2,
        jobDescription := some ⟨"J2", "SUCCEEDED", none, some 2⟩ }
    let db : AWSBatchDB := ⟨⟨[⟨1, failed⟩, ⟨2, succeeded⟩], 2⟩⟩
    let job := AWSBatchJob.new { jobName := "t-0001", jobQueue := "batch-dev", jobDefinition := "batch-dev" }
    db.findByJobName "t-0001" = some [⟨1, failed⟩, ⟨2, succeeded⟩] ∧ jobsToRun [job] db = [job] :=
  ⟨rfl, rfl⟩

end AioAwsBatch
