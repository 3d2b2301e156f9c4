import AioAwsBatch.Payload

/-!
# The job record

`AWSBatchJob` is the dataclass as `__post_init__` leaves it: its lists and its
dict are never `None`, its name has at most 128 characters, and a non-empty
`command` stands in `container_overrides` under `"command"`. The last two are
fields of the structure, so a record without them cannot be built.
`AWSBatchJob.new` is the constructor, `__post_init__` included, applied to the
keyword arguments (`DbData`); `AWSBatchJob.dbData` is `db_data`, the row the
store keeps, and those keys are the constructor's keyword arguments.

The three ways the engine changes a record are `recordSubmission` (what
`aio_batch_job_submit` writes on a successful response), `recordDescription`
(the waiter's status update) and `reset`.

`new_dbData`: rebuilding a record from its row gives the record back, so
`__post_init__` is idempotent and no field is lost in the store; so for every
record the engine makes (`record_round_trip`).
-/

namespace AioAwsBatch

/-- An entry of `depends_on`: `{'jobId': ..., ['type': 'N_TO_N' | 'SEQUENTIAL']}`. -/
structure JobDependency where
  jobId : String
  type : Option String := none
  deriving DecidableEq, Repr

/-- A value in `container_overrides`: a list of strings (such as the `command`
that `__post_init__` folds in), or any other JSON value (`vcpus`, `memory`,
`environment`, …), which the module only passes on and which stands here by
its text. -/
inductive OverrideValue where
  | strings (xs : List String)
  | json (text : String)
  deriving DecidableEq, Repr

/-- A `container_overrides` dict: its items in insertion order. -/
abbrev Overrides := List (String × OverrideValue)

/-- `d.update({k: v})`: the value of `k` is replaced where it stands, or `k` is
added at the end. -/
def dictUpdate (k : String) (v : OverrideValue) : Overrides → Overrides
  | [] => [(k, v)]
  | (k', v') :: d => if k' = k then (k, v) :: d else (k', v') :: dictUpdate k v d

theorem lookup_dictUpdate (k : String) (v : OverrideValue) :
    ∀ d : Overrides, (dictUpdate k v d).lookup k = some v
  | [] => by simp [dictUpdate]
  | (k', v') :: d => by
    by_cases h : k' = k
    · simp [dictUpdate, h]
    · have hk : (k == k') = false := by simpa using Ne.symm h
      simp [dictUpdate, h, List.lookup_cons, hk, lookup_dictUpdate k v d]

/-- Updating a key to the value it has changes nothing. -/
theorem dictUpdate_of_lookup {k : String} {v : OverrideValue} :
    ∀ {d : Overrides}, d.lookup k = some v → dictUpdate k v d = d
  | [], h => by simp at h
  | (k', v') :: d, h => by
    by_cases hk : k' = k
    · subst hk
      simp only [List.lookup_cons_self, Option.some.injEq] at h
      simp [dictUpdate, h]
    · have hk' : (k == k') = false := by simpa using Ne.symm hk
      simp only [List.lookup_cons, hk'] at h
      simp [dictUpdate, hk, dictUpdate_of_lookup h]

/-- `if self.command: self.container_overrides.update({"command": self.command})`. -/
def foldCommand (command : Option (List String)) (containerOverrides : Overrides) : Overrides :=
  match command with
  | some c => if c.isEmpty then containerOverrides else dictUpdate "command" (.strings c) containerOverrides
  | none => containerOverrides

/-- `job_name[:128]`: the first 128 characters. -/
def jobNameCap (jobName : String) : String := ⟨jobName.data.take 128⟩

/-- The keys of `db_data`, which are the keyword arguments of `AWSBatchJob(...)`,
with the constructor's defaults; `none` is `None`. -/
structure DbData where
  jobName : String
  jobQueue : String
  jobDefinition : String
  command : Option (List String) := none
  dependsOn : Option (List JobDependency) := none
  containerOverrides : Option Overrides := none
  jobId : Option String := none
  status : Option String := none
  jobTries : Option (List String) := none
  numTries : Int := 0
  maxTries : Int := 4
  jobSubmission : Option SubmitResponse := none
  jobDescription : Option JobDescription := none
  deriving DecidableEq, Repr

/-- An `AWSBatchJob` as `__post_init__` leaves it. -/
structure AWSBatchJob where
  jobName : String
  jobQueue : String
  jobDefinition : String
  command : Option (List String)
  dependsOn : List JobDependency
  containerOverrides : Overrides
  jobId : Option String
  status : Option String
  jobTries : List String
  numTries : Int
  maxTries : Int
  jobSubmission : Option SubmitResponse
  jobDescription : Option JobDescription
  jobName_length : jobName.length ≤ 128
  command_folded : ∀ c, command = some c → c ≠ [] →
    containerOverrides.lookup "command" = some (.strings c)
  deriving DecidableEq

attribute [ext] AWSBatchJob

theorem lookup_foldCommand {command : Option (List String)} {c : List String}
    (co : Overrides) (hc : command = some c) (hne : c ≠ []) :
    (foldCommand command co).lookup "command" = some (.strings c) := by
  subst hc
  simp [foldCommand, List.isEmpty_iff, hne, lookup_dictUpdate]

/-- `AWSBatchJob(**d)`: the dataclass's fields from the keyword arguments, then
`__post_init__`. -/
def AWSBatchJob.new (d : DbData) : AWSBatchJob where
  jobName := jobNameCap d.jobName
  jobQueue := d.jobQueue
  jobDefinition := d.jobDefinition
  command := d.command
  dependsOn := d.dependsOn.getD []
  containerOverrides := foldCommand d.command (d.containerOverrides.getD [])
  jobId := d.jobId
  status := d.status
  jobTries := d.jobTries.getD []
  numTries := d.numTries
  maxTries := d.maxTries
  jobSubmission := d.jobSubmission
  jobDescription := d.jobDescription
  jobName_length := List.length_take_le _ _
  command_folded _ hc hne := lookup_foldCommand _ hc hne

example :
    (AWSBatchJob.new
      { jobName := "t-0001", jobQueue := "q", jobDefinition := "d", command := some ["echo"],
        containerOverrides := some [("vcpus", .json "2")] }).containerOverrides =
      [("vcpus", .json "2"), ("command", .strings ["echo"])] := rfl

/-- `db_data`: the row the store keeps for the job. -/
def AWSBatchJob.dbData (job : AWSBatchJob) : DbData where
  jobId := job.jobId
  jobName := job.jobName
  jobQueue := job.jobQueue
  jobDefinition := job.jobDefinition
  jobSubmission := job.jobSubmission
  jobDescription := job.jobDescription
  containerOverrides := some job.containerOverrides
  command := job.command
  dependsOn := some job.dependsOn
  status := job.status
  jobTries := some job.jobTries
  numTries := job.numTries
  maxTries := job.maxTries

/-- The parameters of `submit_job`, `params`. -/
structure SubmitParams where
  jobName : String
  jobQueue : String
  jobDefinition : String
  containerOverrides : Overrides
  dependsOn : List JobDependency
  deriving DecidableEq, Repr

/-- `params`: what `aio_batch_job_submit` sends. -/
def AWSBatchJob.params (job : AWSBatchJob) : SubmitParams :=
  ⟨job.jobName, job.jobQueue, job.jobDefinition, job.containerOverrides, job.dependsOn⟩

/-- What `aio_batch_job_submit` writes into the record on a response that
passes `response_success`. -/
def AWSBatchJob.recordSubmission (job : AWSBatchJob) (response : SubmitResponse) : AWSBatchJob :=
  { job with
    jobId := some response.jobId
    jobSubmission := some response
    jobTries := job.jobTries ++ [response.jobId]
    numTries := job.numTries + 1 }

/-- What `aio_batch_job_waiter` writes into the record on a description of the job. -/
def AWSBatchJob.recordDescription (job : AWSBatchJob) (jobDesc : JobDescription) : AWSBatchJob :=
  { job with jobDescription := some jobDesc, status := some jobDesc.status }

/-- `reset()`: clear the job id and the data of the last attempt. -/
def AWSBatchJob.reset (job : AWSBatchJob) : AWSBatchJob :=
  { job with jobId := none, jobDescription := none, jobSubmission := none, status := none }

section Fields

variable (job : AWSBatchJob) (response : SubmitResponse) (jobDesc : JobDescription)

@[simp] theorem recordSubmission_jobId : (job.recordSubmission response).jobId = some response.jobId := rfl
@[simp] theorem recordSubmission_jobTries :
    (job.recordSubmission response).jobTries = job.jobTries ++ [response.jobId] := rfl
@[simp] theorem recordSubmission_numTries :
    (job.recordSubmission response).numTries = job.numTries + 1 := rfl
@[simp] theorem recordSubmission_maxTries : (job.recordSubmission response).maxTries = job.maxTries := rfl
@[simp] theorem recordSubmission_jobName : (job.recordSubmission response).jobName = job.jobName := rfl
@[simp] theorem recordDescription_jobId : (job.recordDescription jobDesc).jobId = job.jobId := rfl
@[simp] theorem recordDescription_jobTries : (job.recordDescription jobDesc).jobTries = job.jobTries := rfl
@[simp] theorem recordDescription_numTries : (job.recordDescription jobDesc).numTries = job.numTries := rfl
@[simp] theorem recordDescription_maxTries : (job.recordDescription jobDesc).maxTries = job.maxTries := rfl
@[simp] theorem recordDescription_jobName : (job.recordDescription jobDesc).jobName = job.jobName := rfl
@[simp] theorem recordDescription_status :
    (job.recordDescription jobDesc).status = some jobDesc.status := rfl
@[simp] theorem recordDescription_jobDescription :
    (job.recordDescription jobDesc).jobDescription = some jobDesc := rfl
@[simp] theorem reset_jobId : job.reset.jobId = none := rfl
@[simp] theorem reset_jobTries : job.reset.jobTries = job.jobTries := rfl
@[simp] theorem reset_numTries : job.reset.numTries = job.numTries := rfl
@[simp] theorem reset_maxTries : job.reset.maxTries = job.maxTries := rfl
@[simp] theorem reset_jobName : job.reset.jobName = job.jobName := rfl
@[simp] theorem dbData_jobId : job.dbData.jobId = job.jobId := rfl
@[simp] theorem dbData_jobName : job.dbData.jobName = job.jobName := rfl
@[simp] theorem dbData_status : job.dbData.status = job.status := rfl
@[simp] theorem dbData_jobDescription : job.dbData.jobDescription = job.jobDescription := rfl

end Fields

/-! ## Records and their rows -/

theorem jobNameCap_of_length_le {s : String} (h : s.length ≤ 128) : jobNameCap s = s := by
  simp only [jobNameCap, List.take_of_length_le h]

/-- `__post_init__` changes nothing on a record it already normalised. -/
theorem foldCommand_self (job : AWSBatchJob) :
    foldCommand job.command job.containerOverrides = job.containerOverrides := by
  match hc : job.command with
  | none => rfl
  | some c =>
    by_cases hne : c = []
    · simp [foldCommand, hne]
    · simp only [foldCommand, List.isEmpty_iff, hne, if_false]
      exact dictUpdate_of_lookup (job.command_folded c hc hne)

/-- Rebuilding a record from its row gives the record back. -/
theorem new_dbData (job : AWSBatchJob) : AWSBatchJob.new job.dbData = job := by
  apply AWSBatchJob.ext
  · exact jobNameCap_of_length_le job.jobName_length
  all_goals first | rfl | exact foldCommand_self job

/-- A change the engine makes to a record. -/
inductive JobUpdate where
  /-- `aio_batch_job_submit` on a successful response -/
  | submitted (response : SubmitResponse)
  /-- the waiter's status update -/
  | described (jobDesc : JobDescription)
  /-- `reset()` -/
  | reset
  deriving DecidableEq, Repr

/-- The record after the change. -/
def JobUpdate.apply (job : AWSBatchJob) : JobUpdate → AWSBatchJob
  | .submitted response => job.recordSubmission response
  | .described jobDesc => job.recordDescription jobDesc
  | .reset => job.reset

/-- A record built by the constructor and changed by the engine in any way is
rebuilt from its row: `AWSBatchJob(**r.db_data) == r`. -/
theorem record_round_trip (d : DbData) (us : List JobUpdate) :
    let r := us.foldl JobUpdate.apply (AWSBatchJob.new d)
    AWSBatchJob.new r.dbData = r :=
  new_dbData _

end AioAwsBatch
