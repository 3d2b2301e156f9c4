import AioAwsBatch.Store

/-!
# The job manager, one suspension point at a time

`aio_batch_job_manager`, with the coroutines it awaits inlined
(`aio_batch_job_submit`, `aio_batch_job_waiter`, `aio_batch_job_status`), as a
state machine whose states are the places where the coroutine can be suspended
(`Pc`). `aioBatchJobManager` runs a task (`Task`: its record and where it is)
from one such place to the next, on an input from the outside (`Input`: a
reply to the outstanding call, or the end of a sleep, or the scheduler letting
the task go on), and says what the step did to the world (`Effect`): a slot of
`config.sem` taken or given back, a client call issued, a save.

Every acquisition of a semaphore is a place where the task may wait; in
CPython an acquisition that succeeds at once does not suspend, so this only
adds interleavings. The body of `async with jobs_db.DB_SEMAPHORE` has no
`await`, so a save takes and gives back the store's lock in one step.

The adapters share their retry loop (`Gate.next`): `Gate.head` is the head of
`while tries < config.retries`, `Gate.onError` the `except ClientError` branch;
`aioBatchJobSubmit` and `aioBatchJobStatus` say where each adapter goes from it.
`aioBatchJobTerminate` is the loop of the third adapter, which no task calls.
-/

namespace AioAwsBatch

/-- `AWSBatchConfig`, by the field the module's control flow reads: `retries`.
The pauses and jitter bounds only set how long the sleeps last; `sem` is the
semaphore the scheduler keeps (`Sys.sem`). -/
structure AWSBatchConfig where
  retries : Int := 5
  deriving DecidableEq, Repr

/-- What an adapter raises: a `ClientError` it does not retry, or its
`RuntimeError` once the retries are spent. -/
inductive AdapterError where
  | clientError (e : ClientError)
  | runtimeError (msg : String)
  deriving DecidableEq, Repr

/-- How a manager task ends: it returns (`None`, or a description), raises what
an adapter raised, or fails on `job_desc["status"]` (`typeError`) when the
waiter gave up and returned `None`. -/
inductive Outcome where
  | returned (jobDesc : Option JobDescription)
  | raised (err : AdapterError)
  | typeError
  deriving DecidableEq, Repr

/-- What the outside world hands a suspended task: the scheduler lets it go on
(`resume`: a sleep ended, or it may try to take a lock), or the outstanding
call returned a response or raised a `ClientError`. -/
inductive Input where
  | resume
  | submitted (response : SubmitResponse)
  | described (response : DescribeResponse)
  | terminated (response : TerminateResponse)
  | failed (e : ClientError)
  deriving DecidableEq, Repr

def Input.submitResponse : Input → Option SubmitResponse
  | .submitted response => some response
  | _ => none

def Input.describeResponse : Input → Option DescribeResponse
  | .described response => some response
  | _ => none

def Input.terminateResponse : Input → Option TerminateResponse
  | .terminated response => some response
  | _ => none

/-- Where the retry loop of an adapter is suspended: at `async with
config.sem` (`acquire`), or with a slot held, on the outstanding `tries`-th call
(`call`) or in `jitter(...)` after it was throttled (`jitter`). -/
inductive Gate where
  | acquire
  | call (tries : Nat)
  | jitter (tries : Nat)
  deriving DecidableEq, Repr

/-- Where the retry loop goes: still inside `async with config.sem`, or out of
it, by returning the call's response or by raising. -/
inductive GateNext (α : Type) where
  | stay (g : Gate)
  | returned (a : α)
  | raised (err : AdapterError)

namespace Gate

/-- `while tries < config.retries: tries += 1; <call>`, whose `else` raises
`RuntimeError(msg)`. -/
def head {α : Type} (retries : Int) (msg : String) (tries : Nat) : GateNext α :=
  if (tries : Int) < retries then .stay (.call (tries + 1)) else .raised (.runtimeError msg)

/-- `except botocore.exceptions.ClientError` after the `tries`-th call: a
throttle sleeps in `jitter` if `tries < config.retries`, then `continue`s;
any other error is raised again. -/
def onError {α : Type} (retries : Int) (msg : String) (tries : Nat) (e : ClientError) :
    GateNext α :=
  if e.throttled then
    if (tries : Int) < retries then .stay (.jitter tries) else head retries msg tries
  else .raised (.clientError e)

/-- One step of the retry loop, suspended at `g`, on the input `inp`: the loop's
head when the slot is taken or a jitter ends, the response of the outstanding
call (read off the input by `reply`), or the `except` branch on its error.
`none`: not an input the loop waits for. -/
def next {α : Type} (retries : Int) (msg : String) (reply : Input → Option α) :
    Gate → Input → Option (GateNext α)
  | .acquire, .resume => some (head retries msg 0)
  | .call t, .failed e => some (onError retries msg t e)
  | .call _, inp => (reply inp).map .returned
  | .jitter t, .resume => some (head retries msg t)
  | _, _ => none

end Gate

/-- The messages of the `RuntimeError`s of `aio_batch_job_submit`,
`aio_batch_job_status` and `aio_batch_job_terminate`. -/
def submitExceeded : String := "AWS Batch job submission exceeded retries"

def statusExceeded : String := "AWS Batch job description exceeded retries"

def terminateExceeded : String := "AWS Batch job termination exceeded retries"

/-- `aio_batch_job_terminate(job_id, reason)`, one step of its retry loop: it
returns the `terminate_job` response as it is. No manager task calls it. -/
def aioBatchJobTerminate (config : AWSBatchConfig) : Gate → Input → Option (GateNext TerminateResponse) :=
  Gate.next config.retries terminateExceeded Input.terminateResponse

/-- Where a manager task is suspended: at the head of `while job.num_tries <
job.max_tries` (`loop`); in `aio_batch_job_submit` (`submit`); at `async with
jobs_db.DB_SEMAPHORE` after the submission, with what the waiter returned, or
after `job.reset()` (`saveSubmitted`, `saveWaited`, `saveReset`); in the
waiter's `aio_batch_job_status` and its start and poll `delay`s, with
`monitor_failures` (`status`, `startPause`, `pollPause`); or ended (`done`). -/
inductive Pc where
  | loop
  | submit (g : Gate)
  | saveSubmitted
  | status (monitorFailures : Nat) (g : Gate)
  | startPause (monitorFailures : Nat)
  | pollPause (monitorFailures : Nat)
  | saveWaited (jobDesc : Option JobDescription)
  | saveReset
  | done (o : Outcome)
  deriving DecidableEq, Repr

/-- A manager task: its record and where it is. -/
structure Task where
  job : AWSBatchJob
  pc : Pc
  deriving DecidableEq

inductive Call where
  | submitJob (params : SubmitParams)
  | describeJobs (jobs : List (Option String))
  deriving DecidableEq, Repr

/-- What a step does outside the task's record: it takes or gives back a slot
of `config.sem`, issues a client call, or makes `jobs_db.save(job)` under
`DB_SEMAPHORE`. -/
structure Effect where
  acquire : Bool := false
  release : Bool := false
  call : Option Call := none
  save : Option AWSBatchJob := none
  deriving DecidableEq

/-- The same step, made by an adapter's retry loop from `g`: it takes a slot of
`config.sem` when it leaves `acquire`. -/
def Effect.fromGate (g : Gate) (e : Effect) : Effect := { e with acquire := g == .acquire }

section Step

variable (responseSuccess : SubmitResponse → Bool) (config : AWSBatchConfig)

/-- The head of the manager's loop. -/
def loopHead (job : AWSBatchJob) : Pc :=
  if job.numTries < job.maxTries then
    if job.jobId = none then .submit .acquire else .status 0 .acquire
  else .done (.returned none)

/-- Where `aio_batch_job_submit` goes from a step of its retry loop: a call of
`submit_job(**job.params)`, or the record updated from a response that passes
`response_success`. -/
def aioBatchJobSubmit (job : AWSBatchJob) : GateNext SubmitResponse → Task × Effect
  | .stay (.call t) => (⟨job, .submit (.call t)⟩, { call := some (.submitJob job.params) })
  | .stay g => (⟨job, .submit g⟩, {})
  | .returned response =>
    (⟨if responseSuccess response then job.recordSubmission response else job, .saveSubmitted⟩,
      { release := true })
  | .raised err => (⟨job, .done (.raised err)⟩, { release := true })

/-- What `aio_batch_job_waiter` does with a `describe_jobs` response, having
seen `monitorFailures` responses without the job: it records the job's
description and returns it if terminal, or pauses; with no description it
counts a failure and gives up (returns `None`) after more than
`config.retries`. -/
def waiterOnResponse (job : AWSBatchJob) (monitorFailures : Nat) (response : DescribeResponse) :
    Task :=
  match parseJobDescription job.jobId response with
  | some jobDesc =>
    if jobDesc.status ∈ ["FAILED", "SUCCEEDED"] then
      ⟨job.recordDescription jobDesc, .saveWaited (some jobDesc)⟩
    else if jobDesc.status ∈ ["SUBMITTED", "PENDING", "RUNNABLE"] then
      ⟨job.recordDescription jobDesc, .startPause monitorFailures⟩
    else ⟨job.recordDescription jobDesc, .pollPause monitorFailures⟩
  | none =>
    if ((monitorFailures + 1 : Nat) : Int) > config.retries then ⟨job, .saveWaited none⟩
    else ⟨job, .pollPause (monitorFailures + 1)⟩

/-- Where the waiter's `aio_batch_job_status` goes from a step of its retry
loop: a call of `describe_jobs(jobs=[job.job_id])`, or the waiter's handling
of the response. -/
def aioBatchJobStatus (job : AWSBatchJob) (monitorFailures : Nat) :
    GateNext DescribeResponse → Task × Effect
  | .stay (.call t) =>
    (⟨job, .status monitorFailures (.call t)⟩, { call := some (.describeJobs [job.jobId]) })
  | .stay g => (⟨job, .status monitorFailures g⟩, {})
  | .returned response => (waiterOnResponse config job monitorFailures response, { release := true })
  | .raised err => (⟨job, .done (.raised err)⟩, { release := true })

/-- What the manager does after saving the waiter's result: return on
`SUCCEEDED`; on `FAILED`, reset for a retry when the status reason is a spot
failure, and return otherwise (a missing reason is a `KeyError`, passed);
`job_desc["status"]` on `None` raises a `TypeError`. -/
def afterWait (job : AWSBatchJob) : Option JobDescription → Task
  | none => ⟨job, .done .typeError⟩
  | some jobDesc =>
    if jobDesc.status = "SUCCEEDED" then ⟨job, .done (.returned (some jobDesc))⟩
    else if jobDesc.status = "FAILED" then
      match jobDesc.statusReason with
      | some reason =>
        if spotFailure reason then ⟨job.reset, .saveReset⟩
        else ⟨job, .done (.returned (some jobDesc))⟩
      | none => ⟨job, .done (.returned (some jobDesc))⟩
    else ⟨job, .loop⟩

/-- `aio_batch_job_manager`, from one suspension point to the next. `none`:
the input is not one the task waits for. -/
def aioBatchJobManager : Task → Input → Option (Task × Effect)
  | ⟨job, .loop⟩, .resume => some (⟨job, loopHead job⟩, {})
  | ⟨job, .submit g⟩, inp =>
    (Gate.next config.retries submitExceeded Input.submitResponse g inp).map fun n =>
      ((aioBatchJobSubmit responseSuccess job n).1, (aioBatchJobSubmit responseSuccess job n).2.fromGate g)
  | ⟨job, .saveSubmitted⟩, .resume => some (⟨job, .status 0 .acquire⟩, { save := some job })
  | ⟨job, .status f g⟩, inp =>
    (Gate.next config.retries statusExceeded Input.describeResponse g inp).map fun n =>
      ((aioBatchJobStatus config job f n).1, (aioBatchJobStatus config job f n).2.fromGate g)
  | ⟨job, .startPause f⟩, .resume => some (⟨job, .pollPause f⟩, {})
  | ⟨job, .pollPause f⟩, .resume => some (⟨job, .status f .acquire⟩, {})
  | ⟨job, .saveWaited jobDesc⟩, .resume => some (afterWait job jobDesc, { save := some job })
  | ⟨job, .saveReset⟩, .resume => some (⟨job, .loop⟩, { save := some job })
  | _, _ => none

/-- The task after each of the inputs in turn. -/
def Task.run : Task → List Input → Option Task
  | t, [] => some t
  | t, inp :: inps => (aioBatchJobManager responseSuccess config t inp).bind fun r => r.1.run inps

end Step

/-- A recovered record whose job the waiter cannot find: after `config.retries + 1`
`describe_jobs` responses without the job the waiter gives up and returns
`None`, and the manager fails on `job_desc["status"]`. -/
theorem manager_waiter_give_up_type_error (responseSuccess : SubmitResponse → Bool) :
    (Task.run responseSuccess {}
      ⟨AWSBatchJob.new
        { jobName := "t-0001", jobQueue := "batch-dev", jobDefinition := "batch-dev",
          jobId := some "J1", status := some "RUNNING", jobTries := some ["J1"], numTries := 1 }, .loop⟩
      ([.resume] ++ (List.replicate 5 [.resume, .described ⟨[]⟩, .resume]).flatten ++
        [.resume, .described ⟨[]⟩, .resume])).map (·.pc) = some (.done .typeError) := rfl

end AioAwsBatch
