import Mathlib.Data.List.Basic

/-!
# What the batch service sends back

The parts of the AWS Batch responses that `aio_aws_batch` reads: a `submit_job`
response (`SubmitResponse`), a `terminate_job` response (`TerminateResponse`),
the job descriptions of a `describe_jobs` response
(`JobDescription`, `DescribeResponse`) and a botocore `ClientError`.

`parseJobDescription` is `parse_job_description`, which picks a job's entry out
of a `describe_jobs` response: the last one with the job's id
(`parseJobDescription_eq_last`). `spotFailure` is the manager's test
`re.match(r"Host EC2.*terminated", reason)`; `spotFailure_iff` says which
reasons it matches.
-/

namespace AioAwsBatch

/-- A botocore `ClientError`, by its `err.response["Error"]["Code"]` (`none`
when the response has no code). -/
structure ClientError where
  code : Option String
  deriving DecidableEq, Repr

/-- `error.get("Code") == "TooManyRequestsException"`: the service throttled
the call. -/
def ClientError.throttled (e : ClientError) : Bool :=
  e.code == some "TooManyRequestsException"

/-- A `submit_job` response: the `jobId` the service assigned, and the HTTP
status code of its `ResponseMetadata`, which `response_success` reads. -/
structure SubmitResponse where
  jobId : String
  httpStatusCode : Nat
  deriving DecidableEq, Repr

/-- A `terminate_job` response, which `aio_batch_job_terminate` returns as it is:
the HTTP status code of its `ResponseMetadata`. -/
structure TerminateResponse where
  httpStatusCode : Nat
  deriving DecidableEq, Repr

/-- An entry of a `describe_jobs` response (`AWSBatchJobDescription`), with the
fields the module reads: `statusReason` and `createdAt` may be absent. -/
structure JobDescription where
  jobId : String
  status : String
  statusReason : Option String := none
  createdAt : Option Int := none
  deriving DecidableEq, Repr

/-- A `describe_jobs` response, `{"jobs": [...]}`. -/
structure DescribeResponse where
  jobs : List JobDescription
  deriving DecidableEq, Repr

/-- `parse_job_description(job_id, jobs)`: the entry whose `jobId` is
`job_id`. The loop overwrites `job_desc` at each match, so of several matching
entries it is the last; a `job_id` of `None` matches none. -/
def parseJobDescription (jobId : Option String) (jobs : DescribeResponse) :
    Option JobDescription :=
  jobs.jobs.foldl (fun jobDesc job => if some job.jobId = jobId then some job else jobDesc) none

theorem foldl_parse_last (jobId : Option String) :
    ∀ (js : List JobDescription) (acc : Option JobDescription),
      js.foldl (fun jobDesc job => if some job.jobId = jobId then some job else jobDesc) acc =
        (js.filter fun job => some job.jobId = jobId).getLast?.or acc
  | [], acc => rfl
  | j :: js, acc => by
    rw [List.foldl_cons, foldl_parse_last jobId js, List.filter_cons]
    by_cases hj : some j.jobId = jobId
    · simp only [hj, decide_True, if_true, List.getLast?_cons]
      cases (js.filter fun job => some job.jobId = jobId).getLast? <;> rfl
    · simp [hj]

/-- `parse_job_description` returns the last entry of the response whose
`jobId` is the job's. -/
theorem parseJobDescription_eq_last (jobId : Option String) (jobs : DescribeResponse) :
    parseJobDescription jobId jobs = (jobs.jobs.filter fun job => some job.jobId = jobId).getLast? := by
  simpa using foldl_parse_last jobId jobs.jobs none

/-- The entry `parse_job_description` picks is the job's own. -/
theorem parseJobDescription_jobId {jobId : Option String} {jobs : DescribeResponse}
    {d : JobDescription} (h : parseJobDescription jobId jobs = some d) : jobId = some d.jobId := by
  rw [parseJobDescription_eq_last] at h
  simpa [eq_comm] using (List.mem_filter.mp (List.mem_of_getLast?_eq_some h)).2

/-- A response without an entry for the job gives nothing. -/
theorem parseJobDescription_nil (jobId : Option String) :
    parseJobDescription jobId ⟨[]⟩ = none := rfl

/-! ## The spot-failure pattern -/

/-- `.*` then `p`, at the start of `cs`: a prefix of `cs` without a newline
(Python's `.` matches any character but `\n`), followed by `p`. -/
def dotStarThen (p : List Char) : List Char → Bool
  | [] => p.isPrefixOf []
  | c :: cs => p.isPrefixOf (c :: cs) || (c != '\n' && dotStarThen p cs)

theorem dotStarThen_iff (p : List Char) :
    ∀ cs, dotStarThen p cs = true ↔ ∃ a b, cs = a ++ p ++ b ∧ '\n' ∉ a
  | [] => by
    simp only [dotStarThen, List.isPrefixOf_iff_prefix, List.prefix_nil, List.nil_eq_append_iff,
      List.append_eq_nil]
    exact ⟨fun h => ⟨[], [], by simp [h]⟩, fun ⟨_, _, ⟨⟨_, h⟩, _⟩, _⟩ => h⟩
  | c :: cs => by
    simp only [dotStarThen, Bool.or_eq_true, List.isPrefixOf_iff_prefix, Bool.and_eq_true,
      bne_iff_ne, ne_eq, dotStarThen_iff p cs]
    constructor
    · rintro (⟨b, hb⟩ | ⟨hc, a, b, rfl, ha⟩)
      · exact ⟨[], b, by simp [hb], List.not_mem_nil _⟩
      · exact ⟨c :: a, b, rfl, by simp [Ne.symm hc, ha]⟩
    · rintro ⟨_ | ⟨c', a⟩, b, h, ha⟩
      · exact .inl ⟨b, by simpa using h.symm⟩
      · simp only [List.cons_append, List.cons.injEq] at h
        obtain ⟨rfl, rfl⟩ := h
        simp only [List.mem_cons, not_or] at ha
        exact .inr ⟨Ne.symm ha.1, a, b, rfl, ha.2⟩

/-- `re.match(r"Host EC2.*terminated", reason)`: the status reason of a job
whose spot instance was reclaimed. -/
def spotFailure (reason : String) : Bool :=
  "Host EC2".toList.isPrefixOf reason.toList &&
    dotStarThen "terminated".toList (reason.toList.drop 8)

/-- The reasons the pattern matches: `Host EC2`, then anything without a
newline, then `terminated`, then anything. -/
theorem spotFailure_iff (reason : String) :
    spotFailure reason = true ↔
      ∃ a b, reason.toList = "Host EC2".toList ++ a ++ "terminated".toList ++ b ∧ '\n' ∉ a := by
  simp only [spotFailure, Bool.and_eq_true, List.isPrefixOf_iff_prefix, dotStarThen_iff]
  generalize reason.toList = cs
  have h8 : "Host EC2".toList.length = 8 := rfl
  constructor
  · rintro ⟨⟨t, rfl⟩, a, b, hd, ha⟩
    refine ⟨a, b, ?_, ha⟩
    rw [List.drop_left' h8] at hd
    rw [hd, List.append_assoc, List.append_assoc, List.append_assoc]
  · rintro ⟨a, b, rfl, ha⟩
    refine ⟨⟨a ++ "terminated".toList ++ b, by simp only [List.append_assoc]⟩, a, b, ?_, ha⟩
    rw [List.append_assoc, List.append_assoc, List.drop_left' h8, List.append_assoc]

example : spotFailure "Host EC2 (instance i-0f1e2d3c) terminated." = true := by decide
example : spotFailure "Essential container in task exited" = false := by decide

end AioAwsBatch
