import AioAwsBatch.System

/-!
# The adapters' retry loop, against the client

`aio_batch_job_submit`, `aio_batch_job_status` and `aio_batch_job_terminate`
run one retry loop (`Gate.next`), which differs between them only in its call,
the message of its `RuntimeError` and the response it returns. `Gate.drive`
runs a loop against the client: the `t`-th call gets `out (t - 1)` back, a
response or a `ClientError`, and the slot and the jitter sleeps come at once.
It lists the gates the loop passes through: `.call t` for the `t`-th call,
`.jitter t` for the sleep after it.

With `n` the loop's `config.retries` and `k` the number of throttles the
outcomes start with, `Gate.retriesThrottles` proves `Gate.RetriesThrottles`:

* `k ≥ n`: `max(n, 0)` calls and `max(n - 1, 0)` jitter sleeps, each between
  a call and the next (`Gate.retried`), then `RuntimeError`;
* `k < n`: `k + 1` calls and `k` jitter sleeps, then the `(k + 1)`-th outcome:
  its response is returned, its error raised.

`adapters_retry_throttles` says so of the three adapters, with what
`aio_batch_job_submit` writes into the record. The manager runs the same loop
inside `aio_batch_job_submit` and the waiter's `aio_batch_job_status`, and a
step of it calls the client exactly when it leaves the task at a `.call` gate
(`call_step`). So the calls counted here are the manager's calls of
`submit_job` and `describe_jobs` (`countP_call_eq_countP_calling`).
-/

namespace AioAwsBatch

/-- The outcome of a call is a throttle: a `ClientError` with the code
`TooManyRequestsException`. -/
def Input.Throttle (o : Input) : Prop := ∃ e, o = .failed e ∧ e.throttled = true

namespace Gate

/-- The loop waits on a client call. -/
def calling : Gate → Bool
  | .call _ => true
  | _ => false

/-- The loop sleeps in `jitter`. -/
def jittering : Gate → Bool
  | .jitter _ => true
  | _ => false

/-- What the world hands the loop at `g`: the outcome of the `t`-th call is
`out (t - 1)`; the slot and the end of a jitter sleep come at once. -/
def awaited (out : Nat → Input) : Gate → Input
  | .call t => out (t - 1)
  | _ => .resume

/-- The retry loop `step` run against the client for at most `fuel` steps
from `g`: the gates it passes through, in order, and where it leaves `async
with config.sem` (`none`: out of fuel, or an outcome the call does not wait
for). -/
def drive {α : Type} (step : Gate → Input → Option (GateNext α)) (out : Nat → Input) :
    Nat → Gate → List Gate × Option (GateNext α)
  | 0, _ => ([], none)
  | fuel + 1, g =>
    match step g (g.awaited out) with
    | some (.stay g') => (g' :: (drive step out fuel g').1, (drive step out fuel g').2)
    | r => ([], r)

/-- The gates of the calls `c`, …, `c + m - 1` throttled and retried: after
each, a jitter sleep and the next call. -/
def retried : Nat → Nat → List Gate
  | _, 0 => []
  | c, m + 1 => .jitter c :: .call (c + 1) :: retried (c + 1) m

/-- Each jitter sleep is followed by the next call: the loop sleeps only
between two calls, never after the last. -/
def JitterBetweenCalls (gs : List Gate) : Prop :=
  ∀ i t : Nat, gs[i]? = some (.jitter t) → gs[i + 1]? = some (.call (t + 1))

/-- The retry loop `step`, with `retries` tries, raising `RuntimeError(msg)`
and returning the response `reply` reads, against every sequence of outcomes
that starts with `k` throttles: if `k ≥ retries` it calls `max(retries, 0)`
times, sleeps in `jitter` `max(retries - 1, 0)` times, only between calls, and
raises `RuntimeError(msg)`; if `k < retries` it calls `k + 1` times, sleeps `k`
times, only between calls, and returns the `(k + 1)`-th response or raises the
`(k + 1)`-th error. Either way it ends, given fuel for the steps it takes. -/
structure RetriesThrottles {α : Type} (step : Gate → Input → Option (GateNext α)) (retries : Int)
    (msg : String) (reply : Input → Option α) : Prop where
  exhausted : ∀ out : Nat → Input, (∀ i : Nat, (i : Int) < retries → (out i).Throttle) →
    ∀ fuel, 2 * retries.toNat + 1 ≤ fuel →
      (drive step out fuel .acquire).2 = some (.raised (.runtimeError msg)) ∧
      (drive step out fuel .acquire).1.countP calling = retries.toNat ∧
      (drive step out fuel .acquire).1.countP jittering = (retries - 1).toNat ∧
      JitterBetweenCalls (drive step out fuel .acquire).1
  answered : ∀ (out : Nat → Input) (k : Nat), (k : Int) < retries → (∀ i < k, (out i).Throttle) →
    ¬ (out k).Throttle → ∀ fuel, 2 * k + 2 ≤ fuel →
      (drive step out fuel .acquire).1.countP calling = k + 1 ∧
      (drive step out fuel .acquire).1.countP jittering = k ∧
      JitterBetweenCalls (drive step out fuel .acquire).1 ∧
      (∀ a, reply (out k) = some a → (drive step out fuel .acquire).2 = some (.returned a)) ∧
      (∀ e, out k = .failed e → (drive step out fuel .acquire).2 = some (.raised (.clientError e)))

/-! ## The gates of retried throttles -/

@[simp] theorem countP_calling_retried : ∀ c m : Nat, (retried c m).countP calling = m
  | _, 0 => rfl
  | c, m + 1 => by simp [retried, calling, countP_calling_retried (c + 1) m]

@[simp] theorem countP_jittering_retried : ∀ c m : Nat, (retried c m).countP jittering = m
  | _, 0 => rfl
  | c, m + 1 => by simp [retried, jittering, countP_jittering_retried (c + 1) m]

theorem jitterBetweenCalls_retried : ∀ c m : Nat, JitterBetweenCalls (.call c :: retried c m)
  | _, 0 => fun i t h => by rcases i with _ | i <;> simp [retried] at h
  | c, m + 1 => fun i t h => by
    rcases i with _ | _ | i
    · simp at h
    · simp [retried] at h ⊢
      omega
    · simpa [retried] using jitterBetweenCalls_retried (c + 1) m i t (by simpa [retried] using h)

/-! ## One step of the loop -/

section Step

variable {α : Type} {retries : Int} {msg : String} {reply : Input → Option α} {out : Nat → Input}
  {fuel : Nat}

theorem drive_acquire_of_pos (h : 0 < retries) :
    drive (next retries msg reply) out (fuel + 1) .acquire =
      (.call 1 :: (drive (next retries msg reply) out fuel (.call 1)).1,
        (drive (next retries msg reply) out fuel (.call 1)).2) := by
  simp [drive, awaited, next, head, h]

theorem drive_acquire_of_nonpos (h : ¬ 0 < retries) :
    drive (next retries msg reply) out (fuel + 1) .acquire = ([], some (.raised (.runtimeError msg))) := by
  simp [drive, awaited, next, head, h]

/-- A throttled call with a try left: a jitter sleep, then the next call. -/
theorem drive_call_throttled {c : Nat} (ho : (out (c - 1)).Throttle) (hc : (c : Int) < retries) :
    drive (next retries msg reply) out (fuel + 2) (.call c) =
      (.jitter c :: .call (c + 1) :: (drive (next retries msg reply) out fuel (.call (c + 1))).1,
        (drive (next retries msg reply) out fuel (.call (c + 1))).2) := by
  obtain ⟨e, he, ht⟩ := ho
  simp [drive, awaited, next, onError, head, he, ht, hc]

/-- A throttled last try: the loop's `else` raises `RuntimeError`. -/
theorem drive_call_exhausted {c : Nat} (ho : (out (c - 1)).Throttle) (hc : ¬ (c : Int) < retries) :
    drive (next retries msg reply) out (fuel + 1) (.call c) = ([], some (.raised (.runtimeError msg))) := by
  obtain ⟨e, he, ht⟩ := ho
  simp [drive, awaited, next, onError, head, he, ht, hc]

/-- Any other outcome ends the loop there. -/
theorem drive_call_answered {c : Nat} (ho : ¬ (out (c - 1)).Throttle) :
    drive (next retries msg reply) out (fuel + 1) (.call c) =
      ([], next retries msg reply (.call c) (out (c - 1))) := by
  simp only [drive, awaited]
  split
  · rename_i g' h
    cases hout : out (c - 1) <;> rw [hout] at h
    case failed e =>
      have hne : e.throttled = false := by simpa [Input.Throttle, hout] using ho
      simp [next, onError, hne] at h
    all_goals simp [next, Option.map_eq_some'] at h
  · rfl

theorem next_call_reply (hreply : ∀ e, reply (.failed e) = none) {c : Nat} {o : Input} {a : α}
    (h : reply o = some a) : next retries msg reply (.call c) o = some (.returned a) := by
  cases o
  case failed e => rw [hreply e] at h; cases h
  all_goals simp [next, h]

theorem next_call_failed {c : Nat} {e : ClientError} (he : e.throttled = false) :
    next retries msg reply (.call c) (.failed e) = some (.raised (.clientError e)) := by
  simp [next, onError, he]

/-- The calls `c`, …, `c + m - 1` throttled, each with a try left. -/
theorem drive_retried (c m : Nat) (hc : 0 < c) (ht : ∀ i < m, (out (c - 1 + i)).Throttle)
    (hr : ∀ i < m, ((c + i : Nat) : Int) < retries) :
    drive (next retries msg reply) out (2 * m + fuel) (.call c) =
      (retried c m ++ (drive (next retries msg reply) out fuel (.call (c + m))).1,
        (drive (next retries msg reply) out fuel (.call (c + m))).2) := by
  induction m generalizing c with
  | zero => simp [retried]
  | succ m ih =>
    have ht' : ∀ i < m, (out (c + 1 - 1 + i)).Throttle := fun i hi => by
      rw [show c + 1 - 1 + i = c - 1 + (i + 1) by omega]
      exact ht (i + 1) (by omega)
    have hr' : ∀ i < m, ((c + 1 + i : Nat) : Int) < retries := fun i hi => by
      rw [show c + 1 + i = c + (i + 1) by omega]
      exact hr (i + 1) (by omega)
    rw [show 2 * (m + 1) + fuel = 2 * m + fuel + 2 by omega, drive_call_throttled (ht 0 (by omega)) (hr 0 (by omega)),
      ih (c + 1) (by omega) ht' hr', show c + 1 + m = c + (m + 1) by omega]
    rfl

end Step

/-! ## The whole loop -/

/-- The retry loop of an adapter retries throttles as `RetriesThrottles` says,
whatever its call and its response, as long as no `ClientError` is read as a
response. -/
theorem retriesThrottles {α : Type} {retries : Int} {msg : String} {reply : Input → Option α}
    (hreply : ∀ e, reply (.failed e) = none) :
    RetriesThrottles (next retries msg reply) retries msg reply := by
  constructor
  · intro out hthr fuel hf
    by_cases hpos : 0 < retries
    · /- the calls `1`, …, `n - 1` are retried, the `n`-th is the last try -/
      obtain ⟨n, rfl⟩ : ∃ n : Nat, retries = n + 1 := ⟨retries.toNat - 1, by omega⟩
      obtain ⟨f, rfl⟩ : ∃ f, fuel = 2 * n + (f + 1) + 1 := ⟨fuel - 2 * n - 2, by omega⟩
      rw [drive_acquire_of_pos hpos, drive_retried 1 n (by omega)
          (fun i hi => by simpa [Nat.add_comm] using hthr i (by omega)) (fun i hi => by omega),
        drive_call_exhausted (by simpa [Nat.add_comm] using hthr n (by omega)) (by omega)]
      exact ⟨rfl, by simp [calling], by simp [jittering], by simpa using jitterBetweenCalls_retried 1 n⟩
    · obtain ⟨f, rfl⟩ : ∃ f, fuel = f + 1 := ⟨fuel - 1, by omega⟩
      rw [drive_acquire_of_nonpos hpos]
      exact ⟨rfl, by simp; omega, by simp; omega, fun i t h => by simp at h⟩
  · intro out k hk hthr hnk fuel hf
    obtain ⟨f, rfl⟩ : ∃ f, fuel = 2 * k + (f + 1) + 1 := ⟨fuel - 2 * k - 2, by omega⟩
    have hpos : 0 < retries := by omega
    rw [drive_acquire_of_pos hpos, drive_retried 1 k (by omega)
        (fun i hi => by simpa [Nat.add_comm] using hthr i hi) (fun i hi => by omega),
      drive_call_answered (by simpa [Nat.add_comm] using hnk)]
    simp only [List.append_nil, Nat.add_sub_cancel_left]
    refine ⟨by simp [calling], by simp [jittering], by simpa [Nat.add_comm] using jitterBetweenCalls_retried 1 k,
      fun a ha => next_call_reply hreply (by simpa [Nat.add_comm] using ha), fun e he => ?_⟩
    rw [he]
    exact next_call_failed (by simpa [Input.Throttle, he] using hnk)

end Gate

section Calls

variable {responseSuccess : SubmitResponse → Bool} {config : AWSBatchConfig}

theorem aioBatchJobSubmit_call (job : AWSBatchJob) (n : GateNext SubmitResponse) :
    (aioBatchJobSubmit responseSuccess job n).2.call =
      match n with
      | .stay (.call _) => some (.submitJob job.params)
      | _ => none := by
  rcases n with (_ | _ | _) | _ | _ <;> rfl

theorem aioBatchJobStatus_call (job : AWSBatchJob) (f : Nat) (n : GateNext DescribeResponse) :
    (aioBatchJobStatus config job f n).2.call =
      match n with
      | .stay (.call _) => some (.describeJobs [job.jobId])
      | _ => none := by
  rcases n with (_ | _ | _) | _ | _ <;> rfl

/-- A step of the manager calls the client exactly when it leaves the task at
the `.call` gate of an adapter's loop, waiting on the call:
`submit_job(**job.params)` in `aio_batch_job_submit`, `describe_jobs([job_id])`
in the waiter. -/
theorem call_step {t t' : Task} {inp : Input} {e : Effect}
    (h : aioBatchJobManager responseSuccess config t inp = some (t', e)) : e.call.isSome = t'.pc.calling := by
  rcases aioBatchJobManager_cases h with ⟨-, -, rfl, rfl⟩ | ⟨g, n, -, -, rfl, rfl⟩ | ⟨-, -, rfl, rfl⟩ |
    ⟨f, g, n, -, -, rfl, rfl⟩ | ⟨f, -, -, rfl, rfl⟩ | ⟨f, -, -, rfl, rfl⟩ | ⟨od, -, -, rfl, rfl⟩ | ⟨-, -, rfl, rfl⟩
  · unfold loopHead
    split <;> (try split) <;> rfl
  · rcases n with (_ | _ | _) | _ | _ <;> rfl
  · rfl
  · rcases n with (_ | _ | _) | response | _
    any_goals rfl
    simp only [aioBatchJobStatus]
    rcases @waiterOnResponse_spec config t.job f response with ⟨d, -, ⟨-, h'⟩ | h' | h'⟩ | ⟨-, ⟨-, h'⟩ | h'⟩ <;>
      rw [h'] <;> rfl
  · rfl
  · rfl
  · rcases afterWait_spec t.job od with ⟨-, h'⟩ | ⟨d, -, -, h'⟩ | ⟨d, -, -, h'⟩ | ⟨d, -, -, -, h'⟩ <;>
      rw [h'] <;> rfl
  · rfl

/-- Along the steps of a manager, the client calls are the steps that leave the
task at a `.call` gate. -/
theorem countP_call_eq_countP_calling {l : List (Task × Effect)}
    (hl : ∀ x ∈ l, ∃ t inp, aioBatchJobManager responseSuccess config t inp = some x) :
    l.countP (·.2.call.isSome) = l.countP (·.1.pc.calling) := by
  refine List.countP_congr fun ⟨t', e⟩ hx => ?_
  obtain ⟨t, inp, h⟩ := hl _ hx
  rw [call_step h]

end Calls

/-- Three tries, every call throttled: three calls, two jitter sleeps, then
`RuntimeError`. -/
example :
    Gate.drive (Gate.next 3 statusExceeded Input.describeResponse)
        (fun _ => .failed ⟨some "TooManyRequestsException"⟩) 7 .acquire =
      ([.call 1, .jitter 1, .call 2, .jitter 2, .call 3], some (.raised (.runtimeError statusExceeded))) :=
  rfl

end AioAwsBatch
