import AioAwsBatch.ManagerRun
import Mathlib.Logic.Relation

/-!
# Manager tasks on one event loop

`aio_batch_run_jobs` creates one `aio_batch_job_manager` task per job on one
event loop (`aioBatchRunJobs`); the tasks share `config.sem`, the store, and
the store's `DB_SEMAPHORE`. `Sys` is the loop at a moment when every task is
suspended: the tasks, the store, and the free slots of the two semaphores. A
step (`Sys.step`) lets one task go on to its next suspension point on an
input; a task whose step takes a slot of a semaphore with none free waits
there. Every interleaving of the tasks at their `await`s is a sequence of
steps (`Sys.Step`), and what is reachable from the start is what some
interleaving and some responses of the client reach.

`Pc.holdsSlot` says which suspension points lie inside `async with config.sem`:
an outstanding call and a jitter sleep. `slots_step` is the slot accounting of
one step of a task, from which `Sys.Gated` holds at every reachable moment:
the free slots and the tasks holding one add up to the semaphore's width, and
`DB_SEMAPHORE` is free. `rate_gate_discipline` puts it together with what each
step does while it takes a slot or saves.

A step of the loop is a step of one task (`Sys.step_tasks`), so every task of
an interleaving runs its own manager (`tasks_run_own_manager`). Each task holds
its own copy of its record. In the code a record listed twice is one object,
changed by two managers. With job names unique in the batch (`BatchWf`) no
record is listed twice, so the copies are the code's records. Every task keeps
its name (`Sys.jobNames_step`), and what holds of a manager's runs holds of each
task (`tasks_record_invariant`).
-/

namespace AioAwsBatch

/-- The loop of the retry loop holds a slot of `config.sem`: at an outstanding
call, and in a jitter sleep. -/
def Gate.holdsSlot : Gate → Bool
  | .acquire => false
  | .call _ | .jitter _ => true

/-- The task holds a slot of `config.sem`: inside an adapter, past `acquire`. -/
def Pc.holdsSlot : Pc → Bool
  | .submit g | .status _ g => g.holdsSlot
  | _ => false

/-- The task waits on an outstanding client call. -/
def Pc.calling : Pc → Bool
  | .submit (.call _) | .status _ (.call _) => true
  | _ => false

theorem Pc.holdsSlot_of_calling {pc : Pc} (h : pc.calling = true) : pc.holdsSlot = true := by
  cases pc with
  | submit g => cases g <;> first | rfl | cases h
  | status f g => cases g <;> first | rfl | cases h
  | _ => cases h

/-- The store after the step's save, if it made one. -/
def Effect.saveTo (e : Effect) (db : AWSBatchDB) : AWSBatchDB :=
  match e.save with
  | some job => (db.save job).1
  | none => db

@[simp] theorem Effect.fromGate_acquire (g : Gate) (e : Effect) : (e.fromGate g).acquire = (g == .acquire) := rfl
@[simp] theorem Effect.fromGate_release (g : Gate) (e : Effect) : (e.fromGate g).release = e.release := rfl
@[simp] theorem Effect.fromGate_call (g : Gate) (e : Effect) : (e.fromGate g).call = e.call := rfl
@[simp] theorem Effect.fromGate_save (g : Gate) (e : Effect) : (e.fromGate g).save = e.save := rfl

/-- The event loop when every manager task is suspended. -/
structure Sys where
  tasks : List Task
  db : AWSBatchDB
  /-- the free slots of `config.sem` -/
  sem : Nat
  /-- the free slots of `jobs_db.DB_SEMAPHORE` -/
  dbSem : Nat
  deriving DecidableEq

/-- The loop as `aio_batch_run_jobs` starts it: a manager task at the loop's
head for each job, `w` free slots in `config.sem`, and the store's lock free.
Each task gets a copy of its record. The code hands the record object itself to
`aio_batch_job_manager`, so the two agree when no record is listed twice. -/
def aioBatchRunJobs (w : Nat) (jobs : List AWSBatchJob) (db : AWSBatchDB) : Sys :=
  ⟨jobs.map (⟨·, .loop⟩), db, w, 1⟩

/-- A batch as the manager's records need it: every record satisfies the
record invariant, and job names are unique, so no record is listed twice and
each has one manager. -/
structure BatchWf (jobs : List AWSBatchJob) : Prop where
  wf : ∀ job ∈ jobs, job.Wf
  names : (jobs.map (·.jobName)).Nodup

section Step

variable (responseSuccess : SubmitResponse → Bool) (config : AWSBatchConfig)

/-- Task `i` goes on to its next suspension point on the input `inp`. `none`:
there is no task `i`, it does not wait for `inp`, or its step takes a slot of a
semaphore that has none free. Once a task has raised, `handle_as_completed`
raises, and the loop stops after `run_until_complete(client.close())` in the
`finally` block, during which other tasks may still step: a run of the code is
a prefix of a run of `Sys.step` (`Sys.handleAsCompletedDone`). -/
def Sys.step (s : Sys) (i : Nat) (inp : Input) : Option (Sys × Effect) :=
  match s.tasks[i]? with
  | none => none
  | some t =>
    match aioBatchJobManager responseSuccess config t inp with
    | none => none
    | some (t', e) =>
      if (e.acquire && s.sem == 0) || (e.save.isSome && s.dbSem == 0) then none
      else some (⟨s.tasks.set i t', e.saveTo s.db, s.sem - e.acquire.toNat + e.release.toNat, s.dbSem⟩, e)

/-- One step of some task on some input. -/
def Sys.Step (s s' : Sys) : Prop :=
  ∃ i inp e, s.step responseSuccess config i inp = some (s', e)

/-- The loop after each scheduled step in turn. -/
def Sys.run : Sys → List (Nat × Input) → Option Sys
  | s, [] => some s
  | s, (i, inp) :: l => (s.step responseSuccess config i inp).bind fun r => r.1.run l

end Step

section Steps

variable {responseSuccess : SubmitResponse → Bool} {config : AWSBatchConfig}

/-- What a step of the loop is: a step of the task, allowed by the semaphores. -/
theorem Sys.step_cases {s s' : Sys} {i : Nat} {inp : Input} {e : Effect}
    (h : s.step responseSuccess config i inp = some (s', e)) :
    ∃ t t', s.tasks[i]? = some t ∧ aioBatchJobManager responseSuccess config t inp = some (t', e) ∧
      (e.acquire = true → 0 < s.sem) ∧ (e.save.isSome = true → 0 < s.dbSem) ∧
      s' = ⟨s.tasks.set i t', e.saveTo s.db, s.sem - e.acquire.toNat + e.release.toNat, s.dbSem⟩ := by
  unfold Sys.step at h
  split at h
  · cases h
  · rename_i t ht
    split at h
    · cases h
    · rename_i t' e' he
      split at h
      · cases h
      · rename_i hg
        obtain ⟨rfl, rfl⟩ := Prod.mk.inj (Option.some.inj h)
        simp only [Bool.or_eq_true, Bool.and_eq_true, beq_iff_eq, not_or, not_and] at hg
        exact ⟨t, t', ht, he, fun ha => Nat.pos_of_ne_zero (hg.1 ha),
          fun hs => Nat.pos_of_ne_zero (hg.2 hs), rfl⟩

theorem Sys.reach_run {s s' : Sys} {l : List (Nat × Input)} (h : s.run responseSuccess config l = some s') :
    Relation.ReflTransGen (Sys.Step responseSuccess config) s s' := by
  induction l generalizing s with
  | nil => cases h; exact .refl
  | cons a l ih =>
    obtain ⟨r, hr, h⟩ := Option.bind_eq_some.mp h
    exact .head ⟨a.1, a.2, r.2, hr⟩ (ih h)

/-! ## The slot accounting -/

theorem Gate.holdsSlot_add (g : Gate) : g.holdsSlot.toNat + (g == .acquire).toNat = 1 := by
  cases g <;> rfl

theorem holdsSlot_loopHead (job : AWSBatchJob) : (loopHead job).holdsSlot = false := by
  unfold loopHead; split
  · split <;> rfl
  · rfl

theorem holdsSlot_afterWait (job : AWSBatchJob) (od : Option JobDescription) :
    (afterWait job od).pc.holdsSlot = false := by
  rcases afterWait_spec job od with ⟨-, h⟩ | ⟨d, -, -, h⟩ | ⟨d, -, -, h⟩ | ⟨d, -, -, -, h⟩ <;> rw [h] <;> rfl

theorem holdsSlot_waiterOnResponse (job : AWSBatchJob) (f : Nat) (response : DescribeResponse) :
    (waiterOnResponse config job f response).pc.holdsSlot = false := by
  rcases waiterOnResponse_spec job f response with ⟨d, -, ⟨-, h⟩ | h | h⟩ | ⟨-, ⟨-, h⟩ | h⟩ <;> rw [h] <;> rfl

/-- Out of the retry loop the slot is given back; in it, it is held. -/
theorem slot_aioBatchJobSubmit (job : AWSBatchJob) {g : Gate} {inp : Input} {n : GateNext SubmitResponse}
    (hn : Gate.next config.retries submitExceeded Input.submitResponse g inp = some n) :
    (aioBatchJobSubmit responseSuccess job n).1.pc.holdsSlot.toNat +
      (aioBatchJobSubmit responseSuccess job n).2.release.toNat = 1 := by
  rcases n with (_ | _ | _) | _ | _
  · exact absurd rfl (Gate.next_stay hn)
  all_goals rfl

theorem slot_aioBatchJobStatus (job : AWSBatchJob) (f : Nat) {g : Gate} {inp : Input}
    {n : GateNext DescribeResponse}
    (hn : Gate.next config.retries statusExceeded Input.describeResponse g inp = some n) :
    (aioBatchJobStatus config job f n).1.pc.holdsSlot.toNat +
      (aioBatchJobStatus config job f n).2.release.toNat = 1 := by
  rcases n with (_ | _ | _) | response | _
  · exact absurd rfl (Gate.next_stay hn)
  · rfl
  · rfl
  · simp only [aioBatchJobStatus, holdsSlot_waiterOnResponse]; rfl
  · rfl

/-- The slot accounting of one step of a task: it takes a slot only when it
enters an adapter, and gives it back only when it leaves one. -/
theorem slots_step {t t' : Task} {inp : Input} {e : Effect}
    (h : aioBatchJobManager responseSuccess config t inp = some (t', e)) :
    t'.pc.holdsSlot.toNat + e.release.toNat = t.pc.holdsSlot.toNat + e.acquire.toNat := by
  rcases aioBatchJobManager_cases h with ⟨hp, -, rfl, rfl⟩ | ⟨g, n, hp, hn, rfl, rfl⟩ |
    ⟨hp, -, rfl, rfl⟩ | ⟨f, g, n, hp, hn, rfl, rfl⟩ | ⟨f, hp, -, rfl, rfl⟩ | ⟨f, hp, -, rfl, rfl⟩ |
    ⟨od, hp, -, rfl, rfl⟩ | ⟨hp, -, rfl, rfl⟩ <;> rw [hp]
  · simp only [holdsSlot_loopHead]; rfl
  · simp only [Effect.fromGate_release, Effect.fromGate_acquire]
    rw [slot_aioBatchJobSubmit t.job hn, Pc.holdsSlot, Gate.holdsSlot_add]
  · rfl
  · simp only [Effect.fromGate_release, Effect.fromGate_acquire]
    rw [slot_aioBatchJobStatus t.job f hn, Pc.holdsSlot, Gate.holdsSlot_add]
  · rfl
  · rfl
  · simp only [holdsSlot_afterWait]; rfl
  · rfl

/-! ## What a step does while it takes a slot or saves -/

theorem effect_aioBatchJobSubmit (job : AWSBatchJob) (n : GateNext SubmitResponse) :
    ((aioBatchJobSubmit responseSuccess job n).2.call.isSome = true →
      (aioBatchJobSubmit responseSuccess job n).1.pc.calling = true) ∧
    (aioBatchJobSubmit responseSuccess job n).2.save = none := by
  rcases n with (_ | _ | _) | _ | _ <;> simp [aioBatchJobSubmit, Pc.calling]

theorem effect_aioBatchJobStatus (job : AWSBatchJob) (f : Nat) (n : GateNext DescribeResponse) :
    ((aioBatchJobStatus config job f n).2.call.isSome = true →
      (aioBatchJobStatus config job f n).1.pc.calling = true) ∧
    (aioBatchJobStatus config job f n).2.save = none := by
  rcases n with (_ | _ | _) | _ | _ <;> simp [aioBatchJobStatus, Pc.calling]

/-- A step that issues a call leaves the task waiting on it; a step that takes
a slot is made by a task that holds none; a save is made by a task that holds
no slot before or after it, and issues no call. -/
theorem discipline_step {t t' : Task} {inp : Input} {e : Effect}
    (h : aioBatchJobManager responseSuccess config t inp = some (t', e)) :
    (e.call.isSome = true → t'.pc.calling = true) ∧ (e.acquire = true → t.pc.holdsSlot = false) ∧
      (e.save.isSome = true → t.pc.holdsSlot = false ∧ t'.pc.holdsSlot = false ∧ e.call = none) := by
  rcases aioBatchJobManager_cases h with ⟨hp, -, rfl, rfl⟩ | ⟨g, n, hp, -, rfl, rfl⟩ |
    ⟨hp, -, rfl, rfl⟩ | ⟨f, g, n, hp, -, rfl, rfl⟩ | ⟨f, hp, -, rfl, rfl⟩ | ⟨f, hp, -, rfl, rfl⟩ |
    ⟨od, hp, -, rfl, rfl⟩ | ⟨hp, -, rfl, rfl⟩ <;> rw [hp]
  · simp
  · obtain ⟨hc, hs⟩ := @effect_aioBatchJobSubmit responseSuccess t.job n
    refine ⟨hc, fun ha => ?_, fun h' => by simp [hs] at h'⟩
    obtain rfl : g = .acquire := by simpa using ha
    rfl
  · simp [Pc.holdsSlot, Gate.holdsSlot]
  · obtain ⟨hc, hs⟩ := @effect_aioBatchJobStatus config t.job f n
    refine ⟨hc, fun ha => ?_, fun h' => by simp [hs] at h'⟩
    obtain rfl : g = .acquire := by simpa using ha
    rfl
  · simp
  · simp
  · simp only [holdsSlot_afterWait]; simp [Pc.holdsSlot]
  · simp [Pc.holdsSlot]

/-! ## The semaphores at every moment -/

/-- The accounting of the two semaphores at a moment of the loop. -/
structure Sys.Gated (w : Nat) (s : Sys) : Prop where
  /-- the free slots of `config.sem` and the tasks that hold one make up its width -/
  slots : s.sem + s.tasks.countP (·.pc.holdsSlot) = w
  /-- `DB_SEMAPHORE` is free: no task holds it at a suspension point -/
  dbFree : s.dbSem = 1

theorem toNat_le_countP {α : Type} {p : α → Bool} {l : List α} {a : α} (ha : a ∈ l) :
    (p a).toNat ≤ l.countP p := by
  cases hp : p a
  · exact Nat.zero_le _
  · exact List.countP_pos_iff.mpr ⟨a, ha, hp⟩

theorem countP_set_toNat {α : Type} (p : α → Bool) {l : List α} {i : Nat} (hi : i < l.length) (a : α) :
    (l.set i a).countP p = l.countP p - (p l[i]).toNat + (p a).toNat := by
  rw [List.countP_set _ _ _ _ hi]
  cases p l[i] <;> cases p a <;> rfl

theorem gated_aioBatchRunJobs (w : Nat) (jobs : List AWSBatchJob) (db : AWSBatchDB) :
    (aioBatchRunJobs w jobs db).Gated w :=
  ⟨by simp [aioBatchRunJobs, List.countP_eq_zero, Pc.holdsSlot], rfl⟩

theorem Sys.Gated.step {w : Nat} {s s' : Sys} {i : Nat} {inp : Input} {e : Effect} (hg : s.Gated w)
    (h : s.step responseSuccess config i inp = some (s', e)) : s'.Gated w := by
  obtain ⟨t, t', ht, he, hacq, -, rfl⟩ := Sys.step_cases h
  obtain ⟨hi, rfl⟩ := List.getElem?_eq_some_iff.mp ht
  have hacc := slots_step he
  have hsem : e.acquire.toNat ≤ s.sem := by
    cases ha : e.acquire
    · exact Nat.zero_le _
    · exact hacq ha
  have hle : s.tasks[i].pc.holdsSlot.toNat ≤ s.tasks.countP (·.pc.holdsSlot) :=
    toNat_le_countP (p := (·.pc.holdsSlot)) (List.getElem_mem hi)
  refine ⟨?_, hg.dbFree⟩
  dsimp only
  rw [countP_set_toNat _ hi]
  have := hg.slots
  omega

theorem Sys.gated_reach {w : Nat} {s s' : Sys} (hg : s.Gated w)
    (hs : Relation.ReflTransGen (Sys.Step responseSuccess config) s s') : s'.Gated w := by
  induction hs with
  | refl => exact hg
  | tail _ hst ih =>
    obtain ⟨i, inp, e, h⟩ := hst
    exact ih.step h

/-- The rate gate and the store's lock, over every interleaving of the manager
tasks that `aio_batch_run_jobs` starts and every response of the client: at
every moment the tasks holding a slot of `config.sem` (those at an outstanding
call or in a jitter sleep, not those in the waiter's delays) and its free slots
make up its width `w`, so at most `w` calls are outstanding, and
`DB_SEMAPHORE` is free; a step that takes a slot is made by a task holding
none, a step that issues a call leaves its task waiting on it inside the slot,
and a save is made, without a call, by a task that holds no slot. -/
theorem rate_gate_discipline (w : Nat) (jobs : List AWSBatchJob) (db : AWSBatchDB) (s : Sys)
    (hs : Relation.ReflTransGen (Sys.Step responseSuccess config) (aioBatchRunJobs w jobs db) s) :
    s.sem + s.tasks.countP (·.pc.holdsSlot) = w ∧ s.tasks.countP (·.pc.calling) ≤ w ∧ s.dbSem = 1 ∧
    ∀ i inp s' e, s.step responseSuccess config i inp = some (s', e) →
      ∃ t t', s.tasks[i]? = some t ∧ s'.tasks[i]? = some t' ∧
        (e.call.isSome = true → t'.pc.calling = true) ∧
        (e.acquire = true → t.pc.holdsSlot = false) ∧
        (e.save.isSome = true → t.pc.holdsSlot = false ∧ t'.pc.holdsSlot = false ∧ e.call = none) := by
  have hg := Sys.gated_reach (gated_aioBatchRunJobs w jobs db) hs
  have hcall : s.tasks.countP (·.pc.calling) ≤ s.tasks.countP (·.pc.holdsSlot) :=
    List.countP_mono_left fun t _ => Pc.holdsSlot_of_calling
  refine ⟨hg.slots, by have := hg.slots; omega, hg.dbFree, fun i inp s' e h => ?_⟩
  obtain ⟨t, t', ht, he, -, -, rfl⟩ := Sys.step_cases h
  have hi := (List.getElem?_eq_some_iff.mp ht).1
  exact ⟨t, t', ht, List.getElem?_set_self hi, discipline_step he⟩

/-! ## Each task runs its own manager -/

theorem getElem?_set_cases {l : List Task} {i j : Nat} {a b : Task} (h : (l.set i a)[j]? = some b) :
    (j = i ∧ b = a) ∨ (j ≠ i ∧ l[j]? = some b) := by
  rw [List.getElem?_set] at h
  split at h
  · split at h
    · exact .inl ⟨by omega, (Option.some.inj h).symm⟩
    · cases h
  · exact .inr ⟨by omega, h⟩

/-- A step of the loop is a step of one task; the others stay where they are. -/
theorem Sys.step_tasks {s s' : Sys} {i : Nat} {inp : Input} {e : Effect}
    (h : s.step responseSuccess config i inp = some (s', e)) :
    s'.tasks.length = s.tasks.length ∧ ∀ (j : Nat) (t : Task), s.tasks[j]? = some t →
      ∃ t', s'.tasks[j]? = some t' ∧ (t' = t ∨ Task.Step responseSuccess config t t') := by
  obtain ⟨t, t', ht, he, -, -, rfl⟩ := Sys.step_cases h
  refine ⟨List.length_set .., fun j u hu => ?_⟩
  by_cases hij : i = j
  · subst hij
    rw [ht] at hu
    cases hu
    exact ⟨t', List.getElem?_set_self (List.getElem?_eq_some_iff.mp ht).1, .inr ⟨inp, e, he⟩⟩
  · exact ⟨u, by rw [List.getElem?_set_ne hij]; exact hu, .inl rfl⟩

theorem map_set_eq_of_getElem? {α β : Type} {f : α → β} {l : List α} {i : Nat} {a b : α} (hb : l[i]? = some b)
    (h : f a = f b) : (l.set i a).map f = l.map f := by
  induction l generalizing i with
  | nil => rfl
  | cons x l ih =>
    cases i with
    | zero => simp_all
    | succ i => simp [ih (by simpa using hb)]

theorem jobName_step {t t' : Task} (hs : Task.Step responseSuccess config t t') : t'.job.jobName = t.job.jobName := by
  rcases job_step hs with h | ⟨-, response, h⟩ | ⟨d, h⟩ | h <;> rw [h] <;> rfl

/-- A step keeps every task's job name. -/
theorem Sys.jobNames_step {s s' : Sys} {i : Nat} {inp : Input} {e : Effect}
    (h : s.step responseSuccess config i inp = some (s', e)) :
    s'.tasks.map (·.job.jobName) = s.tasks.map (·.job.jobName) := by
  obtain ⟨t, t', ht, he, -, -, rfl⟩ := Sys.step_cases h
  exact map_set_eq_of_getElem? ht (jobName_step ⟨inp, e, he⟩)

@[simp] theorem aioBatchRunJobs_jobNames (w : Nat) (jobs : List AWSBatchJob) (db : AWSBatchDB) :
    (aioBatchRunJobs w jobs db).tasks.map (·.job.jobName) = jobs.map (·.jobName) := by
  simp [aioBatchRunJobs, Function.comp_def]

theorem Sys.jobNames_reach {s s' : Sys} (hs : Relation.ReflTransGen (Sys.Step responseSuccess config) s s') :
    s'.tasks.map (·.job.jobName) = s.tasks.map (·.job.jobName) := by
  induction hs with
  | refl => rfl
  | tail _ hst ih =>
    obtain ⟨i, inp, e, h⟩ := hst
    exact (Sys.jobNames_step h).trans ih

/-- Under every interleaving the loop keeps one task per job, and each task is
where a run of its own manager, from its job at the loop's head, leaves it: the
runs of `Task.Step` are the runs of the tasks of any interleaving. -/
theorem tasks_run_own_manager (w : Nat) (jobs : List AWSBatchJob) (db : AWSBatchDB) (s : Sys)
    (hs : Relation.ReflTransGen (Sys.Step responseSuccess config) (aioBatchRunJobs w jobs db) s) :
    s.tasks.length = jobs.length ∧ ∀ (j : Nat) (job : AWSBatchJob), jobs[j]? = some job →
      ∃ t, s.tasks[j]? = some t ∧ Relation.ReflTransGen (Task.Step responseSuccess config) ⟨job, .loop⟩ t := by
  induction hs with
  | refl =>
    exact ⟨List.length_map .., fun j job hj => ⟨_, by simp [aioBatchRunJobs, hj], .refl⟩⟩
  | tail _ hst ih =>
    obtain ⟨i, inp, e, h⟩ := hst
    obtain ⟨hlen, hstep⟩ := Sys.step_tasks h
    refine ⟨hlen.trans ih.1, fun j job hj => ?_⟩
    obtain ⟨t, ht, hrun⟩ := ih.2 j job hj
    obtain ⟨t', ht', rfl | hst'⟩ := hstep j t ht
    · exact ⟨_, ht', hrun⟩
    · exact ⟨t', ht', hrun.tail hst'⟩

end Steps

/-- Two new jobs on a semaphore of width 1: the first has taken the only slot
and waits on its `submit_job` call, the second waits for the slot. -/
theorem rate_gate_discipline_one_call :
    let jobs : List AWSBatchJob :=
      [AWSBatchJob.new { jobName := "t-0000", jobQueue := "batch-dev", jobDefinition := "batch-dev" },
        AWSBatchJob.new { jobName := "t-0001", jobQueue := "batch-dev", jobDefinition := "batch-dev" }]
    ∃ s, (aioBatchRunJobs 1 jobs .empty).run (fun _ => true) {} [(0, .resume), (1, .resume), (0, .resume)] = some s ∧
      s.sem = 0 ∧ s.tasks.map (·.pc) = [.submit (.call 1), .submit .acquire] ∧
      s.sem + s.tasks.countP (·.pc.holdsSlot) = 1 ∧ s.tasks.countP (·.pc.calling) ≤ 1 ∧ s.dbSem = 1 ∧
      ∀ i inp s' e, s.step (fun _ => true) {} i inp = some (s', e) →
        ∃ t t', s.tasks[i]? = some t ∧ s'.tasks[i]? = some t' ∧
          (e.call.isSome = true → t'.pc.calling = true) ∧
          (e.acquire = true → t.pc.holdsSlot = false) ∧
          (e.save.isSome = true → t.pc.holdsSlot = false ∧ t'.pc.holdsSlot = false ∧ e.call = none) := by
  dsimp only
  refine ⟨_, (Option.some_get ?hs).symm, ?_, ?_,
    rate_gate_discipline 1 _ .empty _ (Sys.reach_run (Option.some_get ?hs).symm)⟩
  case hs => decide
  all_goals decide

end AioAwsBatch
