import AioAwsBatch.System

/-!
# The loop never deadlocks

A task of `aio_batch_run_jobs` that has not ended waits at its suspension point
for one input (`Pc.awaited`): the end of a sleep or its turn at a lock, or, at
an outstanding call, the call's error, which no retry loop refuses. With the
accounting of `Sys.Gated`:

* `Sys.Gated.step_awaited`: a task can always take that step, unless it waits for a
  slot of `config.sem` and none is free; `DB_SEMAPHORE` never blocks, since a
  save takes and gives it back in one step;
* `run_jobs_deadlock_free`: at every moment of every interleaving, a task not
  waiting for a slot can go on, and as long as one task has not ended some task
  can go on: when no slot is free, a task holds one (the semaphore has width at
  least one), and that task waits on its call or its jitter sleep, not on a
  lock. With a width of `0` every task would stop at its first `async with
  config.sem`.
-/

namespace AioAwsBatch

/-- The task waits at `async with config.sem` to take a slot. -/
def Pc.waitsForSlot : Pc → Bool
  | .submit .acquire | .status _ .acquire => true
  | _ => false

/-- An input the task waits for: the error of its outstanding call, or else
`resume`. -/
def Pc.awaited : Pc → Input
  | .submit (.call _) | .status _ (.call _) => .failed ⟨none⟩
  | _ => .resume

/-- A task in a slot waits on its call or its jitter sleep: it has not ended,
and does not wait for another slot. -/
theorem Pc.active_of_holdsSlot {pc : Pc} (h : pc.holdsSlot = true) :
    (∀ o, pc ≠ .done o) ∧ pc.waitsForSlot = false := by
  cases pc with
  | submit g => cases g <;> first | exact ⟨fun _ => nofun, rfl⟩ | cases h
  | status f g => cases g <;> first | exact ⟨fun _ => nofun, rfl⟩ | cases h
  | _ => cases h

section Progress

variable {responseSuccess : SubmitResponse → Bool} {config : AWSBatchConfig}

/-- A task that has not ended takes a step on the input it waits for; the step
takes a slot only if the task waits for one. -/
theorem manager_awaited {t : Task} (hd : ∀ o, t.pc ≠ .done o) :
    ∃ t' e, aioBatchJobManager responseSuccess config t t.pc.awaited = some (t', e) ∧
      (e.acquire = true → t.pc.waitsForSlot = true) := by
  obtain ⟨job, pc⟩ := t
  cases pc with
  | done o => exact absurd rfl (hd o)
  | submit g => cases g <;> exact ⟨_, _, rfl, fun h => by first | rfl | cases h⟩
  | status f g => cases g <;> exact ⟨_, _, rfl, fun h => by first | rfl | cases h⟩
  | _ => exact ⟨_, _, rfl, fun h => by cases h⟩

/-- At a moment with the semaphores accounted for, a task that has not ended
takes the step it waits for, when it does not wait for a slot or one is free. -/
theorem Sys.Gated.step_awaited {w : Nat} {s : Sys} (hg : s.Gated w) {j : Nat} {t : Task}
    (ht : s.tasks[j]? = some t) (hd : ∀ o, t.pc ≠ .done o) (hfree : t.pc.waitsForSlot = true → 0 < s.sem) :
    ∃ s' e, s.step responseSuccess config j t.pc.awaited = some (s', e) := by
  obtain ⟨t', e, he, ha⟩ := @manager_awaited responseSuccess config t hd
  have hc : ((e.acquire && s.sem == 0) || (e.save.isSome && s.dbSem == 0)) = false := by
    rw [hg.dbFree]
    cases hacq : e.acquire
    · simp
    · have := hfree (ha hacq)
      simpa using Nat.pos_iff_ne_zero.mp this
  simp only [Sys.step, ht, he, hc, Bool.false_eq_true, if_false]
  exact ⟨_, _, rfl⟩

/-- No deadlock, over every interleaving of the manager tasks that
`aio_batch_run_jobs` starts and every response of the client: at every moment
a task that has not ended and does not wait for a slot of `config.sem` can take
the step it waits for, and, the semaphore having a slot at least, while some
task has not ended some task can go on. -/
theorem run_jobs_deadlock_free (w : Nat) (hw : 0 < w) (jobs : List AWSBatchJob) (db : AWSBatchDB) (s : Sys)
    (hs : Relation.ReflTransGen (Sys.Step responseSuccess config) (aioBatchRunJobs w jobs db) s) :
    (∀ (j : Nat) (t : Task), s.tasks[j]? = some t → (∀ o, t.pc ≠ .done o) → t.pc.waitsForSlot = false →
      ∃ s' e, s.step responseSuccess config j t.pc.awaited = some (s', e)) ∧
    ((∃ t ∈ s.tasks, ∀ o, t.pc ≠ .done o) → ∃ i inp s' e, s.step responseSuccess config i inp = some (s', e)) := by
  have hg := Sys.gated_reach (gated_aioBatchRunJobs w jobs db) hs
  refine ⟨fun j t ht hd hwait => hg.step_awaited ht hd (by simp [hwait]), fun ⟨t, htm, hd⟩ => ?_⟩
  obtain ⟨j, ht⟩ := List.mem_iff_getElem?.mp htm
  by_cases hsem : 0 < s.sem
  · exact ⟨j, _, hg.step_awaited ht hd fun _ => hsem⟩
  /- no slot is free: some task holds one, and goes on -/
  have hheld : 0 < s.tasks.countP (·.pc.holdsSlot) := by
    have := hg.slots
    omega
  obtain ⟨u, hum, hu⟩ := List.countP_pos_iff.mp hheld
  obtain ⟨k, hk⟩ := List.mem_iff_getElem?.mp hum
  obtain ⟨hud, huw⟩ := Pc.active_of_holdsSlot hu
  exact ⟨k, _, hg.step_awaited hk hud (by simp [huw])⟩

end Progress

/-- Two new jobs on a semaphore of width 1: the first holds the only slot at
its `submit_job` call, and the second waits for the slot. -/
theorem run_jobs_deadlock_free_blocked :
    let jobs : List AWSBatchJob :=
      [AWSBatchJob.new { jobName := "t-0000", jobQueue := "batch-dev", jobDefinition := "batch-dev" },
        AWSBatchJob.new { jobName := "t-0001", jobQueue := "batch-dev", jobDefinition := "batch-dev" }]
    0 < 1 ∧ ∃ s, (aioBatchRunJobs 1 jobs .empty).run (fun _ => true) {} [(0, .resume), (1, .resume), (0, .resume)] =
        some s ∧
      s.sem = 0 ∧ s.tasks.map (·.pc) = [.submit (.call 1), .submit .acquire] ∧
      (∀ (j : Nat) (t : Task), s.tasks[j]? = some t → (∀ o, t.pc ≠ .done o) → t.pc.waitsForSlot = false →
        ∃ s' e, s.step (fun _ => true) {} j t.pc.awaited = some (s', e)) ∧
      ((∃ t ∈ s.tasks, ∀ o, t.pc ≠ .done o) → ∃ i inp s' e, s.step (fun _ => true) {} i inp = some (s', e)) := by
  dsimp only
  refine ⟨by decide, _, (Option.some_get ?hs).symm, ?_, ?_,
    run_jobs_deadlock_free 1 (by decide) _ .empty _ (Sys.reach_run (Option.some_get ?hs).symm)⟩
  case hs => decide
  all_goals decide

end AioAwsBatch
